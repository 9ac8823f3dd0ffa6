set_option autoImplicit false

namespace LetPoly

/-- Byte offsets. A span read from outside may be reversed. -/
structure Span where
  start : UInt32
  stop : UInt32
  deriving DecidableEq, Inhabited

namespace Span

def length (s : Span) : UInt32 := if s.start ≤ s.stop then s.stop - s.start else 0

def isEmpty (s : Span) : Bool := s.start = s.stop

def merge (s t : Span) : Span := ⟨min s.start t.start, max s.stop t.stop⟩

end Span

structure Ident where
  name : String
  span : Option Span := none
  deriving DecidableEq, Inhabited

/-- Places do not count. -/
def Ident.same (x y : Ident) : Bool := x.name = y.name

end LetPoly
