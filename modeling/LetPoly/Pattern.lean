import LetPoly.Ident
import LetPoly.Literal

set_option autoImplicit false

namespace LetPoly

inductive Pattern where
  | var (x : Ident)
  | wildcard
  | lit (l : Literal)
  /-- Written `x@p`. -/
  | named (x : Ident) (p : Pattern)
  | con (c : Ident) (args : List Pattern)
  deriving Inhabited

namespace Pattern

open Text (parens)

def kind : Pattern → String
  | .var _ => "variable"
  | .wildcard => "wildcard"
  | .lit _ => "literal"
  | .named _ _ => "as"
  | .con _ _ => "constructor"

/-- Stands without parentheses where an argument is expected. A negative float does, too. -/
def isAtomic : Pattern → Bool
  | .lit (.int n) => 0 ≤ n
  | .con _ args => args.isEmpty
  | _ => true

mutual
def text : Pattern → String
  | .var x => x.name
  | .wildcard => "_"
  | .lit l => l.text
  | .named x p => x.name ++ "@" ++ parens (!p.isAtomic) p.text
  | .con c args => c.name ++ argsText args

def argsText : List Pattern → String
  | [] => ""
  | p :: ps => " " ++ parens (!p.isAtomic) p.text ++ argsText ps
end

mutual
def same : Pattern → Pattern → Bool
  | .var x, .var y => x.same y
  | .wildcard, .wildcard => true
  | .lit l, .lit m => l.same m
  | .named x p, .named y q => x.same y && p.same q
  | .con c ps, .con d qs => c.same d && sameAll ps qs
  | _, _ => false

def sameAll : List Pattern → List Pattern → Bool
  | [], [] => true
  | p :: ps, q :: qs => p.same q && sameAll ps qs
  | _, _ => false
end

end Pattern

end LetPoly
