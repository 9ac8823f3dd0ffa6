import LetPoly.Number.Numeral
import LetPoly.Text.Quoted
import LetPoly.Ty

set_option autoImplicit false

namespace LetPoly

inductive Literal where
  | int (n : Int64)
  | float (x : Binary64)
  | string (s : String)
  | unit
  deriving DecidableEq, Inhabited

namespace Literal

def ty : Literal → Ty
  | .int _ => .int
  | .float _ => .float
  | .string _ => .string
  | .unit => .unit

/-- From 0.0001 up to below 10^16 with a point only; of two equally near decimals the one further
from zero. -/
def floatFormat : FloatFormat := ⟨-4, 15, .up⟩

/-- A NaN has no sign. -/
def floatText (x : Binary64) : String :=
  if x.isNaN then "NaN"
  else if x.isFinite then (floatFormat.shortest x).text false
  else if x.negative then "-inf" else "inf"

def text : Literal → String
  | .int n => (Numeral.ofInt n.toInt).text false
  | .float x => floatText x
  | .string s => Text.quoted '"' s.toList
  | .unit => "()"

def same : Literal → Literal → Bool
  | .int m, .int n => m = n
  | .float x, .float y => x.same y
  | .string s, .string t => s = t
  | .unit, .unit => true
  | _, _ => false

end Literal

end LetPoly
