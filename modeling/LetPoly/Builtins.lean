import LetPoly.Context

set_option autoImplicit false

namespace LetPoly

namespace Builtins

def a : Ty := .var "a"
def b : Ty := .var "b"
def c : Ty := .var "c"

def values : List (String × Scheme) := [
  ("id", .closed (.fn a a)),
  ("const", .closed (.fns [a, b] a)),
  ("flip", .closed (.fns [.fns [a, b] c, b, a] c)),
  ("compose", .closed (.fns [.fn b c, .fn a b, a] c)),
  ("apply", .closed (.fns [.fn a b, a] b)),
  ("add", .mono (.fns [.int, .int] .int)),
  ("sub", .mono (.fns [.int, .int] .int)),
  ("mul", .mono (.fns [.int, .int] .int)),
  ("addf", .mono (.fns [.float, .float] .float)),
  ("concat", .mono (.fns [.string, .string] .string)),
  ("show", .closed (.fn a .string)),
  ("unit", .mono .unit)]

end Builtins

def Context.default : Context := NameMap.ofList Builtins.values

end LetPoly
