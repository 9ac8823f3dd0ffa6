import LetPoly.Json.Basic
import LetPoly.Scheme
import LetPoly.TypeError

set_option autoImplicit false

namespace LetPoly

def Ty.toJson : Ty → Json
  | .con c => .tagged "Con" (.fields [("name", .string c)])
  | .var v => .tagged "Var" (.string v)
  | .app f a => .tagged "App" (.array [f.toJson, a.toJson])

def Scheme.toJson (σ : Scheme) : Json :=
  .fields [("vars", .array (σ.vars.keys.map .string)), ("ty", σ.body.toJson)]

def TypeError.toJson : TypeError → Json
  | .unbound x => .tagged "UnboundVariable" (.fields [("name", .string x)])
  | .unify (.mismatch l r) =>
    .tagged "UnificationFailure" (.fields [("left", l.toJson), ("right", r.toJson)])
  | .unify (.infinite v t) => .tagged "InfiniteType" (.fields [("var", .string v), ("ty", t.toJson)])
  | .unsupported d => .tagged "UnsupportedConstruct" (.fields [("description", .string d)])

end LetPoly
