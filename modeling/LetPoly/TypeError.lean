import LetPoly.Unify

set_option autoImplicit false

namespace LetPoly

inductive TypeError where
  | unbound (name : String)
  | unify (e : UnifyError)
  | unsupported (description : String)
  deriving DecidableEq

def UnifyError.message : UnifyError → String
  | .mismatch l r => "cannot unify `" ++ l.text ++ "` and `" ++ r.text ++ "`"
  | .infinite v t => "infinite type: `'" ++ v ++ "` occurs in `" ++ t.text ++ "`"

namespace TypeError

def code : TypeError → String
  | .unbound _ => "E0001"
  | .unify (.mismatch _ _) => "E0002"
  | .unify (.infinite _ _) => "E0003"
  | .unsupported _ => "E0004"

def message : TypeError → String
  | .unbound x => "unbound variable `" ++ x ++ "`"
  | .unify e => e.message
  | .unsupported d => "unsupported construct: " ++ d

end TypeError

end LetPoly
