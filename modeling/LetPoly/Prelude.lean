import LetPoly.Context
import LetPoly.Signature.Parser
import LetPoly.Toml.StringTable

set_option autoImplicit false

namespace LetPoly

structure Prelude where
  values : OrderedMap String
  deriving Inhabited

inductive LoadError where
  | missing
  | notText
  | malformed
  deriving DecidableEq

structure PreludeError where
  name : String
  cause : Signature.Error
  deriving DecidableEq

def PreludeError.message (e : PreludeError) : String :=
  "invalid signature for `" ++ e.name ++ "`: " ++ e.cause.message

namespace Prelude

def ofText (src : String) : Except LoadError Prelude :=
  match Toml.stringTable? "values" src with
  | some values => .ok ⟨values⟩
  | none => .error .malformed

def ofFile (contents : Option ByteArray) : Except LoadError Prelude :=
  match contents with
  | none => .error .missing
  | some bytes =>
    match String.fromUTF8? bytes with
    | none => .error .notText
    | some src => ofText src

def extendWith (Γ : Context) : List (String × String) → Except PreludeError Context
  | [] => .ok Γ
  | (x, sig) :: rest =>
    match Signature.parseScheme sig with
    | .ok σ => extendWith (Γ.insert x σ) rest
    | .error e => .error ⟨x, e⟩

/-- Adds the values of the prelude to `Γ`; they hide those of the same name. -/
def extend (p : Prelude) (Γ : Context) : Except PreludeError Context :=
  extendWith Γ p.values.entries

def toContext (p : Prelude) : Except PreludeError Context := p.extend ∅

end Prelude

end LetPoly
