import LetPoly.NameMap
import LetPoly.Text.Parens

/-!
Types: constructors, variables and applications. A function type is the arrow constructor applied
twice, so a partial arrow such as `(->) Int` is a type as well.
-/

set_option autoImplicit false

namespace LetPoly

inductive Ty where
  | con (name : String)
  | var (name : String)
  | app (head arg : Ty)
  deriving DecidableEq, Inhabited, Repr

namespace Ty

open Text (parens)

def arrow : Ty := .con "->"
def int : Ty := .con "Int"
def float : Ty := .con "Float"
def string : Ty := .con "String"
def unit : Ty := .con "Unit"

def fn (param result : Ty) : Ty := .app (.app arrow param) result

def fns (params : List Ty) (result : Ty) : Ty := params.foldr fn result

def asFn? : Ty → Option (Ty × Ty)
  | .app (.app (.con "->") param) result => some (param, result)
  | _ => none

def isFn (t : Ty) : Bool := t.asFn?.isSome

def isApp : Ty → Bool
  | .app _ _ => true
  | _ => false

def size : Ty → Nat
  | .con _ | .var _ => 1
  | .app f a => 1 + f.size + a.size

def vars : Ty → List String
  | .con _ => []
  | .var v => [v]
  | .app f a => f.vars ++ a.vars

theorem mem_vars_var {v w : String} : v ∈ (var w).vars ↔ v = w := List.mem_singleton

def varsInOrder (t : Ty) : List String := t.vars.eraseDups

def freeVars (t : Ty) : NameSet := NameSet.ofNames t.vars

theorem mem_freeVars {t : Ty} {v : String} : v ∈ t.freeVars ↔ v ∈ t.vars :=
  NameSet.mem_ofNames

theorem mem_varsInOrder {t : Ty} {v : String} : v ∈ t.varsInOrder ↔ v ∈ t.vars :=
  List.mem_eraseDups

@[simp] theorem asFn?_fn (a b : Ty) : (fn a b).asFn? = some (a, b) := rfl

/-- Arrows associate to the right and bind weaker than application, which associates to the left;
the bare arrow stands in parentheses. -/
def text : Ty → String
  | .con c => if c = "->" then "(->)" else c
  | .var v => "'" ++ v
  | .app (.app (.con "->") a) b => parens a.isFn a.text ++ " -> " ++ b.text
  | .app f a => parens f.isFn f.text ++ " " ++ parens a.isApp a.text

end Ty

end LetPoly
