import LetPoly.Subst
import LetPoly.NameSupply

/-!
Type schemes: a type with some of its variables quantified. Substitution passes the quantified
names by and renames nothing.
-/

set_option autoImplicit false

namespace LetPoly

structure Scheme where
  vars : NameSet
  body : Ty
  deriving DecidableEq, Inhabited

namespace Scheme

def mono (t : Ty) : Scheme := ⟨∅, t⟩

def poly (vars : List String) (t : Ty) : Scheme := ⟨NameSet.ofNames vars, t⟩

def closed (t : Ty) : Scheme := ⟨t.freeVars, t⟩

def isMono (σ : Scheme) : Bool := σ.vars.isEmpty

def freeVars (σ : Scheme) : NameSet := σ.body.freeVars.without σ.vars

def apply (s : Subst) (σ : Scheme) : Scheme :=
  ⟨σ.vars, σ.body.apply (s.without σ.vars)⟩

/-- The body with a fresh variable for each quantified one, drawn in ascending order. -/
def instantiate (σ : Scheme) : StateM NameSupply Ty := do
  let names ← NameSupply.draw σ.vars.size
  return σ.body.apply (NameMap.ofList (σ.vars.keys.zip (names.map .var)))

def text (σ : Scheme) : String :=
  if σ.isMono then σ.body.text
  else "∀" ++ String.join (σ.vars.keys.map (" '" ++ ·)) ++ ". " ++ σ.body.text

theorem mem_freeVars {σ : Scheme} {v : String} :
    v ∈ σ.freeVars ↔ v ∈ σ.body.vars ∧ v ∉ σ.vars := by
  simp [freeVars, Ty.mem_freeVars]

@[simp] theorem apply_empty (σ : Scheme) : σ.apply ∅ = σ := by
  have : (∅ : Subst).without σ.vars = ∅ := rfl
  simp [apply, this]

end Scheme

namespace Ty

/-- The variables renamed to `a`, `b`, … in order of first appearance. -/
def normalize (t : Ty) : Ty :=
  let vs := t.varsInOrder
  t.apply (NameMap.ofList (vs.zip ((List.range vs.length).map fun i => .var (letters (i + 1)))))

end Ty

end LetPoly
