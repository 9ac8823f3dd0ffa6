import LetPoly.Scheme

set_option autoImplicit false

namespace LetPoly

abbrev Context := NameMap Scheme

namespace Context

def freeVars (Γ : Context) : NameSet :=
  Γ.entries.foldl (fun vs x => vs.union x.2.freeVars) ∅

def apply (s : Subst) (Γ : Context) : Context := Γ.map (·.apply s)

/-- Quantifies the variables of `t` that are not free in `Γ`. -/
def generalize (Γ : Context) (t : Ty) : Scheme :=
  ⟨t.freeVars.without Γ.freeVars, t⟩

theorem mem_foldl_union {es : List (String × Scheme)} {vs : NameSet} {v : String} :
    v ∈ es.foldl (fun vs x => NameMap.union vs x.2.freeVars) vs ↔
      v ∈ vs ∨ ∃ x ∈ es, v ∈ x.2.freeVars := by
  induction es generalizing vs with
  | nil => simp
  | cons x es ih =>
    simp only [List.foldl_cons, ih, NameMap.mem_union, List.mem_cons, exists_eq_or_imp, or_assoc]

theorem mem_freeVars {Γ : Context} {v : String} :
    v ∈ Γ.freeVars ↔ ∃ x σ, Γ.get? x = some σ ∧ v ∈ σ.freeVars := by
  simp only [freeVars, mem_foldl_union, NameMap.not_mem_empty, false_or]
  constructor
  · rintro ⟨⟨x, σ⟩, hx, hv⟩
    exact ⟨x, σ, NameMap.mem_entries.1 hx, hv⟩
  · rintro ⟨x, σ, hx, hv⟩
    exact ⟨(x, σ), NameMap.mem_entries.2 hx, hv⟩

@[simp] theorem get?_apply (s : Subst) (Γ : Context) (x : String) :
    (Γ.apply s).get? x = (Γ.get? x).map (·.apply s) :=
  NameMap.get?_map _ _ _

theorem mem_vars_generalize {Γ : Context} {t : Ty} {v : String} :
    v ∈ (Γ.generalize t).vars ↔ v ∈ t.vars ∧ v ∉ Γ.freeVars := by
  simp [generalize, Ty.mem_freeVars]

end Context

end LetPoly
