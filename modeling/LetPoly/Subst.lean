import LetPoly.Ty

set_option autoImplicit false

namespace LetPoly

abbrev Subst := NameMap Ty

def Ty.apply (s : Subst) : Ty → Ty
  | .con c => .con c
  | .var v => (s.get? v).getD (.var v)
  | .app f a => .app (f.apply s) (a.apply s)

namespace Subst

/-- The entries of both, those of `inner` first, each value under `outer`. Applying the result is
applying `inner` and then `outer` where `outer` leaves its own values alone
(`Ty.apply_compose`). -/
def compose (outer inner : Subst) : Subst := (outer.union inner).map (·.apply outer)

def text (s : Subst) : String :=
  "\x7b" ++ ", ".intercalate (s.entries.map fun (v, t) => "'" ++ v ++ " ↦ " ++ t.text) ++ "\x7d"

theorem get?_compose (outer inner : Subst) (v : String) :
    (outer.compose inner).get? v = ((inner.get? v).or (outer.get? v)).map (·.apply outer) := by
  simp [compose]

theorem mem_compose {outer inner : Subst} {v : String} :
    v ∈ outer.compose inner ↔ v ∈ inner ∨ v ∈ outer := by
  simp only [NameMap.mem_iff, get?_compose]
  cases hi : inner.get? v <;> cases ho : outer.get? v <;> simp

end Subst

namespace Ty

@[simp] theorem apply_empty (t : Ty) : t.apply ∅ = t := by
  induction t <;> simp_all [apply]

@[simp] theorem apply_fn (s : Subst) (a b : Ty) :
    (fn a b).apply s = fn (a.apply s) (b.apply s) := rfl

theorem apply_congr {s₁ s₂ : Subst} {t : Ty} (h : ∀ v ∈ t.vars, s₁.get? v = s₂.get? v) :
    t.apply s₁ = t.apply s₂ := by
  induction t with
  | con c => rfl
  | var v => simp [apply, h v (by simp [vars])]
  | app f a ihf iha =>
    simp only [vars, List.mem_append] at h
    simp only [apply, ihf fun v hv => h v (.inl hv), iha fun v hv => h v (.inr hv)]

theorem apply_of_forall_not_mem {s : Subst} {t : Ty} (h : ∀ v ∈ t.vars, v ∉ s) : t.apply s = t := by
  have : t.apply s = t.apply ∅ := apply_congr fun v hv => NameMap.not_mem_iff.1 (h v hv)
  rw [this, apply_empty]

theorem mem_vars_apply {s : Subst} {t : Ty} {w : String} :
    w ∈ (t.apply s).vars ↔ ∃ v ∈ t.vars, w ∈ ((Ty.var v).apply s).vars := by
  induction t with
  | con c => simp [apply, vars]
  | var v => simp [vars]
  | app f a ihf iha =>
    simp only [apply, vars, List.mem_append, ihf, iha]
    constructor
    · rintro (⟨v, hv, hw⟩ | ⟨v, hv, hw⟩)
      · exact ⟨v, .inl hv, hw⟩
      · exact ⟨v, .inr hv, hw⟩
    · rintro ⟨v, hv | hv, hw⟩
      · exact .inl ⟨v, hv, hw⟩
      · exact .inr ⟨v, hv, hw⟩

theorem mem_vars_apply_var {s : Subst} {v w : String} (h : w ∈ ((var v).apply s).vars) :
    (w = v ∧ v ∉ s) ∨ ∃ u, s.get? v = some u ∧ w ∈ u.vars := by
  simp only [apply] at h
  cases hs : s.get? v with
  | none =>
    rw [hs, Option.getD_none] at h
    exact .inl ⟨mem_vars_var.1 h, NameMap.not_mem_iff.2 hs⟩
  | some u =>
    rw [hs, Option.getD_some] at h
    exact .inr ⟨u, rfl, h⟩

theorem apply_compose {outer inner : Subst}
    (h : ∀ v t, outer.get? v = some t → t.apply outer = t) (t : Ty) :
    t.apply (outer.compose inner) = (t.apply inner).apply outer := by
  induction t with
  | con c => rfl
  | var v =>
    simp only [apply, Subst.get?_compose]
    cases hi : inner.get? v with
    | some t => simp
    | none =>
      cases ho : outer.get? v with
      | none => simp [apply, ho]
      | some t => simp [apply, ho, h v t ho]
  | app f a ihf iha => simp only [apply, ihf, iha]

end Ty

end LetPoly
