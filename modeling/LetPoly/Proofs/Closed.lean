import LetPoly.Proofs.Principality

set_option autoImplicit false

namespace LetPoly

/-- No scheme has a free variable. -/
def Context.Closed (Γ : Context) : Prop := ∀ x ∈ Γ.entries, x.2.freeVars = ∅

instance (Γ : Context) : Decidable Γ.Closed :=
  inferInstanceAs (Decidable (∀ x ∈ Γ.entries, x.2.freeVars = ∅))

theorem Scheme.specialize_of_closed {σ : Scheme} (h : σ.freeVars = ∅) (f g ρ : String → Ty) :
    σ.specialize f ρ = σ.specialize g ρ :=
  specialize_congr fun v hv => absurd (h ▸ hv) (NameMap.not_mem_empty v)

namespace Context.Closed

variable {Γ : Context} {e : Expr} {t t' : Ty}

theorem get? (hΓ : Γ.Closed) {x : String} {σ : Scheme} (h : Γ.get? x = some σ) : σ.freeVars = ∅ :=
  hΓ (x, σ) (NameMap.mem_entries.2 h)

theorem not_mem_freeVars (hΓ : Γ.Closed) (v : String) : v ∉ Γ.freeVars := by
  intro hv
  obtain ⟨x, σ, hσ, hv⟩ := mem_freeVars.1 hv
  exact absurd (hΓ.get? hσ ▸ hv) (NameMap.not_mem_empty v)

theorem generalize_eq (hΓ : Γ.Closed) (t : Ty) : Γ.generalize t = .closed t := by
  have hv : t.freeVars.without Γ.freeVars = t.freeVars := NameSet.ext_mem fun v => by
    simp [hΓ.not_mem_freeVars v]
  rw [generalize, Scheme.closed, hv]

theorem monoOrClosed (hΓ : Γ.Closed) : Γ.MonoOrClosed := fun x hx => .inr (hΓ x hx)

theorem hasType_bind (hΓ : Γ.Closed) (h : HasType Γ e t) (f : String → Ty) :
    HasType Γ e (t.bind f) := by
  refine h.subst fun x σ hσ => ⟨σ, hσ, fun ρ => ?_⟩
  rw [Scheme.specialize_of_closed (hΓ.get? hσ) f .var]
  exact Scheme.instance_iff.2 ⟨ρ, rfl⟩

theorem apply_eq (hΓ : Γ.Closed) (s : Subst) : Γ.apply s = Γ := by
  ext1 x
  rw [get?_apply]
  cases hσ : Γ.get? x with
  | none => rfl
  | some σ =>
    have hb : σ.body.apply (s.without σ.vars) = σ.body := by
      apply Ty.apply_of_forall_not_mem
      intro v hv hs
      have hq : v ∉ σ.vars := (NameMap.mem_without.1 hs).2
      have hfree : v ∈ σ.freeVars := Scheme.mem_freeVars.2 ⟨hv, hq⟩
      exact absurd (hΓ.get? hσ ▸ hfree) (NameMap.not_mem_empty v)
    simp [Scheme.apply, hb]

theorem hasType_of_inferType (hΓ : Γ.Closed) (h : inferType e Γ = .ok t) : HasType Γ e t := by
  obtain ⟨s, ν', hrun⟩ := inferType_ok.1 h
  have ht := e.infer_sound Γ.avoids_supply (hΓ.monoOrClosed.guarded _) hrun
  rwa [hΓ.apply_eq] at ht

theorem inferType_complete (hΓ : Γ.Closed) (h : HasType Γ e t') :
    ∃ t, inferType e Γ = .ok t ∧ ∃ f, t' = t.bind f := by
  rw [← Context.apply_empty Γ] at h
  obtain ⟨s, t, hst, r, ht, -⟩ := inferWithSubst_complete hΓ.monoOrClosed h
  refine ⟨t, by simp [inferType, hst, Except.map], fun v => (Ty.var v).apply r, ?_⟩
  rw [ht, Ty.apply_eq_bind]

theorem exists_inferType_iff (hΓ : Γ.Closed) :
    (∃ t, inferType e Γ = .ok t) ↔ ∃ t, HasType Γ e t := by
  constructor
  · intro ⟨t, h⟩
    exact ⟨t, hΓ.hasType_of_inferType h⟩
  · intro ⟨t', h⟩
    obtain ⟨t, ht, -⟩ := hΓ.inferType_complete h
    exact ⟨t, ht⟩

/-- All types of an expression are instances of the one that is found, with all its variables
quantified. -/
theorem hasType_iff_instance (hΓ : Γ.Closed) (h : inferType e Γ = .ok t) :
    HasType Γ e t' ↔ (Γ.generalize t).Instance t' := by
  have hq : ∀ v ∈ t.vars, v ∈ (Γ.generalize t).vars :=
    fun v hv => mem_vars_generalize.2 ⟨hv, hΓ.not_mem_freeVars v⟩
  have hs : ∀ ρ, (Γ.generalize t).specialize .var ρ = t.bind ρ :=
    fun ρ => Ty.bind_congr fun v hv => if_pos (hq v hv)
  rw [Scheme.instance_iff]
  constructor
  · intro ht'
    obtain ⟨u, hu, f, hf⟩ := hΓ.inferType_complete ht'
    have he : t = u := Except.ok.inj (h.symm.trans hu)
    exact ⟨f, by rw [hs, hf, he]⟩
  · intro ⟨ρ, ht'⟩
    rw [ht', hs]
    exact hΓ.hasType_bind (hΓ.hasType_of_inferType h) ρ

end Context.Closed

end LetPoly
