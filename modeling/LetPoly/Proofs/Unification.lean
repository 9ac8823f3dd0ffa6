import LetPoly.Proofs.Substitution

/-!
Unification finds a most general unifier exactly where there is a unifier. Facts about `unify` are
proved along its own recursion (`unify_induction`): heads first, then the arguments under what the
heads gave.
-/

set_option autoImplicit false

namespace LetPoly

/-- Different at the root, and neither side is a variable. -/
inductive Ty.Clash : Ty → Ty → Prop
  | con {c d : String} : c ≠ d → Clash (.con c) (.con d)
  | conApp {c : String} {f a : Ty} : Clash (.con c) (.app f a)
  | appCon {c : String} {f a : Ty} : Clash (.app f a) (.con c)

theorem unifyNoting_clash {m : Type → Type} [Monad m] [LawfulMonad m]
    (note : Subst → Subst → m Unit) {l r : Ty} (h : l.Clash r) :
    unifyNoting note l r = throw (.mismatch l r) := by
  cases h with
  | con hc => rw [unifyNoting, unifyWithin.eq_def, if_neg (by simpa using hc), throw_bind]
  | conApp => rw [unifyNoting, unifyWithin.eq_def, if_neg (by simp), throw_bind]
  | appCon => rw [unifyNoting, unifyWithin.eq_def, if_neg (by simp), throw_bind]

theorem unify_clash {l r : Ty} (h : l.Clash r) : unify l r = .error (.mismatch l r) := by
  rw [unify, unifyNoting_clash unnoted h]
  rfl

theorem unify_induction {P : Ty → Ty → Prop} (self : ∀ t, P t t)
    (varLeft : ∀ v t, t ≠ .var v → P (.var v) t)
    (varRight : ∀ v t, (∀ w, t ≠ .var w) → P t (.var v))
    (clash : ∀ l r, l.Clash r → P l r)
    (app : ∀ f₁ a₁ f₂ a₂, P f₁ f₂ →
      (∀ s, unify f₁ f₂ = .ok s → P (a₁.apply s) (a₂.apply s)) → P (.app f₁ a₁) (.app f₂ a₂))
    (l r : Ty) : P l r :=
  match l, r with
  | .var v, t => by
    by_cases h : t = .var v
    · exact h ▸ self t
    · exact varLeft v t h
  | .con c, .var v => varRight v (.con c) (by simp)
  | .app f a, .var v => varRight v (.app f a) (by simp)
  | .con c, .con d => by
    by_cases h : c = d
    · exact h ▸ self (.con c)
    · exact clash _ _ (.con h)
  | .con _, .app _ _ => clash _ _ .conApp
  | .app _ _, .con _ => clash _ _ .appCon
  | .app f₁ a₁, .app f₂ a₂ =>
    app f₁ a₁ f₂ a₂ (unify_induction self varLeft varRight clash app f₁ f₂) fun s h =>
      have := pairLt_args a₁ a₂ (unify_within h)
      unify_induction self varLeft varRight clash app (a₁.apply s) (a₂.apply s)
termination_by (pairVars l r, pairSize l r)
decreasing_by
  · exact pairLt_heads f₁ a₁ f₂ a₂
  · exact this

theorem unify_app_ok {f₁ a₁ f₂ a₂ : Ty} {s : Subst}
    (h : unify (.app f₁ a₁) (.app f₂ a₂) = .ok s) :
    ∃ s₁ s₂, unify f₁ f₂ = .ok s₁ ∧ unify (a₁.apply s₁) (a₂.apply s₁) = .ok s₂ ∧
      s = s₂.compose s₁ := by
  rw [unify_app] at h
  cases h₁ : unify f₁ f₂ with
  | error e => simp [h₁, bind, Except.bind] at h
  | ok s₁ =>
    simp only [h₁, bind, Except.bind] at h
    cases h₂ : unify (a₁.apply s₁) (a₂.apply s₁) with
    | error e => simp [h₂] at h
    | ok s₂ =>
      simp only [h₂, pure, Except.pure, Except.ok.injEq] at h
      exact ⟨s₁, s₂, rfl, h₂, h.symm⟩

theorem unify_sound (l r : Ty) : ∀ s, unify l r = .ok s → l.apply s = r.apply s := by
  induction l, r using unify_induction with
  | self t => intro s _; rfl
  | varLeft v t ht =>
    intro s h
    rw [unify_var_left ht] at h
    split at h
    · cases h
    · rename_i hv
      cases h
      rw [Ty.apply_var_singleton, Ty.apply_singleton_of_not_mem hv]
  | varRight v t ht =>
    intro s h
    rw [unify_var_right ht] at h
    split at h
    · cases h
    · rename_i hv
      cases h
      rw [Ty.apply_var_singleton, Ty.apply_singleton_of_not_mem hv]
  | clash l r hc => intro s h; simp [unify_clash hc] at h
  | app f₁ a₁ f₂ a₂ ihf iha =>
    intro s h
    obtain ⟨s₁, s₂, h₁, h₂, rfl⟩ := unify_app_ok h
    have hf := ihf s₁ h₁
    have ha := iha s₁ h₁ s₂ h₂
    have hc : ∀ t : Ty, t.apply (s₂.compose s₁) = (t.apply s₁).apply s₂ :=
      (unify_within h₂).apply_compose
    simp only [Ty.apply, hc, hf, ha]

theorem Ty.size_le_size_bind (f : String → Ty) {v : String} {t : Ty} (h : v ∈ t.vars) :
    (f v).size ≤ (t.bind f).size := by
  induction t with
  | con c => simp [vars] at h
  | var w =>
    have hw : v = w := mem_vars_var.1 h
    exact Nat.le_of_eq (by rw [hw, bind_var])
  | app g a ihg iha =>
    simp only [vars, List.mem_append] at h
    simp only [bind_app, size]
    rcases h with h | h
    · have := ihg h; omega
    · have := iha h; omega

/-- A variable is never equal to a larger type that it occurs in. -/
theorem Ty.ne_bind_of_mem_vars (f : String → Ty) {v : String} {t : Ty} (h : v ∈ t.vars)
    (ht : t ≠ .var v) : f v ≠ t.bind f := by
  intro he
  cases t with
  | con c => simp [vars] at h
  | var w =>
    have hw : v = w := mem_vars_var.1 h
    exact ht (hw ▸ rfl)
  | app g a =>
    have hs := congrArg size he
    simp only [vars, List.mem_append] at h
    simp only [bind_app, size] at hs
    rcases h with h | h
    · have := size_le_size_bind f h; omega
    · have := size_le_size_bind f h; omega

theorem Ty.Clash.bind_ne {l r : Ty} (h : l.Clash r) (f : String → Ty) : l.bind f ≠ r.bind f := by
  cases h <;> simp_all

theorem Ty.bind_apply_singleton {f : String → Ty} {v : String} {u : Ty} (h : f v = u.bind f)
    (t : Ty) : (t.apply (.singleton v u)).bind f = t.bind f := by
  rw [bind_apply]
  apply bind_congr
  intro w _
  by_cases hw : w = v
  · rw [hw, apply_var_singleton, h]
  · simp [apply, hw]

/-- Whatever makes two types equal is found, and factors through what is found. -/
theorem unify_complete (l r : Ty) : ∀ f : String → Ty, l.bind f = r.bind f →
    ∃ s, unify l r = .ok s ∧ ∀ t : Ty, (t.apply s).bind f = t.bind f := by
  induction l, r using unify_induction with
  | self t => intro f _; exact ⟨∅, unify_self t, by simp⟩
  | varLeft v t ht =>
    intro f h
    have hv : v ∉ t.vars := fun hv => Ty.ne_bind_of_mem_vars f hv ht h
    exact ⟨.singleton v t, by rw [unify_var_left ht, if_neg hv], Ty.bind_apply_singleton h⟩
  | varRight v t ht =>
    intro f h
    have hv : v ∉ t.vars := fun hv => Ty.ne_bind_of_mem_vars f hv (ht v) h.symm
    exact ⟨.singleton v t, by rw [unify_var_right ht, if_neg hv], Ty.bind_apply_singleton h.symm⟩
  | clash l r hc => intro f h; exact absurd h (hc.bind_ne f)
  | app f₁ a₁ f₂ a₂ ihf iha =>
    intro f h
    simp only [Ty.bind_app, Ty.app.injEq] at h
    obtain ⟨s₁, h₁, hs₁⟩ := ihf f h.1
    obtain ⟨s₂, h₂, hs₂⟩ := iha s₁ h₁ f (by rw [hs₁, hs₁, h.2])
    refine ⟨s₂.compose s₁, ?_, fun t => ?_⟩
    · rw [unify_app]
      simp [h₁, h₂, bind, Except.bind, pure, Except.pure]
    · rw [(unify_within h₂).apply_compose, hs₂, hs₁]

/-- A unifier of two types over their own variables that every other unifier factors through. -/
structure Subst.IsMostGeneral (s : Subst) (l r : Ty) : Prop where
  unifies : l.apply s = r.apply s
  factors : ∀ θ : Subst, l.apply θ = r.apply θ → ∀ t : Ty, t.apply θ = (t.apply s).apply θ
  key : ∀ v ∈ s, v ∈ l.vars ∨ v ∈ r.vars
  value : ∀ v t, s.get? v = some t → ∀ w ∈ t.vars, w ∈ l.vars ∨ w ∈ r.vars
  separate : ∀ v t, s.get? v = some t → ∀ w ∈ t.vars, w ∉ s
  idempotent : ∀ t : Ty, (t.apply s).apply s = t.apply s

theorem unify_ok_of_unifier {l r : Ty} {θ : Subst} (h : l.apply θ = r.apply θ) :
    ∃ s, unify l r = .ok s ∧ ∀ t : Ty, (t.apply s).apply θ = t.apply θ := by
  rw [Ty.apply_eq_bind, Ty.apply_eq_bind θ r] at h
  obtain ⟨s, hs, hf⟩ := unify_complete l r _ h
  refine ⟨s, hs, fun t => ?_⟩
  rw [Ty.apply_eq_bind, hf, ← Ty.apply_eq_bind]

/-- Two types have a unifier exactly if unification succeeds, and then with a most general one. -/
theorem unify_decides_and_isMostGeneral (l r : Ty) :
    ((∃ s, unify l r = .ok s) ↔ ∃ θ : Subst, l.apply θ = r.apply θ) ∧
      ∀ s, unify l r = .ok s → s.IsMostGeneral l r := by
  refine ⟨⟨fun ⟨s, hs⟩ => ⟨s, unify_sound l r s hs⟩, fun ⟨θ, hθ⟩ => ?_⟩, fun s hs => ?_⟩
  · obtain ⟨s, hs, -⟩ := unify_ok_of_unifier hθ
    exact ⟨s, hs⟩
  · have hw := unify_within hs
    refine ⟨unify_sound l r s hs, fun θ hθ t => ?_, fun v hv => ?_, fun v t ht w hw' => ?_,
      fun v t ht w hw' => (hw.value v t ht w hw').2, hw.apply_apply⟩
    · obtain ⟨s', hs', hf⟩ := unify_ok_of_unifier hθ
      have he : s = s' := Except.ok.inj (hs.symm.trans hs')
      rw [he, hf t]
    · exact List.mem_append.1 (hw.key v hv)
    · exact List.mem_append.1 (hw.value v t ht w hw').1

end LetPoly
