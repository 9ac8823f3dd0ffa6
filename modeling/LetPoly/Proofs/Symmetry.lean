import LetPoly.Proofs.Renaming

/-!
Unification in the other order. Of two variables the left one is bound, so with the sides swapped
other variables are bound and the arguments are unified under other names. The two runs stay in step
up to one permutation of the variables of the two types, which each pair of variables and each
application adds to.
-/

set_option autoImplicit false

namespace LetPoly

theorem Ty.Clash.symm {l r : Ty} (h : l.Clash r) : r.Clash l := by
  cases h with
  | con hc => exact .con hc.symm
  | conApp => exact .appCon
  | appCon => exact .conApp

namespace UnifyError

def swap : UnifyError → UnifyError
  | .mismatch l r => .mismatch r l
  | .infinite v t => .infinite v t

theorem rename_swap (π : String → String) (e : UnifyError) :
    e.swap.rename π = (e.rename π).swap := by
  cases e <;> rfl

theorem rename_rename (π π' : String → String) (e : UnifyError) :
    (e.rename π).rename π' = e.rename fun v => π' (π v) := by
  cases e <;> simp [rename, Ty.rename_rename]

theorem rename_id (e : UnifyError) : e.rename id = e := by
  cases e with
  | mismatch l r => exact congrArg₂ mismatch l.bind_id r.bind_id
  | infinite v t => exact congrArg (infinite v) t.bind_id

end UnifyError

/-- The second outcome is the first one under `π` with the sides the other way round. -/
abbrev MirroredOutcome (π : String → String) :
    Except UnifyError Subst → Except UnifyError Subst → Prop :=
  Paired (fun e e' => e' = (e.rename π).swap) fun s s' =>
    ∀ t : Ty, t.apply s' = (t.apply s).rename π

theorem mirroredOutcome_bindVar (v : String) (t : Ty) :
    MirroredOutcome id (if v ∈ t.vars then .error (.infinite v t) else .ok (.singleton v t))
      (if v ∈ t.vars then .error (.infinite v t) else .ok (.singleton v t)) := by
  by_cases hv : v ∈ t.vars
  · rw [if_pos hv]
    exact .error (by rw [UnifyError.rename_id]; rfl)
  · rw [if_neg hv]
    exact .ok fun u => (Ty.bind_id _).symm

theorem mirroredOutcome_vars {v w : String} (h : w ≠ v) :
    MirroredOutcome (Equiv.swap v w) (unify (.var v) (.var w)) (unify (.var w) (.var v)) := by
  have hvw : v ∉ (Ty.var w).vars := fun hv => h (Ty.mem_vars_var.1 hv).symm
  have hwv : w ∉ (Ty.var v).vars := fun hw => h (Ty.mem_vars_var.1 hw)
  rw [unify_var_left (by simpa using h), unify_var_left (by simpa using h.symm), if_neg hvw,
    if_neg hwv]
  refine .ok fun t => ?_
  rw [Ty.apply_eq_bind, Ty.rename, Ty.bind_apply]
  refine Ty.bind_congr fun u _ => ?_
  by_cases hv : u = v
  · simp [Ty.apply, hv, h.symm]
  · by_cases hw : u = w
    · simp [Ty.apply, hw, h]
    · simp [Ty.apply, hv, hw, Equiv.swap_apply_of_ne_of_ne hv hw]

section Applications

variable {π π' : String → String} {f₁ a₁ f₂ a₂ : Ty} {s : Subst}

theorem mirroredOutcome_heads {e : UnifyError} (h : unify f₁ f₂ = .error e)
    (hf : MirroredOutcome π (unify f₁ f₂) (unify f₂ f₁)) (a₁ a₂ : Ty) :
    MirroredOutcome π (unify (.app f₁ a₁) (.app f₂ a₂)) (unify (.app f₂ a₂) (.app f₁ a₁)) := by
  rw [h] at hf
  obtain ⟨e', h', he⟩ := hf.of_error
  rw [unify_app, unify_app, h, h']
  exact .error he

/-- The second run unifies the arguments under `π`, which it carries through; what it does besides
is to unify them in the other order. -/
theorem mirroredOutcome_args (hπ : Function.Injective π) (h : unify f₁ f₂ = .ok s)
    (hf : MirroredOutcome π (unify f₁ f₂) (unify f₂ f₁))
    (ha : MirroredOutcome π' (unify (a₁.apply s) (a₂.apply s)) (unify (a₂.apply s) (a₁.apply s))) :
    MirroredOutcome (fun v => π (π' v)) (unify (.app f₁ a₁) (.app f₂ a₂))
      (unify (.app f₂ a₂) (.app f₁ a₁)) := by
  rw [h] at hf
  obtain ⟨s', h', hs⟩ := hf.of_ok
  -- the arguments of the second run are those of the first under `π`, in the other order
  have hr := unify_renamedOutcome hπ (a₂.apply s) (a₁.apply s)
  rw [← hs, ← hs] at hr
  rw [unify_app, unify_app, h, h']
  cases hu : unify (a₁.apply s) (a₂.apply s) with
  | error e =>
    rw [hu] at ha
    obtain ⟨e₁, h₁, rfl⟩ := ha.of_error
    rw [h₁] at hr
    obtain ⟨e₂, h₂, rfl⟩ := hr.of_error
    simp only [bind, Except.bind, hu, h₂]
    exact .error (by rw [UnifyError.rename_swap, UnifyError.rename_rename])
  | ok u =>
    rw [hu] at ha
    obtain ⟨u₁, h₁, hu₁⟩ := ha.of_ok
    rw [h₁] at hr
    obtain ⟨u₂, h₂, hu₂⟩ := hr.of_ok
    simp only [bind, Except.bind, hu, h₂]
    refine .ok fun t => ?_
    rw [(unify_within h₂).apply_compose, (unify_within hu).apply_compose, hs, hu₂, hu₁,
      Ty.rename_rename]

end Applications

/-- Unifying two types in either order succeeds with substitutions that are the same up to a
permutation of the variables of the two types, or fails with errors that are each other's mirror
image up to one. -/
theorem unify_mirroredOutcome (l r : Ty) :
    ∃ π : Equiv.Perm String, (∀ v, v ∉ l.vars ++ r.vars → π v = v) ∧
      MirroredOutcome π (unify l r) (unify r l) := by
  induction l, r using unify_induction with
  | self t =>
    rw [unify_self]
    exact ⟨1, fun _ _ => rfl, .ok fun u => (Ty.bind_id _).symm⟩
  | varLeft v t ht =>
    by_cases hvar : ∃ w, t = .var w
    · obtain ⟨w, rfl⟩ := hvar
      have hw : w ≠ v := fun he => ht (he ▸ rfl)
      refine ⟨Equiv.swap v w, fun u hu => ?_, mirroredOutcome_vars hw⟩
      have hu : u ≠ v ∧ u ≠ w := by simpa [Ty.vars] using hu
      exact Equiv.swap_apply_of_ne_of_ne hu.1 hu.2
    · have hother : ∀ w, t ≠ .var w := fun w he => hvar ⟨w, he⟩
      refine ⟨1, fun _ _ => rfl, ?_⟩
      rw [unify_var_left ht, unify_var_right hother]
      exact mirroredOutcome_bindVar v t
  | varRight v t ht =>
    refine ⟨1, fun _ _ => rfl, ?_⟩
    rw [unify_var_right ht, unify_var_left (ht v)]
    exact mirroredOutcome_bindVar v t
  | clash l r hc =>
    refine ⟨1, fun _ _ => rfl, ?_⟩
    rw [unify_clash hc, unify_clash hc.symm]
    exact .error (by rw [Equiv.Perm.coe_one, UnifyError.rename_id]; rfl)
  | app f₁ a₁ f₂ a₂ ihf iha =>
    obtain ⟨π, hπ, hf⟩ := ihf
    have hvars : ∀ v, v ∉ (Ty.app f₁ a₁).vars ++ (Ty.app f₂ a₂).vars → v ∉ f₁.vars ++ f₂.vars := by
      simp only [Ty.vars, List.mem_append]
      grind
    cases h : unify f₁ f₂ with
    | error e => exact ⟨π, fun v hv => hπ v (hvars v hv), mirroredOutcome_heads h hf a₁ a₂⟩
    | ok s =>
      obtain ⟨π', hπ', ha⟩ := iha s h
      have hargs := mirroredOutcome_args π.injective h hf ha
      refine ⟨π * π', fun v hv => ?_, hargs⟩
      have hv' : π' v = v := hπ' v fun hm => hv ((unify_within h).mem_vars_args hm).1
      rw [Equiv.Perm.mul_apply, hv', hπ v (hvars v hv)]

-- the first run ties `'a` to `'b` and names `'b`, the second one the other way round
example :
    unify (.fn (.var "a") (.var "b")) (.fn (.var "b") (.fn (.var "a") .int)) =
        .error (.infinite "b" (.fn (.var "b") .int)) ∧
      unify (.fn (.var "b") (.fn (.var "a") .int)) (.fn (.var "a") (.var "b")) =
        .error (.infinite "a" (.fn (.var "a") .int)) := by
  constructor <;> cbv

end LetPoly
