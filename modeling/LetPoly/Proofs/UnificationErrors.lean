import LetPoly.Proofs.Unification
import Mathlib

/-!
Where unification fails. An error shows two types that stand at one place of the two sides, under
the most general substitution that settles all that lies to the left of the place. So the place is
the leftmost one at which the sides cannot agree, and the types in the error are as they are there.
-/

set_option autoImplicit false

namespace LetPoly

/-- A step from an application into its head or its argument. -/
inductive Turn where
  | left
  | right
  deriving DecidableEq

/-- The part of a type at the end of a path, if the path stays in the type. -/
def Ty.at? : Ty → List Turn → Option Ty
  | t, [] => some t
  | .app f _, .left :: p => f.at? p
  | .app _ a, .right :: p => a.at? p
  | _, _ :: _ => none

@[simp] theorem Ty.at?_nil (t : Ty) : t.at? [] = some t := by cases t <;> rfl

@[simp] theorem Ty.at?_left (f a : Ty) (p : List Turn) : (app f a).at? (.left :: p) = f.at? p := rfl

@[simp] theorem Ty.at?_right (f a : Ty) (p : List Turn) :
    (app f a).at? (.right :: p) = a.at? p := rfl

/-- Wherever the path turns right, the heads it passes by are there and equal. -/
def Subst.AgreesBefore (θ : Subst) (l r : Ty) (p : List Turn) : Prop :=
  ∀ q, q ++ [.right] <+: p → ∃ t,
    (l.apply θ).at? (q ++ [.left]) = some t ∧ (r.apply θ).at? (q ++ [.left]) = some t

section Agreement

variable {θ : Subst} {l r f₁ a₁ f₂ a₂ : Ty} {p : List Turn}

theorem agreesBefore_nil : θ.AgreesBefore l r [] := by
  intro q h
  simp at h

theorem agreesBefore_left :
    θ.AgreesBefore (.app f₁ a₁) (.app f₂ a₂) (.left :: p) ↔ θ.AgreesBefore f₁ f₂ p := by
  constructor
  · intro h q hq
    exact h (.left :: q) (List.cons_prefix_cons.2 ⟨rfl, hq⟩)
  · intro h q hq
    cases q with
    | nil => simp at hq
    | cons d q =>
      obtain ⟨rfl, hp⟩ := List.cons_prefix_cons.1 hq
      exact h q hp

theorem agreesBefore_right :
    θ.AgreesBefore (.app f₁ a₁) (.app f₂ a₂) (.right :: p) ↔
      f₁.apply θ = f₂.apply θ ∧ θ.AgreesBefore a₁ a₂ p := by
  constructor
  · intro h
    refine ⟨?_, fun q hq => h (.right :: q) (List.cons_prefix_cons.2 ⟨rfl, hq⟩)⟩
    obtain ⟨t, hl, hr⟩ := h [] (by simp)
    simp only [List.nil_append, Ty.apply, Ty.at?_left, Ty.at?_nil, Option.some.injEq] at hl hr
    rw [hl, hr]
  · rintro ⟨hf, ha⟩ q hq
    cases q with
    | nil => exact ⟨f₁.apply θ, by simp [Ty.apply], by simp [Ty.apply, hf]⟩
    | cons d q =>
      obtain ⟨rfl, hp⟩ := List.cons_prefix_cons.1 hq
      exact ha q hp

theorem Subst.AgreesBefore.congr {l' r' : Ty} (h : θ.AgreesBefore l r p)
    (hl : l'.apply θ = l.apply θ) (hr : r'.apply θ = r.apply θ) : θ.AgreesBefore l' r' p := by
  intro q hq
  rw [hl, hr]
  exact h q hq

end Agreement

/-- The two types that an error is about, left and right as they stand. -/
inductive UnifyError.Reports : UnifyError → Ty → Ty → Prop
  | mismatch {x y : Ty} : x.Clash y → Reports (.mismatch x y) x y
  | infiniteLeft {v : String} {t : Ty} : t ≠ .var v → v ∈ t.vars →
    Reports (.infinite v t) (.var v) t
  | infiniteRight {v : String} {t : Ty} : t ≠ .var v → v ∈ t.vars →
    Reports (.infinite v t) t (.var v)

/-- Under `g` the two sides agree before `p` and have at `p` what `e` reports, and whatever makes
them agree before `p` factors through `g`. -/
structure UnifyError.Located (e : UnifyError) (l r : Ty) (p : List Turn) (g : Subst) : Prop where
  within : g.Within (· ∈ l.vars ++ r.vars)
  agrees : g.AgreesBefore l r p
  general : ∀ θ : Subst, θ.AgreesBefore l r p → ∀ t : Ty, t.apply θ = (t.apply g).apply θ
  shown : ∃ x y, (l.apply g).at? p = some x ∧ (r.apply g).at? p = some y ∧ e.Reports x y

theorem UnifyError.Reports.located {e : UnifyError} {l r : Ty} (h : e.Reports l r) :
    e.Located l r [] ∅ where
  within := .empty _
  agrees := agreesBefore_nil
  general θ _ t := by rw [Ty.apply_empty]
  shown := ⟨l, r, by simp, by simp, h⟩

namespace UnifyError.Located

variable {e : UnifyError} {f₁ a₁ f₂ a₂ : Ty} {p : List Turn} {g s : Subst}

theorem head (h : e.Located f₁ f₂ p g) (a₁ a₂ : Ty) :
    e.Located (.app f₁ a₁) (.app f₂ a₂) (.left :: p) g where
  within := h.within.of_heads a₁ a₂
  agrees := agreesBefore_left.2 h.agrees
  general θ hθ := h.general θ (agreesBefore_left.1 hθ)
  shown := h.shown

/-- What the heads gave is the first part of the substitution that settles all to the left. -/
theorem arg (hs : unify f₁ f₂ = .ok s) (h : e.Located (a₁.apply s) (a₂.apply s) p g) :
    e.Located (.app f₁ a₁) (.app f₂ a₂) (.right :: p) (g.compose s) := by
  have hc : ∀ t : Ty, t.apply (g.compose s) = (t.apply s).apply g := h.within.apply_compose
  refine ⟨(unify_within hs).compose_args h.within, agreesBefore_right.2 ⟨?_, ?_⟩, ?_, ?_⟩
  · rw [hc, hc, unify_sound f₁ f₂ s hs]
  · intro q hq
    rw [hc, hc]
    exact h.agrees q hq
  · intro θ hθ t
    -- `θ` solves the heads, so it factors through `s` and does not see it in the arguments
    obtain ⟨hf, ha⟩ := agreesBefore_right.1 hθ
    obtain ⟨s', hs', hfactor⟩ := unify_ok_of_unifier hf
    cases hs.symm.trans hs'
    rw [hc, ← hfactor t]
    exact h.general θ (ha.congr (hfactor a₁) (hfactor a₂)) (t.apply s)
  · obtain ⟨x, y, hx, hy, hr⟩ := h.shown
    rw [← hc] at hx hy
    exact ⟨x, y, hx, hy, hr⟩

end UnifyError.Located

theorem unify_app_error {f₁ a₁ f₂ a₂ : Ty} {e : UnifyError}
    (h : unify (.app f₁ a₁) (.app f₂ a₂) = .error e) :
    unify f₁ f₂ = .error e ∨
      ∃ s, unify f₁ f₂ = .ok s ∧ unify (a₁.apply s) (a₂.apply s) = .error e := by
  rw [unify_app] at h
  cases h₁ : unify f₁ f₂ with
  | error e' =>
    simp only [h₁, bind, Except.bind, Except.error.injEq] at h
    exact .inl (h ▸ rfl)
  | ok s =>
    simp only [h₁, bind, Except.bind] at h
    cases h₂ : unify (a₁.apply s) (a₂.apply s) with
    | ok s₂ => simp [h₂, pure, Except.pure] at h
    | error e' =>
      simp only [h₂, Except.error.injEq] at h
      exact .inr ⟨s, rfl, h ▸ h₂⟩

/-- Every error of unification has a place: the leftmost one where the two sides cannot agree. -/
theorem unify_error_located (l r : Ty) : ∀ e, unify l r = .error e → ∃ p g, e.Located l r p g := by
  induction l, r using unify_induction with
  | self t => intro e h; simp at h
  | varLeft v t ht =>
    intro e h
    rw [unify_var_left ht] at h
    split at h
    · rename_i hv
      cases h
      exact ⟨[], ∅, (UnifyError.Reports.infiniteLeft ht hv).located⟩
    · cases h
  | varRight v t ht =>
    intro e h
    rw [unify_var_right ht] at h
    split at h
    · rename_i hv
      cases h
      exact ⟨[], ∅, (UnifyError.Reports.infiniteRight (ht v) hv).located⟩
    · cases h
  | clash l r hc =>
    intro e h
    rw [unify_clash hc] at h
    cases h
    exact ⟨[], ∅, (UnifyError.Reports.mismatch hc).located⟩
  | app f₁ a₁ f₂ a₂ ihf iha =>
    intro e h
    rcases unify_app_error h with h | ⟨s, hs, h⟩
    · obtain ⟨p, g, hl⟩ := ihf e h
      exact ⟨.left :: p, g, hl.head a₁ a₂⟩
    · obtain ⟨p, g, hl⟩ := iha s hs e h
      exact ⟨.right :: p, g.compose s, hl.arg hs⟩

/-- The sides `'a -> 'b` and `'b -> 'a -> Int`: after `'a ↦ 'b` the results are `'b` and
`'b -> Int`. -/
theorem located_infinite_result :
    unify (.fn (.var "a") (.var "b")) (.fn (.var "b") (.fn (.var "a") .int)) =
        .error (.infinite "b" (.fn (.var "b") .int)) ∧
      ∃ p g, (UnifyError.infinite "b" (.fn (.var "b") .int)).Located
        (.fn (.var "a") (.var "b")) (.fn (.var "b") (.fn (.var "a") .int)) p g :=
  ⟨by cbv, unify_error_located _ _ _ (by cbv)⟩

end LetPoly
