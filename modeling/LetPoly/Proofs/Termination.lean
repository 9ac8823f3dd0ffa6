import LetPoly.Proofs.Unification

/-!
Unification ends. `UnifyReturns` gives the recursion by its rules alone: a pair has an outcome when
finitely many calls lead to it, and nothing in the rules says that they do. They do on every pair
(`unifyReturns_iff`), since both calls for two applications go down in `PairLt`. Size alone is no
measure for this: the solution of the heads may make the arguments larger than the applications.
-/

set_option autoImplicit false

namespace LetPoly

/-- Unification of the pair comes to an end, with this outcome. -/
inductive UnifyReturns : Ty → Ty → Except UnifyError Subst → Prop
  | same (t : Ty) : UnifyReturns t t (.ok ∅)
  | bindLeft {v : String} {t : Ty} : v ∉ t.vars → UnifyReturns (.var v) t (.ok (.singleton v t))
  | bindRight {v : String} {t : Ty} : (∀ w, t ≠ .var w) → v ∉ t.vars →
    UnifyReturns t (.var v) (.ok (.singleton v t))
  | infiniteLeft {v : String} {t : Ty} : t ≠ .var v → v ∈ t.vars →
    UnifyReturns (.var v) t (.error (.infinite v t))
  | infiniteRight {v : String} {t : Ty} : (∀ w, t ≠ .var w) → v ∈ t.vars →
    UnifyReturns t (.var v) (.error (.infinite v t))
  | clash {l r : Ty} : l.Clash r → UnifyReturns l r (.error (.mismatch l r))
  | heads {f₁ a₁ f₂ a₂ : Ty} {e : UnifyError} : Ty.app f₁ a₁ ≠ .app f₂ a₂ →
    UnifyReturns f₁ f₂ (.error e) → UnifyReturns (.app f₁ a₁) (.app f₂ a₂) (.error e)
  | args {f₁ a₁ f₂ a₂ : Ty} {s₁ : Subst} {o : Except UnifyError Subst} :
    Ty.app f₁ a₁ ≠ .app f₂ a₂ → UnifyReturns f₁ f₂ (.ok s₁) →
    UnifyReturns (a₁.apply s₁) (a₂.apply s₁) o →
    UnifyReturns (.app f₁ a₁) (.app f₂ a₂) (o.map (·.compose s₁))

section Applications

variable {f₁ a₁ f₂ a₂ : Ty}

theorem unify_app_of_error {e : UnifyError} (h : unify f₁ f₂ = .error e) :
    unify (.app f₁ a₁) (.app f₂ a₂) = .error e := by
  rw [unify_app, h]
  rfl

theorem unify_app_of_ok {s₁ : Subst} (h : unify f₁ f₂ = .ok s₁) :
    unify (.app f₁ a₁) (.app f₂ a₂) =
      (unify (a₁.apply s₁) (a₂.apply s₁)).map (·.compose s₁) := by
  rw [unify_app]
  simp only [h, bind, Except.bind]
  cases unify (a₁.apply s₁) (a₂.apply s₁) <;> rfl

end Applications

theorem UnifyReturns.unify_eq {l r : Ty} {o : Except UnifyError Subst} (h : UnifyReturns l r o) :
    unify l r = o := by
  induction h with
  | same t => exact unify_self t
  | @bindLeft v t hv =>
    have ht : t ≠ .var v := by
      rintro rfl
      exact hv (Ty.mem_vars_var.2 rfl)
    rw [unify_var_left ht, if_neg hv]
  | bindRight ht hv => rw [unify_var_right ht, if_neg hv]
  | infiniteLeft ht hv => rw [unify_var_left ht, if_pos hv]
  | infiniteRight ht hv => rw [unify_var_right ht, if_pos hv]
  | clash hc => exact unify_clash hc
  | heads _ _ ih => exact unify_app_of_error ih
  | args _ _ _ ih₁ ih₂ => rw [unify_app_of_ok ih₁, ih₂]

theorem unifyReturns_unify (l r : Ty) : UnifyReturns l r (unify l r) := by
  induction l, r using unify_induction with
  | self t =>
    rw [unify_self]
    exact .same t
  | varLeft v t ht =>
    rw [unify_var_left ht]
    split
    · exact .infiniteLeft ht ‹_›
    · exact .bindLeft ‹_›
  | varRight v t ht =>
    rw [unify_var_right ht]
    split
    · exact .infiniteRight ht ‹_›
    · exact .bindRight ht ‹_›
  | clash l r hc =>
    rw [unify_clash hc]
    exact .clash hc
  | app f₁ a₁ f₂ a₂ ihf iha =>
    by_cases he : Ty.app f₁ a₁ = .app f₂ a₂
    · rw [he, unify_self]
      exact .same _
    · cases h₁ : unify f₁ f₂ with
      | error e =>
        rw [unify_app_of_error h₁]
        exact .heads he (h₁ ▸ ihf)
      | ok s₁ =>
        rw [unify_app_of_ok h₁]
        exact .args he (h₁ ▸ ihf) (iha s₁ h₁)

theorem unifyReturns_iff {l r : Ty} {o : Except UnifyError Subst} :
    UnifyReturns l r o ↔ unify l r = o :=
  ⟨UnifyReturns.unify_eq, fun h => h ▸ unifyReturns_unify l r⟩

theorem pairLt_wellFounded : WellFounded PairLt :=
  InvImage.wf (fun p : Ty × Ty => (pairVars p.1 p.2, pairSize p.1 p.2))
    (Prod.lex Nat.lt_wfRel Nat.lt_wfRel).wf

/-- Unification returns on every pair, with one outcome. For two applications both calls are on
pairs with fewer variables, or with as many and smaller: that of the heads, and that of the
arguments under any solution of the heads. -/
theorem unify_terminates :
    (∀ l r o, UnifyReturns l r o ↔ unify l r = o) ∧ WellFounded PairLt ∧
      ∀ f₁ a₁ f₂ a₂, PairLt (f₁, f₂) (.app f₁ a₁, .app f₂ a₂) ∧
        ∀ s₁, unify f₁ f₂ = .ok s₁ →
          PairLt (a₁.apply s₁, a₂.apply s₁) (.app f₁ a₁, .app f₂ a₂) := by
  refine ⟨fun l r o => unifyReturns_iff, pairLt_wellFounded, fun f₁ a₁ f₂ a₂ => ?_⟩
  exact ⟨pairLt_heads f₁ a₁ f₂ a₂, fun s₁ h => pairLt_args a₁ a₂ (unify_within h)⟩

/-- The arguments of `'a ('a 'a)` and `(Int -> Int -> Int) 'b` grow under the solution of the heads,
and have fewer variables. -/
theorem pairLt_grownArgs :
    let t := Ty.fn .int (.fn .int .int)
    let aa := Ty.app (.var "a") (.var "a")
    unify (.var "a") t = .ok (.singleton "a" t) ∧
      pairSize (.app (.var "a") aa) (.app t (.var "b")) < pairSize (.app t t) (.var "b") ∧
      PairLt (.app t t, .var "b") (.app (.var "a") aa, .app t (.var "b")) := by
  intro t aa
  have hs : unify (.var "a") t = .ok (.singleton "a" t) :=
    (unify_var_left (by decide)).trans (if_neg (by decide))
  exact ⟨hs, by decide, (unify_terminates.2.2 (.var "a") aa t (.var "b")).2 _ hs⟩

end LetPoly
