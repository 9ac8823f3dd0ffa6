import LetPoly.TypeError
import LetPoly.Proofs.Unification
import Mathlib

set_option autoImplicit false

namespace LetPoly

theorem mapError_eq_ok {ε ε' α : Type} {g : ε → ε'} {x : Except ε α} {a : α} :
    x.mapError g = .ok a ↔ x = .ok a := by
  cases x <;> simp [Except.mapError]

/-- Both succeed with results related by `R`, or both fail with errors related by `E`. -/
inductive Paired {ε δ α β : Type} (E : ε → δ → Prop) (R : α → β → Prop) :
    Except ε α → Except δ β → Prop
  | ok {a : α} {b : β} : R a b → Paired E R (.ok a) (.ok b)
  | error {e : ε} {e' : δ} : E e e' → Paired E R (.error e) (.error e')

/-- Both succeed with related results, or both fail with one code. -/
abbrev Alike {α β : Type} (R : α → β → Prop) : Except TypeError α → Except TypeError β → Prop :=
  Paired (fun e e' => e.code = e'.code) R

namespace Paired

variable {ε δ α β : Type} {E : ε → δ → Prop} {R : α → β → Prop}

theorem of_ok {a : α} {y : Except δ β} (h : Paired E R (.ok a) y) : ∃ b, y = .ok b ∧ R a b := by
  cases h with
  | ok hab => exact ⟨_, rfl, hab⟩

theorem of_error {e : ε} {y : Except δ β} (h : Paired E R (.error e) y) :
    ∃ e', y = .error e' ∧ E e e' := by
  cases h with
  | error he => exact ⟨_, rfl, he⟩

theorem bind {γ ζ : Type} {S : γ → ζ → Prop} {x : Except ε α} {y : Except δ β}
    {f : α → Except ε γ} {g : β → Except δ ζ} (h : Paired E R x y)
    (hfg : ∀ a b, x = .ok a → y = .ok b → R a b → Paired E S (f a) (g b)) :
    Paired E S (x >>= f) (y >>= g) := by
  cases h with
  | ok hab => exact hfg _ _ rfl rfl hab
  | error he => exact .error he

theorem map {γ ζ : Type} {S : γ → ζ → Prop} {x : Except ε α} {y : Except δ β} {f : α → γ}
    {g : β → ζ} (h : Paired E R x y) (hS : ∀ a b, R a b → S (f a) (g b)) :
    Paired E S (x.map f) (y.map g) := by
  cases h with
  | ok hab => exact .ok (hS _ _ hab)
  | error he => exact .error he

theorem alike {E : UnifyError → UnifyError → Prop} {x : Except UnifyError α}
    {y : Except UnifyError β} (h : Paired E R x y)
    (hE : ∀ e e', E e e' → TypeError.code (.unify e) = TypeError.code (.unify e')) :
    Alike R (x.mapError .unify) (y.mapError .unify) := by
  cases h with
  | ok hab => exact .ok hab
  | error he => exact .error (hE _ _ he)

end Paired

namespace Ty

variable {π π' : String → String} {t u : Ty} {v : String}

def rename (π : String → String) (t : Ty) : Ty := t.bind fun v => .var (π v)

@[simp] theorem rename_con (π : String → String) (c : String) : (con c).rename π = con c := rfl

@[simp] theorem rename_var (π : String → String) (v : String) :
    (var v).rename π = var (π v) := rfl

@[simp] theorem rename_app (π : String → String) (f a : Ty) :
    (app f a).rename π = app (f.rename π) (a.rename π) := rfl

@[simp] theorem rename_fn (π : String → String) (a b : Ty) :
    (fn a b).rename π = fn (a.rename π) (b.rename π) := rfl

theorem rename_congr (h : ∀ v ∈ t.vars, π v = π' v) : t.rename π = t.rename π' :=
  bind_congr fun v hv => congrArg var (h v hv)

theorem rename_rename (π π' : String → String) (t : Ty) :
    (t.rename π).rename π' = t.rename fun v => π' (π v) := by
  simp [rename, bind_bind]

theorem mem_vars_rename {w : String} : w ∈ (t.rename π).vars ↔ ∃ v ∈ t.vars, π v = w := by
  simp [rename, mem_vars_bind, vars, eq_comm]

theorem mem_vars_rename_iff (hπ : Function.Injective π) : π v ∈ (t.rename π).vars ↔ v ∈ t.vars := by
  rw [mem_vars_rename]
  constructor
  · intro ⟨w, hw, he⟩
    exact hπ he ▸ hw
  · exact fun h => ⟨v, h, rfl⟩

theorem rename_injective (hπ : Function.Injective π) (h : t.rename π = u.rename π) : t = u := by
  induction t generalizing u with
  | con c => cases u <;> simp_all
  | var v =>
    cases u with
    | var w =>
      simp only [rename_var, var.injEq] at h
      rw [hπ h]
    | con c => simp at h
    | app f a => simp at h
  | app f a ihf iha =>
    cases u with
    | app g b =>
      simp only [rename_app, app.injEq] at h
      rw [ihf h.1, iha h.2]
    | con c => simp at h
    | var v => simp at h

theorem Clash.rename {l r : Ty} (h : l.Clash r) (π : String → String) :
    (l.rename π).Clash (r.rename π) := by
  cases h with
  | con hc => exact .con hc
  | conApp => exact .conApp
  | appCon => exact .appCon

theorem apply_rename {s s' : Subst}
    (h : ∀ v ∈ t.vars, (var (π v)).apply s' = ((var v).apply s).rename π') :
    (t.rename π).apply s' = (t.apply s).rename π' := by
  rw [apply_eq_bind s', rename, bind_bind, rename, bind_apply]
  exact bind_congr h

end Ty

/-- `s'` does to renamed types what `s` does to types. -/
def Subst.Renames (π : String → String) (s s' : Subst) : Prop :=
  ∀ t : Ty, (t.rename π).apply s' = (t.apply s).rename π

theorem Subst.renames_singleton {π : String → String} (hπ : Function.Injective π) (v : String)
    (t : Ty) : Subst.Renames π (.singleton v t) (.singleton (π v) (t.rename π)) := by
  intro u
  apply Ty.apply_rename
  intro w _
  by_cases hw : w = v
  · rw [hw, Ty.apply_var_singleton, Ty.apply_var_singleton]
  · have hw' : π w ≠ π v := fun he => hw (hπ he)
    rw [Ty.apply_singleton_of_not_mem (by simpa [Ty.vars] using Ne.symm hw'),
      Ty.apply_singleton_of_not_mem (by simpa [Ty.vars] using Ne.symm hw), Ty.rename_var]

def UnifyError.rename (π : String → String) : UnifyError → UnifyError
  | .mismatch l r => .mismatch (l.rename π) (r.rename π)
  | .infinite v t => .infinite (π v) (t.rename π)

abbrev RenamedOutcome (π : String → String) :
    Except UnifyError Subst → Except UnifyError Subst → Prop :=
  Paired (fun e e' => e' = e.rename π) (Subst.Renames π)

theorem renamedOutcome_bindVar {π : String → String} (hπ : Function.Injective π) (v : String)
    (t : Ty) :
    RenamedOutcome π
      (if v ∈ t.vars then .error (.infinite v t) else .ok (.singleton v t))
      (if π v ∈ (t.rename π).vars then .error (.infinite (π v) (t.rename π))
        else .ok (.singleton (π v) (t.rename π))) := by
  by_cases hv : v ∈ t.vars
  · rw [if_pos hv, if_pos ((Ty.mem_vars_rename_iff hπ).2 hv)]
    exact .error rfl
  · rw [if_neg hv, if_neg fun h => hv ((Ty.mem_vars_rename_iff hπ).1 h)]
    exact .ok (Subst.renames_singleton hπ v t)

theorem unify_renamedOutcome {π : String → String} (hπ : Function.Injective π) (l r : Ty) :
    RenamedOutcome π (unify l r) (unify (l.rename π) (r.rename π)) := by
  induction l, r using unify_induction with
  | self t =>
    rw [unify_self, unify_self]
    exact .ok fun u => by simp
  | varLeft v t ht =>
    have ht' : t.rename π ≠ .var (π v) := fun he => ht (Ty.rename_injective hπ he)
    rw [Ty.rename_var, unify_var_left ht, unify_var_left ht']
    exact renamedOutcome_bindVar hπ v t
  | varRight v t ht =>
    have ht' : ∀ w, t.rename π ≠ .var w := by
      cases t with
      | var w => exact absurd rfl (ht w)
      | con c => simp
      | app f a => simp
    rw [Ty.rename_var, unify_var_right ht, unify_var_right ht']
    exact renamedOutcome_bindVar hπ v t
  | clash l r hc =>
    rw [unify_clash hc, unify_clash (hc.rename π)]
    exact .error rfl
  | app f₁ a₁ f₂ a₂ ihf iha =>
    rw [Ty.rename_app, Ty.rename_app, unify_app, unify_app]
    refine ihf.bind fun s₁ s₁' h₁ _ hs₁ => ?_
    have iha := iha s₁ h₁
    rw [← hs₁, ← hs₁] at iha
    refine iha.bind fun s₂ s₂' h₂ h₂' hs₂ => .ok fun t => ?_
    rw [(unify_within h₂).apply_compose, (unify_within h₂').apply_compose, hs₁, hs₂]

theorem unify_rename {π : String → String} (hπ : Function.Injective π) (l r : Ty) :
    Alike (Subst.Renames π) ((unify l r).mapError .unify)
      ((unify (l.rename π) (r.rename π)).mapError .unify) := by
  refine (unify_renamedOutcome hπ l r).alike fun e e' he => ?_
  rw [he]
  cases e <;> rfl

end LetPoly
