import LetPoly.Subst

/-!
Most general unifiers with the occurs check. Heads are unified before arguments, and a variable on
the left is bound before one on the right. The second call runs on types that the first solution
may have made much larger; it ends because a solution uses up the variables it binds
(`Subst.Within`), so the pair has fewer variables, or is smaller when nothing was bound.
-/

set_option autoImplicit false

namespace LetPoly

inductive UnifyError where
  | mismatch (left right : Ty)
  | infinite (name : String) (ty : Ty)
  deriving DecidableEq

/-- Only names of `P` are bound, to types over names of `P` that are not bound. -/
structure Subst.Within (s : Subst) (P : String → Prop) : Prop where
  key : ∀ v ∈ s, P v
  value : ∀ v t, s.get? v = some t → ∀ w ∈ t.vars, P w ∧ w ∉ s

namespace Subst.Within

variable {s s₁ s₂ : Subst} {P Q : String → Prop}

theorem empty (P : String → Prop) : Within ∅ P := ⟨by simp, by simp⟩

theorem mono (h : s.Within P) (hs : ∀ v, P v → Q v) : s.Within Q :=
  ⟨fun v hv => hs v (h.key v hv), fun v t ht w hw =>
    ⟨hs w (h.value v t ht w hw).1, (h.value v t ht w hw).2⟩⟩

theorem singleton {v : String} {t : Ty} (hv : P v) (ht : ∀ w ∈ t.vars, P w)
    (hn : v ∉ t.vars) : Within (.singleton v t) P := by
  constructor
  · intro w hw
    rw [NameMap.mem_iff] at hw
    by_cases h : w = v <;> simp_all
  · intro w t' h w' hw'
    by_cases he : w = v
    · subst he
      have : t = t' := by simpa using h
      subst this
      refine ⟨ht w' hw', ?_⟩
      have : w' ≠ w := by rintro rfl; exact hn hw'
      simp [NameMap.not_mem_iff, this]
    · simp [he] at h

theorem mem_vars_apply (h : s.Within P) {t : Ty} (ht : ∀ v ∈ t.vars, P v) {w : String}
    (hw : w ∈ (t.apply s).vars) : P w ∧ w ∉ s := by
  obtain ⟨v, hv, hw⟩ := Ty.mem_vars_apply.1 hw
  rcases Ty.mem_vars_apply_var hw with ⟨he, hs⟩ | ⟨u, hu, hw⟩
  · rw [he]
    exact ⟨ht v hv, hs⟩
  · exact h.value v u hu w hw

theorem compose (h₁ : s₁.Within P) (h₂ : s₂.Within Q) (hw : ∀ w, Q w → P w ∧ w ∉ s₁) :
    (s₂.compose s₁).Within P := by
  constructor
  · intro v hv
    rcases Subst.mem_compose.1 hv with hv | hv
    · exact h₁.key v hv
    · exact (hw v (h₂.key v hv)).1
  · intro v t ht w hw'
    suffices hs : P w ∧ w ∉ s₁ ∧ w ∉ s₂ from
      ⟨hs.1, fun hm => (Subst.mem_compose.1 hm).elim hs.2.1 hs.2.2⟩
    rw [Subst.get?_compose] at ht
    obtain ⟨t₀, ht₀, rfl⟩ := Option.map_eq_some_iff.1 ht
    have ht₀ : ∀ x ∈ t₀.vars, P x ∧ x ∉ s₁ := by
      intro x hx
      rcases Option.or_eq_some_iff.1 ht₀ with h | ⟨-, h⟩
      · exact h₁.value v t₀ h x hx
      · exact hw x (h₂.value v t₀ h x hx).1
    obtain ⟨x, hx, hwx⟩ := Ty.mem_vars_apply.1 hw'
    rcases Ty.mem_vars_apply_var hwx with ⟨he, hs⟩ | ⟨u, hu, hwu⟩
    · rw [he]
      exact ⟨(ht₀ x hx).1, (ht₀ x hx).2, hs⟩
    · have hv := h₂.value x u hu w hwu
      exact ⟨(hw w hv.1).1, (hw w hv.1).2, hv.2⟩

theorem of_heads {f₁ f₂ : Ty} (h : s.Within (· ∈ f₁.vars ++ f₂.vars)) (a₁ a₂ : Ty) :
    s.Within (· ∈ (Ty.app f₁ a₁).vars ++ (Ty.app f₂ a₂).vars) :=
  h.mono (by simp only [Ty.vars, List.mem_append]; grind)

theorem mem_vars_args {f₁ a₁ f₂ a₂ : Ty} (h : s.Within (· ∈ f₁.vars ++ f₂.vars)) {w : String}
    (hw : w ∈ (a₁.apply s).vars ++ (a₂.apply s).vars) :
    w ∈ (Ty.app f₁ a₁).vars ++ (Ty.app f₂ a₂).vars ∧ w ∉ s := by
  have hs := h.of_heads a₁ a₂
  rcases List.mem_append.1 hw with hw | hw
  · exact hs.mem_vars_apply (by simp only [Ty.vars, List.mem_append]; grind) hw
  · exact hs.mem_vars_apply (by simp only [Ty.vars, List.mem_append]; grind) hw

/-- A solution of the heads, followed by one of the arguments under it. -/
theorem compose_args {f₁ a₁ f₂ a₂ : Ty} (h₁ : s₁.Within (· ∈ f₁.vars ++ f₂.vars))
    (h₂ : s₂.Within (· ∈ (a₁.apply s₁).vars ++ (a₂.apply s₁).vars)) :
    (s₂.compose s₁).Within (· ∈ (Ty.app f₁ a₁).vars ++ (Ty.app f₂ a₂).vars) :=
  (h₁.of_heads a₁ a₂).compose h₂ fun _ => h₁.mem_vars_args

end Subst.Within

def pairVars (l r : Ty) : Nat := (NameSet.ofNames (l.vars ++ r.vars)).size

def pairSize (l r : Ty) : Nat := l.size + r.size

/-- Fewer variables, or as many and smaller. -/
abbrev PairLt (p q : Ty × Ty) : Prop :=
  Prod.Lex (· < ·) (· < ·) (pairVars p.1 p.2, pairSize p.1 p.2) (pairVars q.1 q.2, pairSize q.1 q.2)

theorem pairLt_of_subset {l r l' r' : Ty} (h : ∀ v ∈ l.vars ++ r.vars, v ∈ l'.vars ++ r'.vars)
    (hs : pairSize l r < pairSize l' r') : PairLt (l, r) (l', r') := by
  have hv : pairVars l r ≤ pairVars l' r' := NameSet.size_le_of_subset (by simpa using h)
  rcases Nat.lt_or_eq_of_le hv with hv | hv
  · exact .left _ _ hv
  · simp only [PairLt, hv]
    exact .right _ hs

theorem pairLt_heads (f₁ a₁ f₂ a₂ : Ty) : PairLt (f₁, f₂) (.app f₁ a₁, .app f₂ a₂) := by
  apply pairLt_of_subset
  · simp only [Ty.vars, List.mem_append]
    grind
  · simp only [pairSize, Ty.size]
    omega

theorem pairLt_args {f₁ f₂ : Ty} (a₁ a₂ : Ty) {s : Subst} (h : s.Within (· ∈ f₁.vars ++ f₂.vars)) :
    PairLt (a₁.apply s, a₂.apply s) (.app f₁ a₁, .app f₂ a₂) := by
  by_cases he : ∃ v, v ∈ s
  · obtain ⟨v, hv⟩ := he
    refine .left _ _ (NameSet.size_lt_of_subset (k := v) ?_ ?_ ?_)
    · intro w hw
      exact NameSet.mem_ofNames.2 (h.mem_vars_args (NameSet.mem_ofNames.1 hw)).1
    · exact NameSet.mem_ofNames.2 ((h.of_heads a₁ a₂).key v hv)
    · exact fun hw => (h.mem_vars_args (NameSet.mem_ofNames.1 hw)).2 hv
  · have he : ∀ t : Ty, t.apply s = t := fun t =>
      Ty.apply_of_forall_not_mem fun v _ hv => he ⟨v, hv⟩
    rw [he, he]
    apply pairLt_of_subset
    · simp only [Ty.vars, List.mem_append]
      grind
    · simp only [pairSize, Ty.size]
      omega

theorem throw_bind {m : Type → Type} [Monad m] [LawfulMonad m] {ε α β : Type} (e : ε)
    (f : α → ExceptT ε m β) : (throw e : ExceptT ε m α) >>= f = throw e := by
  apply ExceptT.ext
  simp

theorem run_bind {ε α β : Type} (x : ExceptT ε Id α) (f : α → ExceptT ε Id β) :
    (x >>= f).run = Except.bind x.run fun a => (f a).run := by
  show ExceptT.bindCont f x.run = _
  cases x.run <;> rfl

section Noting

variable {m : Type → Type} [Monad m]

def bindVar (v : String) (t : Ty) {P : String → Prop} (hv : P v) (ht : ∀ w ∈ t.vars, P w) :
    ExceptT UnifyError m { s : Subst // s.Within P } :=
  if h : v ∈ t.vars then throw (.infinite v t)
  else return ⟨.singleton v t, .singleton hv ht h⟩

/-- The unifier, with the variables it may mention. Each composition is told to `note`, the outer
substitution first. -/
def unifyWithin (note : Subst → Subst → m Unit) (l r : Ty) :
    ExceptT UnifyError m { s : Subst // s.Within (· ∈ l.vars ++ r.vars) } :=
  if l = r then return ⟨∅, .empty _⟩
  else
    match l, r with
    | .var v, t => bindVar v t (by simp [Ty.vars]) (by simp +contextual)
    | t, .var v => bindVar v t (by simp [Ty.vars]) (by simp +contextual)
    | .app f₁ a₁, .app f₂ a₂ => do
      let ⟨s₁, h₁⟩ ← unifyWithin note f₁ f₂
      let ⟨s₂, h₂⟩ ← unifyWithin note (a₁.apply s₁) (a₂.apply s₁)
      note s₂ s₁
      return ⟨s₂.compose s₁, h₁.compose_args h₂⟩
    | l, r => throw (.mismatch l r)
termination_by (pairVars l r, pairSize l r)
decreasing_by
  · exact pairLt_heads f₁ a₁ f₂ a₂
  · exact pairLt_args a₁ a₂ h₁

def unifyNoting (note : Subst → Subst → m Unit) (l r : Ty) : ExceptT UnifyError m Subst := do
  let ⟨s, _⟩ ← unifyWithin note l r
  return s

section Equations

variable [LawfulMonad m] (note : Subst → Subst → m Unit)

theorem unifyNoting_self (t : Ty) : unifyNoting note t t = pure ∅ := by
  rw [unifyNoting, unifyWithin.eq_def, if_pos rfl, pure_bind]

theorem unifyNoting_var_left {v : String} {t : Ty} (h : t ≠ .var v) :
    unifyNoting note (.var v) t =
      if v ∈ t.vars then throw (.infinite v t) else pure (.singleton v t) := by
  rw [unifyNoting, unifyWithin.eq_def, if_neg (Ne.symm h)]
  simp only [bindVar]
  split
  · rw [throw_bind]
  · rw [pure_bind]

theorem unifyNoting_var_right {v : String} {t : Ty} (h : ∀ w, t ≠ .var w) :
    unifyNoting note t (.var v) =
      if v ∈ t.vars then throw (.infinite v t) else pure (.singleton v t) := by
  rw [unifyNoting, unifyWithin.eq_def, if_neg (h v)]
  cases t with
  | var w => exact absurd rfl (h w)
  | con c => simp [bindVar, Ty.vars]
  | app f a =>
    simp only [bindVar]
    split
    · rw [throw_bind]
    · rw [pure_bind]

theorem unifyNoting_app {f₁ a₁ f₂ a₂ : Ty} (h : Ty.app f₁ a₁ ≠ .app f₂ a₂) :
    unifyNoting note (.app f₁ a₁) (.app f₂ a₂) = (do
      let s₁ ← unifyNoting note f₁ f₂
      let s₂ ← unifyNoting note (a₁.apply s₁) (a₂.apply s₁)
      note s₂ s₁
      return s₂.compose s₁) := by
  rw [unifyNoting, unifyWithin.eq_def, if_neg h]
  simp only [unifyNoting, bind_assoc, pure_bind]

end Equations

end Noting

def unnoted (_ _ : Subst) : Id Unit := ()

/-- The most general unifier of two types. -/
def unify (l r : Ty) : Except UnifyError Subst := (unifyNoting unnoted l r).run

theorem unify_within {l r : Ty} {s : Subst} (h : unify l r = .ok s) :
    s.Within (· ∈ l.vars ++ r.vars) := by
  rw [unify, unifyNoting, run_bind] at h
  cases hu : (unifyWithin unnoted l r).run with
  | error e =>
    rw [hu] at h
    cases h
  | ok s' =>
    rw [hu] at h
    cases h
    exact s'.2

@[simp] theorem unify_self (t : Ty) : unify t t = .ok ∅ := by
  rw [unify, unifyNoting_self]
  rfl

theorem unify_var_left {v : String} {t : Ty} (h : t ≠ .var v) :
    unify (.var v) t =
      if v ∈ t.vars then .error (.infinite v t) else .ok (.singleton v t) := by
  rw [unify, unifyNoting_var_left unnoted h]
  split <;> rfl

theorem unify_var_right {v : String} {t : Ty} (h : ∀ w, t ≠ .var w) :
    unify t (.var v) =
      if v ∈ t.vars then .error (.infinite v t) else .ok (.singleton v t) := by
  rw [unify, unifyNoting_var_right unnoted h]
  split <;> rfl

theorem unify_app (f₁ a₁ f₂ a₂ : Ty) :
    unify (.app f₁ a₁) (.app f₂ a₂) = (do
      let s₁ ← unify f₁ f₂
      let s₂ ← unify (a₁.apply s₁) (a₂.apply s₁)
      return s₂.compose s₁) := by
  by_cases he : Ty.app f₁ a₁ = Ty.app f₂ a₂
  · cases he
    have h : (∅ : Subst).compose ∅ = ∅ := rfl
    simp [bind, Except.bind, pure, Except.pure, h]
  · rw [unify, unifyNoting_app unnoted he, run_bind]
    refine congrArg (Except.bind _) (funext fun s₁ => ?_)
    rw [run_bind]
    rfl

end LetPoly
