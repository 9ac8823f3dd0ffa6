import LetPoly.Unify

set_option autoImplicit false

namespace LetPoly

namespace Ty

/-- Every variable replaced at once. -/
def bind (f : String → Ty) : Ty → Ty
  | .con c => .con c
  | .var v => f v
  | .app g a => .app (g.bind f) (a.bind f)

@[simp] theorem bind_con (f : String → Ty) (c : String) : (con c).bind f = con c := rfl

@[simp] theorem bind_var (f : String → Ty) (v : String) : (var v).bind f = f v := rfl

@[simp] theorem bind_app (f : String → Ty) (g a : Ty) :
    (app g a).bind f = app (g.bind f) (a.bind f) := rfl

@[simp] theorem bind_fn (f : String → Ty) (a b : Ty) :
    (fn a b).bind f = fn (a.bind f) (b.bind f) := rfl

@[simp] theorem vars_fn (a b : Ty) : (fn a b).vars = a.vars ++ b.vars := rfl

theorem bind_congr {f g : String → Ty} {t : Ty} (h : ∀ v ∈ t.vars, f v = g v) :
    t.bind f = t.bind g := by
  induction t with
  | con c => rfl
  | var v => exact h v (by simp [vars])
  | app a b iha ihb =>
    have ha := iha fun v hv => h v (by simp [vars, hv])
    have hb := ihb fun v hv => h v (by simp [vars, hv])
    rw [bind_app, bind_app, ha, hb]

@[simp] theorem bind_id (t : Ty) : t.bind var = t := by
  induction t <;> simp_all

theorem bind_eq_self {f : String → Ty} {t : Ty} (h : ∀ v ∈ t.vars, f v = var v) : t.bind f = t := by
  rw [bind_congr h, bind_id]

theorem bind_bind (f g : String → Ty) (t : Ty) :
    (t.bind f).bind g = t.bind fun v => (f v).bind g := by
  induction t <;> simp_all

theorem mem_vars_bind {f : String → Ty} {t : Ty} {w : String} :
    w ∈ (t.bind f).vars ↔ ∃ v ∈ t.vars, w ∈ (f v).vars := by
  induction t with
  | con c => simp [vars]
  | var v => simp [vars]
  | app a b iha ihb =>
    simp only [bind_app, vars, List.mem_append, iha, ihb, or_and_right, exists_or]

theorem apply_eq_bind (s : Subst) (t : Ty) : t.apply s = t.bind fun v => (var v).apply s := by
  induction t <;> simp_all [apply]

theorem bind_apply (s : Subst) (f : String → Ty) (t : Ty) :
    (t.apply s).bind f = t.bind fun v => ((var v).apply s).bind f := by
  rw [apply_eq_bind, bind_bind]

theorem apply_var_of_not_mem {s : Subst} {v : String} (h : v ∉ s) : (var v).apply s = var v :=
  apply_of_forall_not_mem (by simpa [vars] using h)

@[simp] theorem apply_var_singleton (v : String) (u : Ty) :
    (var v).apply (.singleton v u) = u := by
  simp [apply]

theorem apply_singleton_of_not_mem {v : String} {u t : Ty} (h : v ∉ t.vars) :
    t.apply (.singleton v u) = t := by
  apply apply_of_forall_not_mem
  intro w hw hs
  have : w ≠ v := fun he => h (he ▸ hw)
  simp [NameMap.mem_iff, this] at hs

/-- On finitely many names every function is a finite substitution. -/
theorem exists_apply_eq (f : String → Ty) (names : List String) :
    ∃ s : Subst, ∀ v ∈ names, (var v).apply s = f v := by
  induction names with
  | nil => exact ⟨∅, by simp⟩
  | cons n names ih =>
    obtain ⟨s, hs⟩ := ih
    refine ⟨s.insert n (f n), fun v hv => ?_⟩
    by_cases hn : v = n
    · simp [apply, hn]
    · have hv := hs v (by simpa [hn] using hv)
      simpa [apply, hn] using hv

theorem exists_apply_eq_bind (f : String → Ty) (ts : List Ty) :
    ∃ s : Subst, ∀ t ∈ ts, t.apply s = t.bind f := by
  obtain ⟨s, hs⟩ := exists_apply_eq f (ts.flatMap vars)
  refine ⟨s, fun t ht => ?_⟩
  rw [apply_eq_bind]
  exact bind_congr fun v hv => hs v (List.mem_flatMap.2 ⟨t, ht, hv⟩)

end Ty

namespace Subst

theorem apply_var_without (s : Subst) (vs : NameSet) (v : String) :
    (Ty.var v).apply (s.without vs) = if v ∈ vs then .var v else (Ty.var v).apply s := by
  by_cases h : v ∈ vs <;> simp [Ty.apply, h]

namespace Within

variable {s s₁ s₂ s₃ outer inner : Subst} {P Q R : String → Prop}

theorem apply_value (h : s.Within P) {v : String} {t : Ty} (ht : s.get? v = some t) :
    t.apply s = t :=
  Ty.apply_of_forall_not_mem fun w hw => (h.value v t ht w hw).2

theorem apply_compose (h : outer.Within P) (t : Ty) :
    t.apply (outer.compose inner) = (t.apply inner).apply outer :=
  Ty.apply_compose (fun _ _ => h.apply_value) t

theorem not_mem_of_mem_apply (h : s.Within P) {t : Ty} {w : String}
    (hw : w ∈ (t.apply s).vars) : w ∉ s := by
  obtain ⟨v, -, hw⟩ := Ty.mem_vars_apply.1 hw
  rcases Ty.mem_vars_apply_var hw with ⟨he, hs⟩ | ⟨u, hu, hw⟩
  · exact he ▸ hs
  · exact (h.value v u hu w hw).2

theorem apply_apply (h : s.Within P) (t : Ty) : (t.apply s).apply s = t.apply s :=
  Ty.apply_of_forall_not_mem fun _ hw => h.not_mem_of_mem_apply hw

theorem compose_empty (h : s.Within P) : s.compose ∅ = s := by
  ext1 v
  cases hs : s.get? v with
  | none => simp [get?_compose, hs]
  | some t => simp [get?_compose, hs, h.apply_value hs]

theorem compose_assoc (h₃ : s₃.Within P) (h₂ : s₂.Within Q) (h : (s₃.compose s₂).Within R) :
    s₃.compose (s₂.compose s₁) = (s₃.compose s₂).compose s₁ := by
  have hv : ∀ v t, (s₃.compose s₂).get? v = some t → t.apply (s₃.compose s₂) = t :=
    fun _ _ => h.apply_value
  ext1 v
  rw [get?_compose, get?_compose, get?_compose]
  cases hs₁ : s₁.get? v with
  | some t => simp [h₃.apply_compose]
  | none =>
    have h₂₃ := hv v
    rw [get?_compose] at h₂₃ ⊢
    cases hs₂ : s₂.get? v with
    | some t => simp_all [h₂.apply_value hs₂]
    | none => cases hs₃ : s₃.get? v <;> simp_all

end Within

end Subst

end LetPoly
