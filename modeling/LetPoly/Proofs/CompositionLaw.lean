import LetPoly.Proofs.Composition

/-!
When composition is lawful. A composition puts the outer substitution on the values of both, its own
among them, so it stands for one after the other exactly if the outer one leaves alone what it gives
for the variables that the inner one does not bind (`Subst.composable_iff`). With the empty
substitution inside it stands for the outer one done twice (`Subst.apply_compose_empty`), which is
also what decides whether three substitutions may be grouped either way.
-/

set_option autoImplicit false

namespace LetPoly.Subst

variable {outer inner s s' : Subst} {t u : Ty} {v : String}

theorem apply_eq_of_vars (h : ∀ v, (Ty.var v).apply s = (Ty.var v).apply s') (t : Ty) :
    t.apply s = t.apply s' := by
  rw [Ty.apply_eq_bind, Ty.apply_eq_bind s']
  exact Ty.bind_congr fun v _ => h v

theorem get?_compose_of_some (h : inner.get? v = some u) :
    (outer.compose inner).get? v = some (u.apply outer) := by
  rw [get?_compose, h]
  rfl

theorem apply_var_compose (h : inner.get? v = some u) :
    (Ty.var v).apply (outer.compose inner) = u.apply outer := by
  rw [Ty.apply, get?_compose_of_some h, Option.getD_some]

theorem apply_compose_empty (s : Subst) (t : Ty) : t.apply (s.compose ∅) = (t.apply s).apply s := by
  induction t with
  | con c => rfl
  | var v => cases h : s.get? v <;> simp [Ty.apply, get?_compose, h]
  | app f a ihf iha => rw [Ty.apply, ihf, iha, Ty.apply, Ty.apply]

theorem composable_iff :
    outer.Composable inner ↔ ∀ v t, v ∉ inner → outer.get? v = some t → t.apply outer = t := by
  constructor
  · intro h v t hv ht
    have hc := h (.var v)
    simpa [Ty.apply, get?_compose, NameMap.not_mem_iff.1 hv, ht] using hc
  · intro h t
    induction t with
    | con c => rfl
    | var v =>
      cases hi : inner.get? v with
      | some u => rw [apply_var_compose hi, Ty.apply, hi, Option.getD_some]
      | none =>
        cases ho : outer.get? v with
        | none => simp [Ty.apply, get?_compose, hi, ho]
        | some u => simp [Ty.apply, get?_compose, hi, ho, h v u (NameMap.not_mem_iff.2 hi) ho]
    | app f a ihf iha => rw [Ty.apply, ihf, iha, Ty.apply, Ty.apply]

/-- Only what `inner` leaves unbound matters, and a composition leaves no more unbound. -/
theorem Composable.compose_right (h : outer.Composable inner) (s : Subst) :
    outer.Composable (inner.compose s) := by
  rw [composable_iff] at h ⊢
  exact fun v t hv => h v t fun hi => hv (mem_compose.2 (.inr hi))

theorem get?_compose_of_not_mem (h : v ∉ s) :
    (outer.compose s).get? v = (outer.compose ∅).get? v := by
  rw [get?_compose, get?_compose, NameMap.not_mem_iff.1 h, NameMap.get?_empty]

theorem apply_compose_compose_empty (h : outer.Composable inner) (t : Ty) :
    t.apply ((outer.compose inner).compose ∅) =
        (((t.apply inner).apply outer).apply inner).apply outer ∧
      t.apply (outer.compose (inner.compose ∅)) = ((t.apply inner).apply inner).apply outer := by
  constructor
  · rw [apply_compose_empty, h, h]
  · rw [h.compose_right ∅, apply_compose_empty]

/-- Whether a third substitution may be grouped with either does not depend on it: the two must be
composable, and applying both twice over must come to applying the inner one twice. -/
theorem assoc_iff :
    (∀ (s : Subst) (t : Ty), t.apply ((outer.compose inner).compose s) =
        t.apply (outer.compose (inner.compose s))) ↔
      outer.Composable inner ∧ ∀ t : Ty, (((t.apply inner).apply outer).apply inner).apply outer =
        ((t.apply inner).apply inner).apply outer := by
  constructor
  · intro h
    have hc : outer.Composable inner := by
      intro t
      -- any type can be asked about as the value of some variable
      have hx : NameMap.get? (.singleton "x" t) "x" = some t := by simp
      have ht := h (.singleton "x" t) (.var "x")
      rwa [apply_var_compose hx, apply_var_compose (get?_compose_of_some hx)] at ht
    refine ⟨hc, fun t => ?_⟩
    obtain ⟨hl, hr⟩ := apply_compose_compose_empty hc t
    rw [← hl, ← hr, h ∅ t]
  · intro ⟨hc, h⟩ s t
    refine apply_eq_of_vars (fun v => ?_) t
    by_cases hs : v ∈ s
    · obtain ⟨u, hu⟩ := NameMap.mem_iff.1 hs
      rw [apply_var_compose hu, apply_var_compose (get?_compose_of_some hu), hc]
    · obtain ⟨hl, hr⟩ := apply_compose_compose_empty hc (.var v)
      have hv : (Ty.var v).apply ((outer.compose inner).compose ∅) =
          (Ty.var v).apply (outer.compose (inner.compose ∅)) := by rw [hl, hr, h]
      simpa only [Ty.apply, get?_compose _ (inner.compose s), get?_compose _ (inner.compose ∅),
        get?_compose_of_not_mem hs] using hv

/-- The composition law for two substitutions, and its consequence for a third one inside them, each
with the condition under which it holds. -/
theorem compose_law_iff_and_assoc_iff (outer inner : Subst) :
    ((∀ t : Ty, t.apply (outer.compose inner) = (t.apply inner).apply outer) ↔
        ∀ v t, v ∉ inner → outer.get? v = some t → t.apply outer = t) ∧
      ((∀ (s : Subst) (t : Ty), t.apply ((outer.compose inner).compose s) =
          t.apply (outer.compose (inner.compose s))) ↔
        outer.Composable inner ∧ ∀ t : Ty,
          (((t.apply inner).apply outer).apply inner).apply outer =
            ((t.apply inner).apply inner).apply outer) :=
  ⟨composable_iff, assoc_iff⟩

/-- Written `{'a ↦ 'b, 'b ↦ Int}`: no cycle, but a value with a bound variable. -/
def chain : Subst := .ofList [("a", .var "b"), ("b", .int)]

/-- After nothing at all, `chain` sends `'a` to `'b` and its composition sends `'a` to `Int`; so one
grouping with `{'c ↦ 'a}` sends `'c` to `Int` and the other to `'b`. -/
theorem chain_not_lawful :
    (Ty.var "a").apply (chain.compose ∅) ≠ ((Ty.var "a").apply ∅).apply chain ∧
      (Ty.var "c").apply ((chain.compose ∅).compose (.singleton "c" (.var "a"))) ≠
        (Ty.var "c").apply (chain.compose (compose ∅ (.singleton "c" (.var "a")))) := by
  decide

end LetPoly.Subst
