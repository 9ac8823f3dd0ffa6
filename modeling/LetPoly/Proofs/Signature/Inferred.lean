import LetPoly.Proofs.Prelude
import LetPoly.Proofs.Unification

set_option autoImplicit false

namespace LetPoly.Signature

open Check

theorem isAlphabetic_letter {d : Nat} (h : d < 26) : Text.isAlphabetic (letter d) = true := by
  have hall : ∀ i : Fin 26, Text.isAlphabetic (letter i) = true := by decide
  exact hall ⟨d, h⟩

theorem isAlphabetic_of_mem_letterDigits {n : Nat} {c : Char} (h : c ∈ letterDigits n) :
    Text.isAlphabetic c = true := by
  fun_induction letterDigits n with
  | case1 => cases h
  | case2 n ih =>
    rcases List.mem_append.1 h with h | h
    · exact ih h
    · rw [List.mem_singleton.1 h]
      exact isAlphabetic_letter (Nat.mod_lt n (by decide))

theorem isVarWord_letters {n : Nat} (h : 0 < n) : isVarWord (letters n) = true := by
  have hall : ∀ c ∈ letterDigits n, Text.isAlphabetic c = true :=
    fun _ => isAlphabetic_of_mem_letterDigits
  have hword : ∀ c ∈ letterDigits n, isWordChar c = true :=
    fun c hc => by simp [isWordChar, isAlphanumeric, hall c hc]
  have hne : letterDigits n ≠ [] := by
    cases n with
    | zero => omega
    | succ n => simp [letterDigits]
  obtain ⟨c, cs, hd⟩ := List.exists_cons_of_ne_nil hne
  rw [hd] at hall hword
  rw [isVarWord, letters, String.toList_ofList, hd, Bool.and_eq_true]
  exact ⟨List.all_eq_true.2 hword, hall c (by simp)⟩

theorem isVarWord_of_pending {ν : NameSupply} {v : String} (h : ν.Pending v) :
    isVarWord v = true := by
  obtain ⟨-, k, hk, rfl⟩ := h
  exact isVarWord_letters (by omega)

def WritableSubst (s : Subst) : Prop := ∀ v t, s.get? v = some t → WritableType t

section Substitutions

variable {s s₁ s₂ : Subst} {t l r : Ty}

theorem writableSubst_empty : WritableSubst ∅ := by
  intro v t h
  simp at h

theorem WritableType.bind (h : WritableType t) {f : String → Ty}
    (hf : ∀ v ∈ t.vars, WritableType (f v)) : WritableType (t.bind f) := by
  induction t with
  | con c => exact h
  | var v => exact hf v (by simp [Ty.vars])
  | app a b iha ihb =>
    exact ⟨iha h.1 fun v hv => hf v (by simp [Ty.vars, hv]),
      ihb h.2 fun v hv => hf v (by simp [Ty.vars, hv])⟩

theorem WritableType.apply (h : WritableType t) (hs : WritableSubst s) :
    WritableType (t.apply s) := by
  rw [Ty.apply_eq_bind]
  refine h.bind fun v hv => ?_
  rw [Ty.apply]
  cases hv' : s.get? v with
  | none => exact h.vars v hv
  | some u => exact hs v u hv'

theorem WritableSubst.compose (h₂ : WritableSubst s₂) (h₁ : WritableSubst s₁) :
    WritableSubst (s₂.compose s₁) := by
  intro v t ht
  rw [Subst.get?_compose] at ht
  obtain ⟨u, hu, rfl⟩ := Option.map_eq_some_iff.1 ht
  rcases Option.or_eq_some_iff.1 hu with hu | ⟨-, hu⟩
  · exact (h₁ v u hu).apply h₂
  · exact (h₂ v u hu).apply h₂

theorem writableSubst_singleton {v : String} (h : WritableType t) :
    WritableSubst (.singleton v t) := by
  intro w u hu
  by_cases hw : w = v
  · simp only [NameMap.get?_singleton, hw, if_true, Option.some.injEq] at hu
    exact hu ▸ h
  · simp [hw] at hu

/-- The values of a unifier are made of parts of the two types. -/
theorem unify_writable (l r : Ty) : WritableType l → WritableType r →
    ∀ s, unify l r = .ok s → WritableSubst s := by
  induction l, r using unify_induction with
  | self t =>
    intro _ _ s h
    rw [unify_self] at h
    cases h
    exact writableSubst_empty
  | varLeft v t ht =>
    intro _ hr s h
    rw [unify_var_left ht] at h
    split at h
    · cases h
    · cases h
      exact writableSubst_singleton hr
  | varRight v t ht =>
    intro hl _ s h
    rw [unify_var_right ht] at h
    split at h
    · cases h
    · cases h
      exact writableSubst_singleton hl
  | clash l r hc =>
    intro _ _ s h
    simp [unify_clash hc] at h
  | app f₁ a₁ f₂ a₂ ihf iha =>
    intro hl hr s h
    obtain ⟨s₁, s₂, h₁, h₂, rfl⟩ := unify_app_ok h
    -- the arguments are unified under `s₁`, so its values have to be writable first
    have hs₁ := ihf hl.1 hr.1 s₁ h₁
    exact (iha s₁ h₁ (hl.2.apply hs₁) (hr.2.apply hs₁) s₂ h₂).compose hs₁

theorem WritableType.fn (hl : WritableType l) (hr : WritableType r) : WritableType (.fn l r) :=
  ⟨⟨.inl rfl, hl⟩, hr⟩

theorem WritableType.fns {ts : List Ty} (hts : ∀ u ∈ ts, WritableType u) (h : WritableType t) :
    WritableType (.fns ts t) := by
  induction ts with
  | nil => exact h
  | cons u ts ih => exact .fn (hts u (by simp)) (ih fun w hw => hts w (by simp [hw]))

theorem writableType_ty (l : Literal) : WritableType l.ty := by
  cases l <;> exact .inr (by decide)

end Substitutions

def WritableContext (Γ : Context) : Prop := ∀ x σ, Γ.get? x = some σ → WritableType σ.body

section Contexts

variable {Γ : Context} {s : Subst} {t : Ty}

theorem WritableContext.insert (h : WritableContext Γ) (x : String) {σ : Scheme}
    (hσ : WritableType σ.body) : WritableContext (Γ.insert x σ) := by
  intro y τ hτ
  rw [NameMap.get?_insert] at hτ
  split at hτ
  · cases hτ
    exact hσ
  · exact h y τ hτ

theorem WritableContext.apply (h : WritableContext Γ) (hs : WritableSubst s) :
    WritableContext (Γ.apply s) := by
  intro x σ' hσ'
  rw [Context.get?_apply] at hσ'
  obtain ⟨σ, hσ, rfl⟩ := Option.map_eq_some_iff.1 hσ'
  refine (h x σ hσ).apply fun v t ht => hs v t ?_
  rw [NameMap.get?_without] at ht
  split at ht
  · cases ht
  · exact ht

theorem writableType_instantiate {σ : Scheme} (h : WritableType σ.body) (ν : NameSupply) :
    WritableType (σ.instantiate ν).1 := by
  obtain ⟨a, ht, ha, -, -⟩ := σ.instantiate_eq ν
  rw [ht]
  refine h.bind fun v hv => ?_
  by_cases hq : v ∈ σ.vars
  · rw [if_pos hq]
    exact isVarWord_of_pending (ha v hq).1
  · rw [if_neg hq]
    exact h.vars v hv

theorem yields_fresh : Check.fresh.Yields fun v => WritableType (.var v) := by
  intro ν v ν' h
  rw [exec_fresh] at h
  cases h
  exact isVarWord_of_pending ν.pending_fresh

theorem yields_instantiate {σ : Scheme} (h : WritableType σ.body) :
    (Check.instantiate σ).Yields WritableType := by
  intro ν t ν' ht
  rw [exec_instantiate] at ht
  cases ht
  exact writableType_instantiate h ν

theorem yields_unify {l r : Ty} (hl : WritableType l) (hr : WritableType r) :
    (Check.unify l r).Yields WritableSubst := by
  intro ν s ν' h
  rw [exec_unify] at h
  cases hu : LetPoly.unify l r with
  | error e => simp [hu, Except.mapError] at h
  | ok u =>
    simp only [hu, Except.mapError, Prod.mk.injEq, Except.ok.injEq] at h
    exact h.1 ▸ unify_writable l r hl hr u hu

theorem yields_pattern (hΓ : WritableContext Γ) (p : Pattern) :
    (p.infer Γ).Yields fun r => WritableType r.1 ∧ WritableContext r.2 := by
  rcases p.var_or_other with ⟨x, rfl⟩ | hp
  · exact yields_fresh.bind fun v hv => yields_pure ⟨hv, hΓ.insert x.name hv⟩
  · intro ν r ν' h
    rw [Pattern.exec_infer_other hp] at h
    cases h

theorem yields_patterns (ps : List Pattern) (hΓ : WritableContext Γ) :
    (Pattern.inferAll ps Γ).Yields fun r => (∀ t ∈ r.1, WritableType t) ∧ WritableContext r.2 := by
  induction ps generalizing Γ with
  | nil => exact yields_pure ⟨by simp, hΓ⟩
  | cons p ps ih =>
    refine (yields_pattern hΓ p).bind fun r₁ h₁ => ?_
    refine (ih h₁.2).bind fun r₂ h₂ => yields_pure ⟨?_, h₂.2⟩
    simpa using ⟨h₁.1, h₂.1⟩

def WritableResult (r : Subst × Ty) : Prop := WritableSubst r.1 ∧ WritableType r.2

theorem yields_function {body : Context → Check (Subst × Ty)}
    (hb : ∀ Δ, WritableContext Δ → (body Δ).Yields WritableResult) (ps : List Pattern)
    (hΓ : WritableContext Γ) : (Check.function ps body Γ).Yields WritableResult := by
  refine (yields_patterns ps hΓ).bind fun r h => ?_
  refine (hb r.2 h.2).bind fun st hst => yields_pure ⟨hst.1, ?_⟩
  exact (WritableType.fns h.1 hst.2).apply hst.1

end Contexts

mutual
theorem yields_infer : (e : Expr) → (Γ : Context) → WritableContext Γ →
    (e.infer Γ).Yields WritableResult
  | .lit l, Γ, _ => by
    rw [Expr.infer_lit]
    exact yields_pure ⟨writableSubst_empty, writableType_ty l⟩
  | .var x, Γ, hΓ => by
    rw [Expr.infer_var]
    cases hσ : Γ.get? x.name with
    | none => exact yields_throw _
    | some σ =>
      refine (yields_instantiate (hΓ x.name σ hσ)).bind fun t ht => ?_
      exact yields_pure ⟨writableSubst_empty, ht⟩
  | .app f a, Γ, hΓ => by
    rw [Expr.infer_app]
    refine yields_fresh.bind fun v hv => ?_
    refine (yields_infer f Γ hΓ).bind fun r₁ h₁ => ?_
    refine (yields_infer a _ (hΓ.apply h₁.1)).bind fun r₂ h₂ => ?_
    refine (yields_unify (h₁.2.apply h₂.1) (h₂.2.fn hv)).bind fun s₃ h₃ => ?_
    exact yields_pure ⟨h₃.compose (h₂.1.compose h₁.1), hv.apply h₃⟩
  | .abs p b, Γ, hΓ => by
    rw [Expr.infer_abs]
    refine (yields_pattern hΓ p).bind fun r₁ h₁ => ?_
    refine (yields_infer b _ h₁.2).bind fun r₂ h₂ => ?_
    exact yields_pure ⟨h₂.1, (h₁.1.fn h₂.2).apply h₂.1⟩
  | .group e, Γ, hΓ => by
    rw [Expr.infer_group]
    exact yields_infer e Γ hΓ
  | .letIn bs b, Γ, hΓ => by
    rw [Expr.infer_let]
    refine (yields_bindings bs ∅ Γ writableSubst_empty hΓ).bind fun r₁ h₁ => ?_
    refine (yields_infer b _ h₁.2).bind fun r₂ h₂ => ?_
    exact yields_pure ⟨h₂.1.compose h₁.1, h₂.2⟩

theorem yields_bindings : (bs : Bindings) → (s : Subst) → (Γ : Context) → WritableSubst s →
    WritableContext Γ → (bs.infer s Γ).Yields fun r => WritableSubst r.1 ∧ WritableContext r.2
  | .nil, s, Γ, hs, hΓ => by
    rw [Bindings.infer_nil]
    exact yields_pure ⟨hs, hΓ⟩
  | .cons k x ps e rest, s, Γ, hs, hΓ => by
    rw [Bindings.infer_cons]
    refine (yields_function (yields_infer e) ps hΓ).bind fun r h => ?_
    have hscope := hΓ.apply h.1
    exact yields_bindings rest _ _ (h.1.compose hs) (hscope.insert x.name h.2)
end

theorem writableType_of_inferType {e : Expr} {Γ : Context} {t : Ty} (hΓ : WritableContext Γ)
    (h : inferType e Γ = .ok t) : WritableType t := by
  obtain ⟨s, ν', hrun⟩ := inferType_ok.1 h
  exact (yields_infer e Γ hΓ hrun).2

theorem parseScheme_text_type {t : Ty} (h : WritableType t) :
    parseScheme t.text = .ok (.closed t) := by
  obtain ⟨us, hus, hts⟩ := spells_text h [] [] breaks_nil lexes_nil 0
  rw [List.append_nil] at hus hts
  exact parseScheme_eq_ok.2 ⟨us, hus, hts ▸ .implicit (derives_typeTokens t).1⟩

theorem writableContext_toContext {p : Prelude} {Γ : Context} (hp : p.toContext = .ok Γ) :
    WritableContext Γ := by
  intro x σ hσ
  obtain ⟨sig, hsig⟩ := Prelude.exists_parseScheme_of_toContext hp hσ
  exact (parseScheme_writable hsig).body

/-- The text of a type that is found in the context of a prelude is a signature of that type with
all its variables quantified. Under any name in that prelude it makes a value that has exactly the
types of the expression. -/
theorem parseScheme_text_of_inferType {p : Prelude} {Γ : Context} {e : Expr} {t : Ty}
    (hp : p.toContext = .ok Γ) (h : inferType e Γ = .ok t) :
    parseScheme t.text = .ok (.closed t) ∧
    ∀ x : Ident, ∃ Δ, (Prelude.mk (p.values.put x.name t.text)).toContext = .ok Δ ∧
      ∀ u, HasType Δ (.var x) u ↔ HasType Γ e u := by
  have hclosed := Prelude.toContext_closed hp
  have htext : parseScheme t.text = .ok (.closed t) :=
    parseScheme_text_type (writableType_of_inferType (writableContext_toContext hp) h)
  refine ⟨htext, fun x => ⟨_, Prelude.toContext_put hp x.name htext, fun u => ?_⟩⟩
  rw [hclosed.hasType_iff_instance h, hclosed.generalize_eq, HasType.var_iff]
  simp

/-- The prelude `lift : a -> F ((->) a) ()`. -/
def liftPrelude : Prelude := ⟨.ofList [("lift", "forall a. a -> F ((->) a) ()")]⟩

def liftContext : Context :=
  .singleton "lift"
    (.poly ["a"] (.fn (.var "a") (.app (.app (.con "F") (.app .arrow (.var "a"))) .unit)))

/-- Written `\y -> lift (lift y)`. -/
def liftTwice : Expr :=
  .lambda ⟨"y", none⟩
    (.app (.var ⟨"lift", none⟩) (.app (.var ⟨"lift", none⟩) (.var ⟨"y", none⟩)))

/-- Written `'a -> F ((->) (F ((->) 'a) Unit)) Unit`. -/
def liftedTwice : Ty :=
  .fn (.var "a")
    (.app (.app (.con "F") (.app .arrow (.app (.app (.con "F") (.app .arrow (.var "a"))) .unit)))
      .unit)

theorem parseScheme_text_liftedTwice :
    liftPrelude.toContext = .ok liftContext ∧ inferType liftTwice liftContext = .ok liftedTwice ∧
    parseScheme liftedTwice.text = .ok (.closed liftedTwice) := by
  have hp : liftPrelude.toContext = .ok liftContext := by rfl
  have ht : inferType liftTwice liftContext = .ok liftedTwice := by cbv
  exact ⟨hp, ht, (parseScheme_text_of_inferType hp ht).1⟩

end LetPoly.Signature
