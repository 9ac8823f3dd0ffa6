import LetPoly.Proofs.Scope
import LetPoly.Proofs.Soundness

set_option autoImplicit false

namespace LetPoly

open Check

/-- From every supply the result satisfies `P` or the error satisfies `E`. -/
structure Check.Ends {α : Type} (x : Check α) (P : α → Prop) (E : TypeError → Prop) : Prop where
  yields : x.Yields P
  fails : ∀ ⦃ν e ν'⦄, x.exec ν = (.error e, ν') → E e

namespace Check

variable {α β : Type} {P : α → Prop} {Q : β → Prop} {E F : TypeError → Prop}

theorem exec_bind_error {x : Check α} {f : α → Check β} {ν ν'' : NameSupply} {e : TypeError}
    (h : (x >>= f).exec ν = (.error e, ν'')) :
    x.exec ν = (.error e, ν'') ∨
      ∃ a ν', x.exec ν = (.ok a, ν') ∧ (f a).exec ν' = (.error e, ν'') := by
  rw [exec_bind] at h
  cases hx : x.exec ν with
  | mk r ν' =>
    rw [hx] at h
    cases r with
    | ok a => exact .inr ⟨a, ν', rfl, h⟩
    | error e' => exact .inl (by cases h; rfl)

theorem ends_pure {a : α} (h : P a) : (pure a : Check α).Ends P E := by
  refine ⟨yields_pure h, fun ν e ν' he => ?_⟩
  cases he

theorem ends_throw {e : TypeError} (h : E e) : (throw e : Check α).Ends P E := by
  refine ⟨yields_throw e, fun ν e' ν' he => ?_⟩
  cases he
  exact h

theorem Ends.bind {x : Check α} {f : α → Check β} (hx : x.Ends P E) (hE : ∀ e, E e → F e)
    (hf : ∀ a, P a → (f a).Ends Q F) : (x >>= f).Ends Q F := by
  refine ⟨hx.yields.bind fun a ha => (hf a ha).yields, fun ν e ν'' he => ?_⟩
  rcases exec_bind_error he with he | ⟨a, ν', ha, he⟩
  · exact hE e (hx.fails he)
  · exact (hf a (hx.yields ha)).fails he

theorem Ends.of_exec {x y : Check α} (h : y.Ends P E) (hxy : ∀ ν, x.exec ν = y.exec ν) :
    x.Ends P E :=
  ⟨fun ν _ _ hx => h.yields ((hxy ν).symm.trans hx),
    fun ν _ _ hx => h.fails ((hxy ν).symm.trans hx)⟩

theorem Ends.imp {x : Check α} {P' : α → Prop} (h : x.Ends P E) (hP : ∀ a, P a → P' a)
    (hE : ∀ e, E e → F e) : x.Ends P' F :=
  ⟨fun _ a _ hx => hP a (h.yields hx), fun _ e _ hx => hE e (h.fails hx)⟩

end Check

mutual
/-- Every parameter of a lambda or of a binding, however deep. -/
def Expr.params : Expr → List Pattern
  | .lit _ | .var _ => []
  | .app f a => f.params ++ a.params
  | .abs p b => p :: b.params
  | .group e => e.params
  | .letIn bs b => bs.params ++ b.params

def Bindings.params : Bindings → List Pattern
  | .nil => []
  | .cons _ _ ps e rest => ps ++ e.params ++ rest.params
end

/-- The context binds all of `xs`, and all of `ps` are variables. -/
structure Scoped (xs : List String) (ps : List Pattern) (Γ : Context) : Prop where
  bound : ∀ x ∈ xs, x ∈ Γ
  plain : ∀ p ∈ ps, ∃ x, p = .var x

/-- The errors that can be found where `xs` and `ps` are looked at: one of `xs` that is not bound,
one of `ps` that is no variable, or types that do not fit. -/
inductive ScopeFault (xs : List String) (ps : List Pattern) (Γ : Context) : TypeError → Prop
  | unbound {x : String} : x ∈ xs → x ∉ Γ → ScopeFault xs ps Γ (.unbound x)
  | unsupported {p : Pattern} : p ∈ ps → (∀ x, p ≠ .var x) →
    ScopeFault xs ps Γ (.unsupported (p.kind ++ " pattern `" ++ p.text ++ "`"))
  | unify (e : UnifyError) : ScopeFault xs ps Γ (.unify e)

theorem ScopeFault.imp {xs ys : List String} {ps qs : List Pattern} {Γ Δ : Context}
    {e : TypeError} (h : ScopeFault xs ps Γ e) (hx : ∀ x ∈ xs, x ∉ Γ → x ∈ ys ∧ x ∉ Δ)
    (hp : ∀ p ∈ ps, p ∈ qs) : ScopeFault ys qs Δ e := by
  cases h with
  | unbound hm hn => exact .unbound (hx _ hm hn).1 (hx _ hm hn).2
  | unsupported hm hv => exact .unsupported (hp _ hm) hv
  | unify e => exact .unify e

namespace Context

variable {Γ : Context} {s : Subst} {x y : String} {σ : Scheme} {t : Ty}

@[simp] theorem mem_apply : y ∈ Γ.apply s ↔ y ∈ Γ := by
  simp [NameMap.mem_iff]

@[simp] theorem mem_insert : y ∈ Γ.insert x σ ↔ y = x ∨ y ∈ Γ := by
  by_cases h : y = x <;> simp [NameMap.mem_iff, h]

@[simp] theorem mem_afterBinding : y ∈ Γ.afterBinding s x t ↔ y = x ∨ y ∈ Γ := by
  simp [afterBinding]

end Context

/-- Ends well only if `xs` and `ps` are in order, and finds fault with nothing else. -/
def Check.Demands {α : Type} (x : Check α) (xs : List String) (ps : List Pattern) (Γ : Context) :
    Prop :=
  x.Ends (fun _ => Scoped xs ps Γ) (ScopeFault xs ps Γ)

namespace Check

variable {α β : Type} {xs ys : List String} {ps qs : List Pattern} {Γ Δ : Context} {x : Check α}

theorem demands_of_ok (h : ∀ ν, ∃ a ν', x.exec ν = (.ok a, ν')) : x.Demands [] [] Γ := by
  refine ⟨fun ν a ν' _ => ⟨by simp, by simp⟩, fun ν e ν' he => ?_⟩
  obtain ⟨a, ν'', ha⟩ := h ν
  rw [ha] at he
  cases he

theorem demands_unify (l r : Ty) : (Check.unify l r).Demands [] [] Γ := by
  refine ⟨fun ν s ν' _ => ⟨by simp, by simp⟩, fun ν e ν' he => ?_⟩
  rw [exec_unify] at he
  cases hu : LetPoly.unify l r with
  | ok s => simp [hu, Except.mapError] at he
  | error u =>
    simp only [hu, Except.mapError, Prod.mk.injEq, Except.error.injEq] at he
    exact he.1 ▸ .unify u

theorem Demands.bind {f : α → Check β} (hx : x.Demands xs ps Γ)
    (hf : ∀ a, (f a).Demands ys qs Γ) : (x >>= f).Demands (xs ++ ys) (ps ++ qs) Γ := by
  refine Ends.bind hx (fun e h => h.imp (by simp +contextual) (by simp +contextual)) fun a h => ?_
  refine Ends.imp (hf a) (fun b hb => ⟨fun y hy => ?_, fun p hp => ?_⟩)
    fun e h => h.imp (by simp +contextual) (by simp +contextual)
  · exact (List.mem_append.1 hy).elim (h.bound y) (hb.bound y)
  · exact (List.mem_append.1 hp).elim (h.plain p) (hb.plain p)

theorem Demands.bind_nothing {f : α → Check β} (hx : x.Demands xs ps Γ)
    (hf : ∀ a, (f a).Demands [] [] Γ) : (x >>= f).Demands xs ps Γ := by
  simpa using hx.bind hf

theorem Demands.bind_pure (hx : x.Demands xs ps Γ) (g : α → β) :
    (x >>= fun a => pure (g a)).Demands xs ps Γ :=
  hx.bind_nothing fun a => demands_of_ok fun ν => ⟨g a, ν, rfl⟩

theorem Demands.under {names : List String} (hx : x.Demands xs ps Δ)
    (hΔ : ∀ y, y ∈ Δ ↔ y ∈ names ∨ y ∈ Γ) : x.Demands (xs.filter (· ∉ names)) ps Γ := by
  refine Ends.imp hx (fun a h => ⟨fun y hy => ?_, h.plain⟩)
    fun e h => h.imp (fun y hy hn => ?_) fun p hp => hp
  · obtain ⟨hy, hn⟩ := List.mem_filter.1 hy
    exact ((hΔ y).1 (h.bound y hy)).resolve_left (by simpa using hn)
  · rw [hΔ, not_or] at hn
    exact ⟨List.mem_filter.2 ⟨hy, by simpa using hn.1⟩, hn.2⟩

theorem Demands.of_mem_iff (hx : x.Demands xs ps Δ) (hΔ : ∀ y, y ∈ Δ ↔ y ∈ Γ) :
    x.Demands xs ps Γ := by
  have hnil : ∀ y, y ∈ Δ ↔ y ∈ [] ∨ y ∈ Γ := by simpa using hΔ
  simpa using hx.under hnil

end Check

def Check.Binds {α : Type} (x : Check (α × Context)) (ps : List Pattern) (Γ : Context) : Prop :=
  x.Ends (fun r => (∀ p ∈ ps, ∃ x, p = .var x) ∧ ∀ y, y ∈ r.2 ↔ y ∈ Pattern.namesAll ps ∨ y ∈ Γ)
    (ScopeFault [] ps Γ)

theorem Pattern.binds_infer (p : Pattern) (Γ : Context) : (p.infer Γ).Binds [p] Γ := by
  rcases p.var_or_other with ⟨x, rfl⟩ | hp
  · refine ⟨fun ν r ν' h => ⟨by simp, fun y => ?_⟩, fun ν e ν' h => ?_⟩
    · rw [Pattern.exec_infer_var] at h
      cases h
      simp [Pattern.namesAll, Pattern.names]
    · rw [Pattern.exec_infer_var] at h
      cases h
  · exact (ends_throw (.unsupported (by simp) hp)).of_exec fun ν => Pattern.exec_infer_other hp Γ ν

theorem Pattern.binds_inferAll (ps : List Pattern) (Γ : Context) :
    (Pattern.inferAll ps Γ).Binds ps Γ := by
  induction ps generalizing Γ with
  | nil => exact ends_pure ⟨by simp, by simp [Pattern.namesAll]⟩
  | cons p ps ih =>
    refine (p.binds_infer Γ).bind (fun e h => h.imp (by simp) (by simp)) fun r₁ h₁ => ?_
    refine (ih r₁.2).bind (fun e h => h.imp (by simp) (by simp +contextual)) fun r₂ h₂ => ?_
    refine ends_pure ⟨?_, fun y => ?_⟩
    · simpa using And.intro (h₁.1 p (by simp)) h₂.1
    · rw [h₂.2, h₁.2]
      simp only [Pattern.namesAll, List.append_nil, List.mem_append]
      tauto

theorem Check.Binds.bind {α β : Type} {xs : List String} {ps qs : List Pattern} {Γ : Context}
    {x : Check (α × Context)} {f : α × Context → Check β} (hx : x.Binds ps Γ)
    (hf : ∀ r, (f r).Demands xs qs r.2) :
    (x >>= f).Demands (xs.filter (· ∉ Pattern.namesAll ps)) (ps ++ qs) Γ := by
  refine Ends.bind hx (fun e h => h.imp (by simp) (by simp +contextual)) fun r h => ?_
  refine Ends.imp ((hf r).under h.2) (fun b hb => ⟨hb.bound, fun p hp => ?_⟩)
    fun e h => h.imp (fun y hy hn => ⟨hy, hn⟩) (by simp +contextual)
  exact (List.mem_append.1 hp).elim (h.1 p) (hb.plain p)

section Constructs

variable {xs ys : List String} {ps qs : List Pattern} {Γ : Context}

theorem Check.demands_function {body : Context → Check (Subst × Ty)}
    (hb : ∀ Δ, (body Δ).Demands xs qs Δ) (ps : List Pattern) (Γ : Context) :
    (Check.function ps body Γ).Demands (xs.filter (· ∉ Pattern.namesAll ps)) (ps ++ qs) Γ :=
  (Pattern.binds_inferAll ps Γ).bind fun r => (hb r.2).bind_pure _

theorem Expr.demands_var (x : Ident) (Γ : Context) :
    ((Expr.var x).infer Γ).Demands [x.name] [] Γ := by
  rw [Expr.infer_var]
  cases hx : Γ.get? x.name with
  | none => exact ends_throw (.unbound (by simp) (NameMap.not_mem_iff.2 hx))
  | some σ =>
    have hΓ : x.name ∈ Γ := NameMap.mem_iff.2 ⟨σ, hx⟩
    have ht : (Check.instantiate σ).Demands [] [] Γ :=
      demands_of_ok fun ν => ⟨_, _, exec_instantiate σ ν⟩
    exact Ends.imp (ht.bind_pure _) (fun _ h => ⟨by simpa using hΓ, h.plain⟩)
      fun e h => h.imp (by simp) (by simp)

theorem Expr.demands_app {f a : Expr} (hf : (f.infer Γ).Demands xs ps Γ)
    (ha : ∀ Δ, (a.infer Δ).Demands ys qs Δ) :
    ((Expr.app f a).infer Γ).Demands (xs ++ ys) (ps ++ qs) Γ := by
  have hv : Check.fresh.Demands [] [] Γ := demands_of_ok fun ν => ⟨_, _, exec_fresh ν⟩
  rw [Expr.infer_app]
  refine hv.bind fun v => hf.bind fun r₁ => ?_
  refine Demands.bind_nothing ((ha _).of_mem_iff fun y => Context.mem_apply) fun r₂ => ?_
  exact (demands_unify _ _).bind_pure _

theorem Expr.demands_abs {b : Expr} (hb : ∀ Δ, (b.infer Δ).Demands xs qs Δ) (p : Pattern)
    (Γ : Context) :
    ((Expr.abs p b).infer Γ).Demands (xs.filter (· ∉ p.names)) (p :: qs) Γ := by
  have h := (p.binds_infer Γ).bind fun r => (hb r.2).bind_pure fun st =>
    (st.1, (Ty.fn r.1 st.2).apply st.1)
  rw [Expr.infer_abs]
  simpa only [Pattern.namesAll, List.append_nil, List.singleton_append] using h

theorem Bindings.demands_nil {b : Expr} (hb : (b.infer Γ).Demands xs qs Γ) (s : Subst) :
    (Bindings.nil.inferIn b s Γ).Demands xs qs Γ :=
  Ends.of_exec (hb.bind_pure _) fun ν => Bindings.exec_inferIn_nil b s Γ ν

theorem Bindings.demands_cons {e b : Expr} {rest : Bindings}
    (he : ∀ Δ, (e.infer Δ).Demands xs ps Δ) (hrest : ∀ s Δ, (rest.inferIn b s Δ).Demands ys qs Δ)
    (k : String) (x : Ident) (params : List Pattern) (s : Subst) (Γ : Context) :
    ((Bindings.cons k x params e rest).inferIn b s Γ).Demands
      (xs.filter (· ∉ Pattern.namesAll params) ++ ys.filter (· ≠ x.name))
      (params ++ ps ++ qs) Γ := by
  refine Ends.of_exec ?_ fun ν => Bindings.exec_inferIn_cons k x params e rest b s Γ ν
  refine (demands_function he params Γ).bind fun r => ?_
  have hΔ : ∀ y, y ∈ Γ.afterBinding r.1 x.name r.2 ↔ y ∈ [x.name] ∨ y ∈ Γ := by simp
  simpa only [List.mem_singleton] using (hrest (r.1.compose s) _).under hΔ

end Constructs

mutual
theorem Expr.demands_infer : (e : Expr) → (Γ : Context) →
    (e.infer Γ).Demands e.freeIdents e.params Γ
  | .lit l, Γ => by
    rw [Expr.infer_lit, Expr.freeIdents, Expr.params]
    exact demands_of_ok fun ν => ⟨_, ν, rfl⟩
  | .var x, Γ => by
    rw [Expr.freeIdents, Expr.params]
    exact Expr.demands_var x Γ
  | .app f a, Γ => by
    rw [Expr.freeIdents, Expr.params]
    exact Expr.demands_app (f.demands_infer Γ) a.demands_infer
  | .abs p b, Γ => by
    rw [Expr.freeIdents, Expr.params]
    exact Expr.demands_abs b.demands_infer p Γ
  | .group e, Γ => by
    rw [Expr.infer_group, Expr.freeIdents, Expr.params]
    exact e.demands_infer Γ
  | .letIn bs b, Γ => by
    rw [Expr.infer_letIn, Expr.freeIdents, Expr.params]
    exact bs.demands_inferIn b.demands_infer ∅ Γ

theorem Bindings.demands_inferIn : (bs : Bindings) → {b : Expr} → {xs : List String} →
    {qs : List Pattern} → (∀ Δ, (b.infer Δ).Demands xs qs Δ) → (s : Subst) → (Γ : Context) →
      (bs.inferIn b s Γ).Demands (bs.freeIdentsBefore xs) (bs.params ++ qs) Γ
  | .nil, b, xs, qs, hb, s, Γ => by
    rw [Bindings.freeIdentsBefore, Bindings.params, List.nil_append]
    exact Bindings.demands_nil (hb Γ) s
  | .cons k x ps e rest, b, xs, qs, hb, s, Γ => by
    rw [Bindings.freeIdentsBefore, Bindings.params, List.append_assoc _ rest.params]
    exact Bindings.demands_cons e.demands_infer (rest.demands_inferIn hb) k x ps s Γ
end

section Outcomes

variable {e : Expr} {Γ : Context}

theorem scoped_of_inferType {t : Ty} (h : inferType e Γ = .ok t) :
    Scoped e.freeIdents e.params Γ := by
  obtain ⟨s, ν', hrun⟩ := inferType_ok.1 h
  exact (e.demands_infer Γ).yields hrun

theorem scopeFault_of_inferType {err : TypeError} (h : inferType e Γ = .error err) :
    ScopeFault e.freeIdents e.params Γ err := by
  cases hrun : (e.infer Γ).exec Γ.supply with
  | mk r ν' =>
    have hr : inferWithSubst e Γ = r := congrArg Prod.fst hrun
    cases r with
    | ok st => simp [inferType, hr, Except.map] at h
    | error err' =>
      simp only [inferType, hr, Except.map, Except.error.injEq] at h
      exact h ▸ (e.demands_infer Γ).fails hrun

end Outcomes

/-- An unbound variable is a free identifier that the context does not bind, an unsupported
construct is the text of a parameter that is no variable, and where there is such an identifier or
such a parameter, however deep, checking fails. -/
theorem inferType_error_of_scope (e : Expr) (Γ : Context) :
    (∀ x, inferType e Γ = .error (.unbound x) → x ∈ e.freeIdents ∧ x ∉ Γ) ∧
      (∀ d, inferType e Γ = .error (.unsupported d) →
        ∃ p ∈ e.params, (∀ x, p ≠ .var x) ∧ d = p.kind ++ " pattern `" ++ p.text ++ "`") ∧
      ((∃ x ∈ e.freeIdents, x ∉ Γ) ∨ (∃ p ∈ e.params, ∀ x, p ≠ .var x) →
        ∃ err, inferType e Γ = .error err) := by
  refine ⟨fun x h => ?_, fun d h => ?_, fun h => ?_⟩
  · cases scopeFault_of_inferType h with
    | unbound hx hΓ => exact ⟨hx, hΓ⟩
  · cases scopeFault_of_inferType h with
    | unsupported hp hv => exact ⟨_, hp, hv, rfl⟩
  · cases hr : inferType e Γ with
    | error err => exact ⟨err, rfl⟩
    | ok t =>
      have hs := scoped_of_inferType hr
      rcases h with ⟨x, hx, hΓ⟩ | ⟨p, hp, hv⟩
      · exact absurd (hs.bound x hx) hΓ
      · obtain ⟨x, he⟩ := hs.plain p hp
        exact absurd he (hv x)

end LetPoly
