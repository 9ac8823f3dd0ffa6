import LetPoly.Proofs.Run

/-!
The parameters of a binding are curried lambdas, and a `let` of several bindings is a nest of single
ones. Both hold of the substitution as well as of the type, because every run is tidy
(`Expr.tidy`). Later proofs go by induction over nested lets (`Expr.induction_nested`).
-/

set_option autoImplicit false

namespace LetPoly

open Check

theorem Expr.lambdas_induction {P : Expr → Prop} {e : Expr} (he : P e)
    (abs : ∀ x b, P b → P (.abs (.var x) b))
    (other : ∀ p b, (∀ x, p ≠ .var x) → P (.abs p b)) (ps : List Pattern) :
    P (Expr.lambdas ps e) := by
  induction ps with
  | nil => exact he
  | cons p ps ih =>
    rcases p.var_or_other with ⟨x, rfl⟩ | hp
    · exact abs x _ ih
    · exact other p _ hp

theorem Expr.tidy_lambdas {e : Expr} (h : e.Tidy) (ps : List Pattern) :
    (Expr.lambdas ps e).Tidy :=
  Expr.lambdas_induction h (fun _ _ => Expr.tidy_abs) (fun _ b hp => Expr.tidy_abs_other hp b) ps

theorem Check.exec_function_cons (p : Pattern) (ps : List Pattern)
    (body : Context → Check (Subst × Ty)) (Γ : Context) (ν : NameSupply) :
    (Check.function (p :: ps) body Γ).exec ν =
      (do
        let (tp, scope) ← p.infer Γ
        let (s, t) ← Check.function ps body scope
        return (s, Ty.fn (tp.apply s) t) : Check (Subst × Ty)).exec ν := by
  simp only [Check.function_eq, Pattern.inferAll, exec_bind, exec_pure]
  cases p.infer Γ |>.exec ν with
  | mk r ν₁ =>
    cases r with
    | error e => rfl
    | ok x =>
      simp only
      cases Pattern.inferAll ps x.2 |>.exec ν₁ with
      | mk r ν₂ =>
        cases r with
        | error e => rfl
        | ok y =>
          simp only
          cases body y.2 |>.exec ν₂ with
          | mk r ν₃ => cases r <;> rfl

/-- The parameters of a binding are lambdas around its body. -/
theorem Expr.exec_function {e : Expr} (he : e.Tidy) (ps : List Pattern) {Γ : Context}
    {ν : NameSupply} (hΓ : ν.Avoids Γ) :
    (Check.function ps (fun scope => e.infer scope) Γ).exec ν =
      ((Expr.lambdas ps e).infer Γ).exec ν := by
  induction ps generalizing Γ ν with
  | nil =>
    simp only [Check.function_eq, Pattern.inferAll, exec_bind, exec_pure, Ty.fns, List.foldr]
    show _ = (e.infer Γ).exec ν
    cases hr : (e.infer Γ).exec ν with
    | mk r ν' =>
      cases r with
      | error err => rfl
      | ok x =>
        have o := he hΓ hr
        simp only [o.apply_type]
  | cons p ps ih =>
    rw [exec_function_cons]
    show _ = ((Expr.abs p (Expr.lambdas ps e)).infer Γ).exec ν
    rw [Expr.infer_abs]
    rcases p.var_or_other with ⟨x, rfl⟩ | hp
    · refine exec_bind_congr rfl fun y ν₁ hy => ?_
      rw [Pattern.exec_infer_var] at hy
      cases hy
      have hΔ := hΓ.insert_fresh x.name
      refine exec_bind_congr (ih hΔ) fun z ν₂ hz => ?_
      rw [ih hΔ] at hz
      have o := Expr.tidy_lambdas he ps hΔ hz
      simp only [exec_pure, Ty.apply_fn, o.apply_type]
    · rw [exec_bind, exec_bind, Pattern.exec_infer_other hp]

def Bindings.inferIn (bs : Bindings) (b : Expr) (s : Subst) (Γ : Context) : Check (Subst × Ty) := do
  let (s₁, scope) ← bs.infer s Γ
  let (s₂, t) ← b.infer scope
  return (s₂.compose s₁, t)

theorem Expr.infer_letIn (bs : Bindings) (b : Expr) (Γ : Context) :
    (Expr.letIn bs b).infer Γ = bs.inferIn b ∅ Γ := by
  rw [Expr.infer_let]
  rfl

theorem Bindings.exec_inferIn_nil (b : Expr) (s : Subst) (Γ : Context) (ν : NameSupply) :
    (Bindings.nil.inferIn b s Γ).exec ν =
      (do
        let (s₂, t) ← b.infer Γ
        return (s₂.compose s, t) : Check (Subst × Ty)).exec ν := by
  rw [Bindings.inferIn, Bindings.infer_nil]
  simp only [exec_bind, exec_pure]

theorem Bindings.exec_inferIn_cons (k : String) (x : Ident) (ps : List Pattern) (e : Expr)
    (rest : Bindings) (b : Expr) (s : Subst) (Γ : Context) (ν : NameSupply) :
    ((Bindings.cons k x ps e rest).inferIn b s Γ).exec ν =
      (do
        let (s₁, t) ← Check.function ps (fun scope => e.infer scope) Γ
        rest.inferIn b (s₁.compose s) (Γ.afterBinding s₁ x.name t) :
          Check (Subst × Ty)).exec ν := by
  rw [Bindings.inferIn, Bindings.infer_cons]
  simp only [Bindings.inferIn, exec_bind, exec_pure]
  cases Check.function ps (fun scope => e.infer scope) Γ |>.exec ν with
  | mk r ν₁ => cases r <;> rfl

/-- What was found before a `let` only joins what the `let` finds by itself. -/
def Bindings.Passes (bs : Bindings) (b : Expr) : Prop :=
  ∀ ⦃s Γ ν⦄, ν.Avoids Γ → (bs.inferIn b s Γ).exec ν =
    (do
      let (s₂, t) ← (Expr.letIn bs b).infer Γ
      return (s₂.compose s, t) : Check (Subst × Ty)).exec ν

theorem Context.avoids_afterBinding {Γ : Context} {ν ν₁ : NameSupply} {s : Subst} {t : Ty}
    (hΓ : ν.Avoids Γ) (o : Outcome Γ ν s t ν₁) (x : String) :
    ν₁.Avoids (Γ.afterBinding s x t) :=
  fun v hv => o.avoids hΓ v (Context.mem_freeVars_afterBinding hv)

section Lets

variable {e b : Expr} {rest : Bindings} {Γ : Context} {ν : NameSupply}

theorem Expr.exec_letNil (hb : b.Tidy) (hΓ : ν.Avoids Γ) :
    ((Expr.letIn .nil b).infer Γ).exec ν = (b.infer Γ).exec ν := by
  rw [Expr.infer_letIn, Bindings.exec_inferIn_nil, exec_bind]
  cases hr : (b.infer Γ).exec ν with
  | mk r ν' =>
    cases r with
    | error err => rfl
    | ok x =>
      have o := hb hΓ hr
      simp only [exec_pure, o.subst.compose_empty]

theorem Bindings.passes_nil (hb : b.Tidy) : Bindings.nil.Passes b := by
  intro s Γ ν hΓ
  rw [Bindings.exec_inferIn_nil]
  exact exec_bind_congr (Expr.exec_letNil hb hΓ).symm fun _ _ _ => rfl

theorem Bindings.exec_inferIn_nested (he : e.Tidy) (hp : rest.Passes b) (k : String) (x : Ident)
    (ps : List Pattern) (s : Subst) (hΓ : ν.Avoids Γ) :
    ((Bindings.cons k x ps e rest).inferIn b s Γ).exec ν =
      (do
        let (s₁, t₁) ← (Expr.lambdas ps e).infer Γ
        let (s₂, t) ← (Expr.letIn rest b).infer (Γ.afterBinding s₁ x.name t₁)
        return (s₂.compose (s₁.compose s), t) : Check (Subst × Ty)).exec ν := by
  have hf := Expr.exec_function he ps hΓ
  rw [Bindings.exec_inferIn_cons]
  refine exec_bind_congr hf fun y ν₁ hy => ?_
  rw [hf] at hy
  have o := Expr.tidy_lambdas he ps hΓ hy
  exact hp (Context.avoids_afterBinding hΓ o x.name)

/-- A `let` is its first binding around the `let` of the others. -/
theorem Expr.exec_letCons (he : e.Tidy) (hp : rest.Passes b) (k : String) (x : Ident)
    (ps : List Pattern) (hΓ : ν.Avoids Γ) :
    ((Expr.letIn (.cons k x ps e rest) b).infer Γ).exec ν =
      (do
        let (s₁, t₁) ← (Expr.lambdas ps e).infer Γ
        let (s₂, t) ← (Expr.letIn rest b).infer (Γ.afterBinding s₁ x.name t₁)
        return (s₂.compose s₁, t) : Check (Subst × Ty)).exec ν := by
  rw [Expr.infer_letIn, Bindings.exec_inferIn_nested he hp k x ps ∅ hΓ]
  refine exec_bind_congr rfl fun y ν₁ hy => ?_
  have o := Expr.tidy_lambdas he ps hΓ hy
  simp only [o.subst.compose_empty]

theorem Expr.tidy_letCons (he : e.Tidy) (hl : (Expr.letIn rest b).Tidy) (hp : rest.Passes b)
    (k : String) (x : Ident) (ps : List Pattern) :
    (Expr.letIn (.cons k x ps e rest) b).Tidy := by
  intro Γ ν s t ν' hΓ h
  rw [Expr.exec_letCons he hp k x ps hΓ] at h
  simp only [exec_bind_ok, exec_pure] at h
  obtain ⟨⟨s₁, t₁⟩, ν₁, h₁, ⟨s₂, t₂⟩, ν₂, h₂, h⟩ := h
  cases h
  have o₁ := Expr.tidy_lambdas he ps hΓ h₁
  have o₂ := hl (Context.avoids_afterBinding hΓ o₁ x.name) h₂
  exact o₁.andThen hΓ (fun v hv => Context.mem_freeVars_afterBinding hv) o₂

theorem Bindings.passes_cons (he : e.Tidy) (hl : (Expr.letIn rest b).Tidy) (hp : rest.Passes b)
    (k : String) (x : Ident) (ps : List Pattern) :
    (Bindings.cons k x ps e rest).Passes b := by
  intro s Γ ν hΓ
  rw [Bindings.exec_inferIn_nested he hp k x ps s hΓ, exec_bind (Expr.infer _ Γ),
    exec_bind (Expr.infer _ Γ), Expr.exec_letCons he hp k x ps hΓ, exec_bind]
  cases h₁ : ((Expr.lambdas ps e).infer Γ).exec ν with
  | mk r ν₁ =>
    cases r with
    | error err => rfl
    | ok y =>
      obtain ⟨s₁, t₁⟩ := y
      have o₁ := Expr.tidy_lambdas he ps hΓ h₁
      simp only [exec_bind]
      cases h₂ : ((Expr.letIn rest b).infer (Γ.afterBinding s₁ x.name t₁)).exec ν₁ with
      | mk r ν₂ =>
        cases r with
        | error err => rfl
        | ok z =>
          obtain ⟨s₂, t⟩ := z
          have o₂ := hl (Context.avoids_afterBinding hΓ o₁ x.name) h₂
          have o := o₁.andThen hΓ (fun v hv => Context.mem_freeVars_afterBinding hv) o₂
          simp only [exec_pure, o₂.subst.compose_assoc o₁.subst o.subst]

end Lets

mutual
theorem Expr.tidy : (e : Expr) → e.Tidy
  | .lit l => Expr.tidy_lit l
  | .var x => Expr.tidy_var x
  | .app f a => Expr.tidy_app f.tidy a.tidy
  | .group e => Expr.tidy_group e.tidy
  | .letIn bs b => (bs.tidy b b.tidy).1
  | .abs p b => by
    have hb := b.tidy
    rcases p.var_or_other with ⟨x, rfl⟩ | hp
    · exact Expr.tidy_abs hb
    · exact Expr.tidy_abs_other hp b

theorem Bindings.tidy : (bs : Bindings) → (b : Expr) → b.Tidy →
    (Expr.letIn bs b).Tidy ∧ bs.Passes b
  | .nil, b, hb => by
    refine ⟨?_, Bindings.passes_nil hb⟩
    intro Γ ν s t ν' hΓ h
    rw [Expr.exec_letNil hb hΓ] at h
    exact hb hΓ h
  | .cons k x ps e rest, b, hb => by
    have he := e.tidy
    obtain ⟨hl, hp⟩ := rest.tidy b hb
    exact ⟨Expr.tidy_letCons he hl hp k x ps, Bindings.passes_cons he hl hp k x ps⟩
end

section Runs

variable {Γ : Context} {ν ν' : NameSupply} {s : Subst} {t : Ty}

theorem Binding.outcome (b : Binding) (hΓ : ν.Avoids Γ)
    (h : (b.infer Γ).exec ν = (.ok (s, t), ν')) : Outcome Γ ν s t ν' := by
  rw [Binding.infer_eq, Expr.exec_function b.body.tidy b.params hΓ] at h
  exact Expr.tidy_lambdas b.body.tidy b.params hΓ h

theorem Expr.infer_letNil_ok {b : Expr} (hΓ : ν.Avoids Γ) :
    ((Expr.letIn .nil b).infer Γ).exec ν = (.ok (s, t), ν') ↔
      (b.infer Γ).exec ν = (.ok (s, t), ν') := by
  rw [Expr.exec_letNil b.tidy hΓ]

theorem Expr.infer_letCons_ok {k : String} {x : Ident} {ps : List Pattern} {e b : Expr}
    {rest : Bindings} (hΓ : ν.Avoids Γ) :
    ((Expr.letIn (.cons k x ps e rest) b).infer Γ).exec ν = (.ok (s, t), ν') ↔
      ∃ s₁ t₁ ν₁ s₂, ((Expr.lambdas ps e).infer Γ).exec ν = (.ok (s₁, t₁), ν₁) ∧
        ((Expr.letIn rest b).infer (Γ.afterBinding s₁ x.name t₁)).exec ν₁ = (.ok (s₂, t), ν') ∧
        s = s₂.compose s₁ := by
  rw [Expr.exec_letCons e.tidy (rest.tidy b b.tidy).2 k x ps hΓ]
  simp only [exec_bind_ok, exec_pure]
  constructor
  · intro ⟨⟨s₁, t₁⟩, ν₁, h₁, ⟨s₂, t₂⟩, ν₂, h₂, h⟩
    cases h
    exact ⟨s₁, t₁, ν₁, s₂, h₁, h₂, rfl⟩
  · intro ⟨s₁, t₁, ν₁, s₂, h₁, h₂, hs⟩
    exact ⟨(s₁, t₁), ν₁, h₁, (s₂, t), ν', h₂, by rw [hs]⟩

end Runs

/-- Each binding in a `let` of its own, around those after it. -/
def Expr.nestLets : Bindings → Expr → Expr
  | .nil, b => b
  | .cons k x ps e rest, b => .letIn (.cons k x ps e .nil) (nestLets rest b)

theorem Expr.exec_nestLets : (bs : Bindings) → (b : Expr) → {Γ : Context} →
    {ν : NameSupply} → ν.Avoids Γ →
      ((Expr.letIn bs b).infer Γ).exec ν = ((Expr.nestLets bs b).infer Γ).exec ν
  | .nil, b, Γ, ν, hΓ => Expr.exec_letNil b.tidy hΓ
  | .cons k x ps e rest, b, Γ, ν, hΓ => by
    have hnest := (Expr.nestLets rest b).tidy
    show _ = ((Expr.letIn (.cons k x ps e .nil) (Expr.nestLets rest b)).infer Γ).exec ν
    rw [Expr.exec_letCons e.tidy (rest.tidy b b.tidy).2 k x ps hΓ,
      Expr.exec_letCons e.tidy (Bindings.passes_nil hnest) k x ps hΓ]
    refine exec_bind_congr rfl fun y ν₁ hy => ?_
    have o := (Expr.lambdas ps e).tidy hΓ hy
    have hΔ := Context.avoids_afterBinding hΓ o x.name
    refine exec_bind_congr ?_ fun _ _ _ => rfl
    rw [Expr.exec_letNil hnest hΔ]
    exact Expr.exec_nestLets rest b hΔ

/-- Expressions with their bindings taken as curried lambdas, one at a time. -/
theorem Expr.induction_nested {P : Expr → Prop} (lit : ∀ l, P (.lit l)) (var : ∀ x, P (.var x))
    (app : ∀ f a, P f → P a → P (.app f a))
    (abs : ∀ x b, P b → P (.abs (.var x) b))
    (other : ∀ p b, (∀ x, p ≠ .var x) → P (.abs p b))
    (group : ∀ e, P e → P (.group e))
    (letNil : ∀ b, P b → P (.letIn .nil b))
    (letCons : ∀ k x ps e rest b, P (Expr.lambdas ps e) → P (.letIn rest b) →
      P (.letIn (.cons k x ps e rest) b)) (e : Expr) : P e := by
  refine @Expr.rec P (fun bs => ∀ b, P b → P (.letIn bs b)) lit var app ?_ group
    (fun bs b hbs hb => hbs b hb) letNil ?_ e
  · intro p b hb
    rcases p.var_or_other with ⟨x, rfl⟩ | hp
    · exact abs x b hb
    · exact other p b hp
  · intro k x ps e rest he hrest b hb
    exact letCons k x ps e rest b (Expr.lambdas_induction he abs other ps) (hrest b hb)

end LetPoly
