import LetPoly.Proofs.Alpha
import LetPoly.Proofs.Locality

/-!
A discipline of names under which substitution without renaming is safe. Where a scheme has both
free and quantified variables, its names are out of circulation: none of them is drawn any more, and
the quantified ones are not free anywhere in the context (`Context.Sheltered`). Every run keeps to
it, and so does every binding of a `let`.
-/

set_option autoImplicit false

namespace LetPoly

namespace Scheme

def IsOpen (σ : Scheme) : Prop := ∃ v, v ∈ σ.freeVars

/-- Stands in the body or is quantified, perhaps to no effect. -/
def Mentions (σ : Scheme) (v : String) : Prop := v ∈ σ.body.vars ∨ v ∈ σ.vars

variable {σ : Scheme} {s : Subst} {v : String}

theorem IsOpen.of_apply (h : (σ.apply s).IsOpen) : σ.IsOpen := by
  obtain ⟨v, hv⟩ := h
  obtain ⟨w, hw, -⟩ := mem_freeVars_apply hv
  exact ⟨w, hw⟩

theorem mentions_of_mem_freeVars (h : v ∈ σ.freeVars) : σ.Mentions v :=
  .inl (mem_freeVars.1 h).1

theorem Mentions.of_apply (h : (σ.apply s).Mentions v) :
    v ∈ σ.vars ∨ ∃ w ∈ σ.freeVars, v ∈ ((Ty.var w).apply s).vars := by
  by_cases hq : v ∈ σ.vars
  · exact .inl hq
  · have hv : v ∈ (σ.apply s).freeVars := mem_freeVars.2 ⟨h.resolve_right hq, hq⟩
    exact .inr (mem_freeVars_apply hv)

theorem NoCapture.mem_freeVars_apply_iff (h : σ.NoCapture s) :
    v ∈ (σ.apply s).freeVars ↔ ∃ w ∈ σ.freeVars, v ∈ ((Ty.var w).apply s).vars := by
  refine ⟨mem_freeVars_apply, fun ⟨w, hw, hv⟩ => ?_⟩
  have hw' := mem_freeVars.1 hw
  refine mem_freeVars.2 ⟨Ty.mem_vars_apply.2 ⟨w, hw'.1, ?_⟩, h w hw v hv⟩
  rwa [Subst.apply_var_without, if_neg hw'.2]

end Scheme

/-- The names of an open scheme are not among those still to come, and what it quantifies is not
free. -/
structure Context.Sheltered (Γ : Context) (Coming : String → Prop) : Prop where
  settled : ∀ x σ, Γ.get? x = some σ → σ.IsOpen → ∀ v, σ.Mentions v → ¬ Coming v
  apart : ∀ x σ, Γ.get? x = some σ → σ.IsOpen → ∀ q ∈ σ.vars, q ∉ Γ.freeVars

namespace Context.Sheltered

variable {Γ : Context} {ν ν' : NameSupply} {s : Subst} {t : Ty}

theorem avoids (h : Γ.Sheltered ν.Pending) : ν.Avoids Γ := by
  intro v hv
  obtain ⟨x, σ, hσ, hv⟩ := Context.mem_freeVars.1 hv
  exact h.settled x σ hσ ⟨v, hv⟩ v (Scheme.mentions_of_mem_freeVars hv)

theorem guarded (h : Γ.Sheltered ν.Pending) (ν' : NameSupply) :
    Γ.Guarded (Γ.InPlay ν ν') := by
  intro x σ hσ v hv q hq hp
  rcases hp with hp | hp
  · exact h.apart x σ hσ ⟨v, hv⟩ q hq hp
  · exact h.settled x σ hσ ⟨v, hv⟩ q (.inr hq) hp.1

theorem apply (h : Γ.Sheltered ν.Pending) (o : Outcome Γ ν s t ν') :
    (Γ.apply s).Sheltered ν'.Pending := by
  -- A name of the context after the run is quantified as before, or in play and drawn by now.
  constructor
  case settled =>
    intro x σ' hx hopen v hv
    rw [get?_apply] at hx
    obtain ⟨σ, hσ, rfl⟩ := Option.map_eq_some_iff.1 hx
    rcases hv.of_apply with hq | ⟨w, hw, hv⟩
    · exact fun hp => h.settled x σ hσ hopen.of_apply v (.inr hq) (o.reaches.pending hp)
    · exact o.not_pending_apply h.avoids (h.avoids w (mem_freeVars.2 ⟨x, σ, hσ, hw⟩)) hv
  case apart =>
    intro x σ' hx hopen q hq hfree
    rw [get?_apply] at hx
    obtain ⟨σ, hσ, rfl⟩ := Option.map_eq_some_iff.1 hx
    obtain ⟨v, hv⟩ := hopen.of_apply
    exact h.guarded ν' x σ hσ v hv q hq (o.mem_freeVars_apply hfree).1

theorem afterBinding (h : Γ.Sheltered ν.Pending) (o : Outcome Γ ν s t ν') (x : String) :
    (Γ.afterBinding s x t).Sheltered ν'.Pending := by
  have happ := h.apply o
  constructor
  case settled =>
    intro y σ hy hopen v hv
    rw [Context.afterBinding, NameMap.get?_insert] at hy
    split at hy
    · cases hy
      have ht : v ∈ t.vars := hv.elim id fun hq => (mem_vars_generalize.1 hq).1
      exact o.not_pending_type h.avoids ht
    · exact happ.settled y σ hy hopen v hv
  case apart =>
    intro y σ hy hopen q hq hfree
    have hfree := mem_freeVars_afterBinding hfree
    rw [Context.afterBinding, NameMap.get?_insert] at hy
    split at hy
    · cases hy
      exact (mem_vars_generalize.1 hq).2 hfree
    · exact happ.apart y σ hy hopen q hq hfree

end Context.Sheltered

/-- No scheme of the context catches a variable of `s`, so the free variables of its schemes become
those of their images. -/
structure Context.Uncaught (Γ : Context) (s : Subst) : Prop where
  noCapture : Γ.NoCapture s
  freeVars : ∀ x σ, Γ.get? x = some σ → ∀ v,
    v ∈ (σ.apply s).freeVars ↔ ∃ w ∈ σ.freeVars, v ∈ ((Ty.var w).apply s).vars

/-- What is found from `ν` on is not caught in the context, on the way or at the end, and leaves it
sheltered, up to a limit that the run does not pass. -/
structure Context.KeepsApart (limit : Nat) (Γ : Context) (ν : NameSupply) : Prop where
  expr : ∀ (e : Expr) s t ν', (e.infer Γ).exec ν = (.ok (s, t), ν') → ν'.issued ≤ limit →
    Γ.Uncaught s ∧ (Γ.apply s).Sheltered (ν'.PendingUpTo limit)
  binding : ∀ (b : Binding) s t ν', (b.infer Γ).exec ν = (.ok (s, t), ν') → ν'.issued ≤ limit →
    Γ.Uncaught s ∧ (Γ.apply s).Sheltered (ν'.PendingUpTo limit)
  onTheWay : ∀ e, ((e.infer Γ).exec ν).2.issued ≤ limit → CaptureFree e Γ ν

/-- The scope and the supply after the first `n` bindings of a `let`, whatever becomes of the
others. -/
inductive ScopeAfter : Bindings → Context → NameSupply → Nat → Context → NameSupply → Prop
  | start {bs : Bindings} {Γ : Context} {ν : NameSupply} : ScopeAfter bs Γ ν 0 Γ ν
  | next {k : String} {x : Ident} {ps : List Pattern} {e : Expr} {rest : Bindings}
    {Γ Δ : Context} {ν ν₁ ν' : NameSupply} {s : Subst} {t : Ty} {n : Nat} :
    (Binding.infer ⟨x, ps, e⟩ Γ).exec ν = (.ok (s, t), ν₁) →
    ScopeAfter rest (Γ.afterBinding s x.name t) ν₁ n Δ ν' →
    ScopeAfter (.cons k x ps e rest) Γ ν (n + 1) Δ ν'

theorem Bindings.scopeAfter_infer : (bs : Bindings) → {s s' : Subst} → {Γ Δ : Context} →
    {ν ν' : NameSupply} → (bs.infer s Γ).exec ν = (.ok (s', Δ), ν') →
      ScopeAfter bs Γ ν bs.size Δ ν'
  | .nil, s, s', Γ, Δ, ν, ν', h => by
    rw [Bindings.infer_nil] at h
    cases h
    exact .start
  | .cons k x ps e rest, s, s', Γ, Δ, ν, ν', h => by
    rw [Bindings.infer_cons, Check.exec_bind_ok] at h
    obtain ⟨⟨s₁, t⟩, ν₁, h₁, h⟩ := h
    exact .next h₁ (rest.scopeAfter_infer h)

theorem ScopeAfter.reaches {bs : Bindings} {Γ Δ : Context} {ν ν' : NameSupply} {n : Nat}
    (h : ScopeAfter bs Γ ν n Δ ν') : ν.Reaches ν' := by
  induction h with
  | start => exact .refl _
  | @next k x ps e rest Γ Δ ν ν₁ ν' s t n hb _ ih =>
    have hr := Binding.advances_infer ⟨x, ps, e⟩ Γ ν
    rw [hb] at hr
    exact hr.trans ih

theorem Check.Local.exec_ok {α : Type} {y : Check α} {limit : Nat} {ν ν₁ μ : NameSupply} {a : α}
    (hy : y.Local) (hadv : y.Advances) (hν : μ.SameUpTo limit ν)
    (hl : (y.exec μ).2.issued ≤ limit) (h : y.exec ν = (.ok a, ν₁)) :
    ∃ μ₁, y.exec μ = (.ok a, μ₁) ∧ μ₁.SameUpTo limit ν₁ := by
  obtain ⟨ν₂, hrun, hν₂⟩ := hy.exec_same hadv hν rfl hl
  rw [h] at hrun
  obtain ⟨ha, rfl⟩ := Prod.mk.inj hrun
  exact ⟨_, Prod.ext ha.symm rfl, hν₂⟩

theorem CaptureFree.sameUpTo {e : Expr} {Γ : Context} {μ : NameSupply} (h : CaptureFree e Γ μ) :
    ∀ {limit : Nat} {ν μ' : NameSupply}, μ.Avoids Γ → μ.SameUpTo limit ν →
      ((e.infer Γ).exec μ).2.Reaches μ' → μ'.issued ≤ limit → CaptureFree e Γ ν := by
  induction h with
  | lit => intro limit ν μ' _ _ _ _; exact .lit
  | var => intro limit ν μ' _ _ _ _; exact .var
  | other hp => intro limit ν μ' _ _ _ _; exact .other hp
  | group _ ih =>
    intro limit ν μ' hΓ hν hr hl
    rw [Expr.infer_group] at hr
    exact .group (ih hΓ hν hr hl)
  | @letNil b Γ μ _ ih =>
    intro limit ν μ' hΓ hν hr hl
    rw [Expr.exec_letNil b.tidy hΓ] at hr
    exact .letNil (ih hΓ hν hr hl)
  | @abs x b Γ μ _ ih =>
    intro limit ν μ' hΓ hν hr hl
    rw [Expr.exec_abs] at hr
    have hb := Check.reaches_of_bind hr fun _ => Check.advances_pure _
    have hfresh := hν.fresh (Nat.le_trans ((b.advances_infer _ _).trans hb).issued hl)
    refine .abs ?_
    rw [hfresh]
    exact ih (hΓ.insert_fresh x.name) (hν.later μ.reaches_fresh) hb hl
  | @app f a Γ μ _ hn _ ihf iha =>
    intro limit ν μ' hΓ hν hr hl
    rw [Expr.exec_app] at hr
    have hf := Check.reaches_of_bind hr fun x => (a.advances_infer _).bind fun y =>
      (Check.advances_unify _ _).bind fun _ => Check.advances_pure _
    have hfresh := hν.fresh (Nat.le_trans ((f.advances_infer _ _).trans hf).issued hl)
    have hν₀ : (NameSupply.fresh μ).2.SameUpTo limit (NameSupply.fresh ν).2 := by
      rw [hfresh]
      exact hν.later μ.reaches_fresh
    have hrun : ∀ s t ν₁, (f.infer Γ).exec (NameSupply.fresh ν).2 = (.ok (s, t), ν₁) →
        ∃ μ₁, (f.infer Γ).exec (NameSupply.fresh μ).2 = (.ok (s, t), μ₁) ∧
          μ₁.SameUpTo limit ν₁ :=
      fun s t ν₁ => (f.local_infer Γ).exec_ok (f.advances_infer Γ) hν₀ (Nat.le_trans hf.issued hl)
    refine .app (ihf hΓ.fresh hν₀ hf hl) (fun s t ν₁ h => ?_) (fun s t ν₁ h => ?_)
    · obtain ⟨μ₁, hμ₁, -⟩ := hrun s t ν₁ h
      exact hn s t μ₁ hμ₁
    · obtain ⟨μ₁, hμ₁, hν₁⟩ := hrun s t ν₁ h
      have ha := Check.reaches_of_bind_ok hr hμ₁
      dsimp only at ha
      have ha := Check.reaches_of_bind ha fun y =>
        (Check.advances_unify _ _).bind fun _ => Check.advances_pure _
      have of := f.tidy hΓ.fresh hμ₁
      exact iha s t μ₁ hμ₁ (of.avoids hΓ.fresh) hν₁ ha hl
  | @letCons k x ps e b rest Γ μ _ hn _ ihe ihb =>
    intro limit ν μ' hΓ hν hr hl
    rw [Expr.exec_letCons e.tidy (rest.tidy b b.tidy).2 k x ps hΓ] at hr
    have he := Check.reaches_of_bind hr fun y =>
      ((Expr.letIn rest b).advances_infer _).bind fun _ => Check.advances_pure _
    have hrun : ∀ s t ν₁, ((Expr.lambdas ps e).infer Γ).exec ν = (.ok (s, t), ν₁) →
        ∃ μ₁, ((Expr.lambdas ps e).infer Γ).exec μ = (.ok (s, t), μ₁) ∧ μ₁.SameUpTo limit ν₁ :=
      fun s t ν₁ => (Expr.local_infer _ Γ).exec_ok (Expr.advances_infer _ Γ) hν
        (Nat.le_trans he.issued hl)
    refine .letCons (ihe hΓ hν he hl) (fun s t ν₁ h => ?_) (fun s t ν₁ h => ?_)
    · obtain ⟨μ₁, hμ₁, -⟩ := hrun s t ν₁ h
      exact hn s t μ₁ hμ₁
    · obtain ⟨μ₁, hμ₁, hν₁⟩ := hrun s t ν₁ h
      have hb := Check.reaches_of_bind_ok hr hμ₁
      dsimp only at hb
      have hb := Check.reaches_of_bind hb fun _ => Check.advances_pure _
      have o := (Expr.lambdas ps e).tidy hΓ hμ₁
      exact ihb s t μ₁ hμ₁ (Context.avoids_afterBinding hΓ o x.name) hν₁ hb hl

namespace Context.Sheltered

variable {Γ Δ : Context} {limit : Nat} {ν ν' μ : NameSupply} {s : Subst} {t : Ty}

theorem uncaught (h : Γ.Sheltered ν.Pending) (o : Outcome Γ ν s t ν') : Γ.Uncaught s := by
  have hn : Γ.NoCapture s := (h.guarded ν').noCapture o.subst
  exact ⟨hn, fun x σ hσ v => (hn x σ hσ).mem_freeVars_apply_iff⟩

/-- The names that shelter a context up to the limit can be reserved for good. -/
theorem exists_sheltered (h : Γ.Sheltered (ν.PendingUpTo limit)) :
    ∃ μ, ν.SameUpTo limit μ ∧ Γ.Sheltered μ.Pending := by
  obtain ⟨μ, hμ, hp⟩ := NameSupply.exists_sameUpTo limit ν
    (Γ.entries.flatMap fun e => e.2.body.vars ++ e.2.vars.keys)
  refine ⟨μ, hμ, ⟨fun x σ hσ hopen v hv => hp v ?_ (h.settled x σ hσ hopen v hv), h.apart⟩⟩
  refine List.mem_flatMap.2 ⟨(x, σ), NameMap.mem_entries.2 hσ, List.mem_append.2 ?_⟩
  exact hv.imp_right NameMap.mem_keys.2

theorem upTo (h : Γ.Sheltered μ.Pending) (hμ : ν.SameUpTo limit μ) :
    Γ.Sheltered (ν.PendingUpTo limit) :=
  ⟨fun x σ hσ hopen v hv hp => h.settled x σ hσ hopen v hv ((hμ.pending v).2 hp).pending, h.apart⟩

theorem keepsApart (h : Γ.Sheltered (ν.PendingUpTo limit)) : Γ.KeepsApart limit ν := by
  obtain ⟨μ, hμ, hΓ⟩ := h.exists_sheltered
  constructor
  case expr =>
    intro e s t ν' hr hl
    obtain ⟨μ', hrun, hμ'⟩ := (e.local_infer Γ).exec_same (e.advances_infer Γ) hμ hr hl
    have o := e.tidy hΓ.avoids hrun
    exact ⟨hΓ.uncaught o, (hΓ.apply o).upTo hμ'⟩
  case binding =>
    intro b s t ν' hr hl
    obtain ⟨μ', hrun, hμ'⟩ := (b.local_infer Γ).exec_same (b.advances_infer Γ) hμ hr hl
    have o := b.outcome hΓ.avoids hrun
    exact ⟨hΓ.uncaught o, (hΓ.apply o).upTo hμ'⟩
  case onTheWay =>
    intro e hl
    have hfree := e.captureFree_of_guarded hΓ.avoids (.refl _) (hΓ.guarded _)
    have hrun := e.local_infer Γ hμ hl
    exact hfree.sameUpTo hΓ.avoids hμ.symm (.refl _) (by rwa [hrun])

theorem scopeAfter {bs : Bindings} {n : Nat} (hr : ScopeAfter bs Γ ν n Δ ν')
    (h : Γ.Sheltered (ν.PendingUpTo limit)) (hl : ν'.issued ≤ limit) :
    Δ.Sheltered (ν'.PendingUpTo limit) := by
  induction hr with
  | start => exact h
  | @next k x ps e rest Γ Δ ν ν₁ ν' s t n hb hrest ih =>
    obtain ⟨μ, hμ, hΓ⟩ := h.exists_sheltered
    have hl₁ : ν₁.issued ≤ limit := Nat.le_trans hrest.reaches.issued hl
    obtain ⟨μ₁, hrun, hμ₁⟩ :=
      (Binding.local_infer _ Γ).exec_same (Binding.advances_infer _ Γ) hμ hb hl₁
    have o := Binding.outcome _ hΓ.avoids hrun
    exact ih ((hΓ.afterBinding o x.name).upTo hμ₁) hl

end Context.Sheltered

/-- From a sheltered context every run keeps its schemes apart from what it finds, and every scope
that a `let` goes through is sheltered and does so in its turn, the last one included. -/
theorem keepsApart_of_sheltered {Γ : Context} {ν : NameSupply} {limit : Nat}
    (h : Γ.Sheltered (ν.PendingUpTo limit)) :
    Γ.KeepsApart limit ν ∧
    (∀ bs n Δ ν', ScopeAfter bs Γ ν n Δ ν' → ν'.issued ≤ limit →
      Δ.Sheltered (ν'.PendingUpTo limit) ∧ Δ.KeepsApart limit ν') ∧
    ∀ (bs : Bindings) s s' Δ ν', (bs.infer s Γ).exec ν = (.ok (s', Δ), ν') → ν'.issued ≤ limit →
      Δ.Sheltered (ν'.PendingUpTo limit) ∧ Δ.KeepsApart limit ν' := by
  refine ⟨h.keepsApart, fun bs n Δ ν' hr hl => ?_, fun bs s s' Δ ν' hr hl => ?_⟩
  · have hΔ := h.scopeAfter hr hl
    exact ⟨hΔ, hΔ.keepsApart⟩
  · have hΔ := h.scopeAfter (bs.scopeAfter_infer hr) hl
    exact ⟨hΔ, hΔ.keepsApart⟩

theorem mixedContext_sheltered (limit : Nat) :
    (mixedContext "q").Sheltered
      (NameSupply.PendingUpTo limit (.avoiding (.ofNames ["q", "z"]))) := by
  have hσ : ∀ x σ, (mixedContext "q").get? x = some σ →
      σ = .poly ["q"] (.fn (.var "q") (.var "z")) := by
    intro x σ h
    rw [mixedContext, NameMap.get?_singleton] at h
    split at h
    · exact (Option.some.inj h).symm
    · cases h
  constructor
  case settled =>
    intro x σ hx _ v hv hp
    rw [hσ x σ hx] at hv
    refine hp.1 ?_
    simpa [Scheme.Mentions, Scheme.poly, Ty.vars, NameSupply.avoiding, or_comm] using hv
  case apart =>
    intro x σ hx _ q hq
    rw [hσ x σ hx] at hq
    have hq : q = "q" := by simpa [Scheme.poly] using hq
    subst hq
    decide

/-- The free `'z` is tied to a drawn name, which `f` does not quantify. -/
theorem useTwice_keepsApart :
    (mixedContext "q").Sheltered
      (NameSupply.PendingUpTo 18446744073709551615 (.avoiding (.ofNames ["q", "z"]))) ∧
    (useTwice.infer (mixedContext "q")).exec (.avoiding (.ofNames ["q", "z"])) =
      (.ok (.ofList [("b", .int), ("z", .var "a")], .fn (.var "c") (.var "a")),
        ⟨3, .ofNames ["q", "z"]⟩) ∧
    (mixedContext "q").Uncaught (.ofList [("b", .int), ("z", .var "a")]) := by
  have hr : (useTwice.infer (mixedContext "q")).exec (.avoiding (.ofNames ["q", "z"])) =
      (.ok (.ofList [("b", .int), ("z", .var "a")], .fn (.var "c") (.var "a")),
        ⟨3, .ofNames ["q", "z"]⟩) := by cbv
  have h := (keepsApart_of_sheltered (mixedContext_sheltered 18446744073709551615)).1
  exact ⟨mixedContext_sheltered _, hr, (h.expr _ _ _ _ hr (by decide)).1⟩

end LetPoly
