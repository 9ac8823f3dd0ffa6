import LetPoly.Proofs.Soundness

/-!
What the checker finds is most general: every type of `e` in an instance of `Γ` is an instance of
the type that is found, along with the instance of `Γ`. A context that is met during a run stands
for all contexts whose instances it covers (`Context.Covers`).
-/

set_option autoImplicit false

namespace LetPoly

/-- Up to `θ`, every instance of `σ'` is one of `σ`, and nothing that `θ` puts for a free variable
is quantified in `σ'`. -/
structure Scheme.Covers (σ : Scheme) (θ : String → Ty) (σ' : Scheme) : Prop where
  instances : ∀ t, σ'.Instance t → ∃ ρ, t = σ.specialize θ ρ
  freeVars : ∀ v ∈ σ.freeVars, ∀ w ∈ (θ v).vars, w ∈ σ'.freeVars

def Context.Covers (Γ : Context) (θ : String → Ty) (Δ : Context) : Prop :=
  Pointwise (fun σ σ' => σ.Covers θ σ') Γ Δ

namespace Scheme

variable {σ σ' : Scheme} {θ θ' r : String → Ty} {s : Subst}

theorem Covers.congr (h : σ.Covers θ σ') (he : ∀ v ∈ σ.freeVars, θ v = θ' v) :
    σ.Covers θ' σ' := by
  refine ⟨fun t ht => ?_, fun v hv => he v hv ▸ h.freeVars v hv⟩
  obtain ⟨ρ, hρ⟩ := h.instances t ht
  exact ⟨ρ, hρ.trans (specialize_congr he)⟩

/-- A substitution that `θ` factors through can be carried out first. -/
theorem Covers.apply (h : σ.Covers θ σ') (hs : σ.NoCapture s)
    (he : ∀ v ∈ σ.freeVars, θ v = ((Ty.var v).apply s).bind r) : (σ.apply s).Covers r σ' := by
  refine ⟨fun t ht => ?_, fun v hv w hw => ?_⟩
  · obtain ⟨ρ, hρ⟩ := h.instances t ht
    refine ⟨ρ, ?_⟩
    rw [specialize_apply hs, hρ, specialize_congr he]
  · obtain ⟨u, hu, hv⟩ := mem_freeVars_apply hv
    have hwu : w ∈ (θ u).vars := by
      rw [he u hu, Ty.mem_vars_bind]
      exact ⟨v, hv, hw⟩
    exact h.freeVars u hu w hwu

theorem instance_mono_iff {a t : Ty} : (mono a).Instance t ↔ t = a := by
  simp [instance_iff]

theorem covers_mono (a : Ty) (θ : String → Ty) : (mono a).Covers θ (mono (a.bind θ)) := by
  refine ⟨fun t ht => ⟨θ, ?_⟩, fun v hv w hw => ?_⟩
  · rw [instance_mono_iff.1 ht, specialize_mono]
  · rw [mem_freeVars_mono] at hv ⊢
    exact Ty.mem_vars_bind.2 ⟨v, hv, hw⟩

theorem covers_apply (h : σ.NoCapture s) : σ.Covers (fun v => (Ty.var v).apply s) (σ.apply s) := by
  refine ⟨fun t ht => ?_, fun v hv w hw => ?_⟩
  · obtain ⟨ρ, rfl⟩ := instance_iff.1 ht
    refine ⟨ρ, ?_⟩
    rw [specialize_apply h]
    simp only [Ty.bind_id]
  · have hb := mem_freeVars.1 hv
    refine mem_freeVars.2 ⟨Ty.mem_vars_apply.2 ⟨v, hb.1, ?_⟩, h v hv w hw⟩
    rwa [Subst.apply_var_without, if_neg hb.2]

end Scheme

namespace Context

variable {Γ Δ : Context} {θ θ' r : String → Ty} {s : Subst}

theorem Covers.mem_freeVars (h : Γ.Covers θ Δ) {v w : String} (hv : v ∈ Γ.freeVars)
    (hw : w ∈ (θ v).vars) : w ∈ Δ.freeVars := by
  obtain ⟨x, σ, hσ, hv⟩ := Context.mem_freeVars.1 hv
  obtain ⟨σ', hσ', hc⟩ := h.of_left hσ
  exact Context.mem_freeVars.2 ⟨x, σ', hσ', hc.freeVars v hv w hw⟩

theorem Covers.congr (h : Γ.Covers θ Δ) (he : ∀ v ∈ Γ.freeVars, θ v = θ' v) : Γ.Covers θ' Δ := by
  refine h.map (f := id) (g := id) (by simp) (by simp) fun x σ σ' hσ _ hc => ?_
  exact hc.congr fun v hv => he v (Context.mem_freeVars.2 ⟨x, σ, hσ, hv⟩)

theorem Covers.apply (h : Γ.Covers θ Δ) (hs : Γ.NoCapture s)
    (he : ∀ v ∈ Γ.freeVars, θ v = ((Ty.var v).apply s).bind r) : (Γ.apply s).Covers r Δ := by
  refine h.map (g := id) (get?_apply s Γ) (by simp) fun x σ σ' hσ _ hc => ?_
  exact hc.apply (hs x σ hσ) fun v hv => he v (Context.mem_freeVars.2 ⟨x, σ, hσ, hv⟩)

theorem NoCapture.covers (h : Γ.NoCapture s) :
    Γ.Covers (fun v => (Ty.var v).apply s) (Γ.apply s) := by
  intro x
  rw [get?_apply]
  cases hσ : Γ.get? x with
  | none => exact .inl ⟨rfl, rfl⟩
  | some σ => exact .inr ⟨σ, σ.apply s, rfl, rfl, Scheme.covers_apply (h x σ hσ)⟩

end Context

theorem exists_extension_fresh (ν : NameSupply) (θ : String → Ty) (a : Ty) :
    ∃ r : String → Ty, r (NameSupply.fresh ν).1 = a ∧ ∀ v, ¬ ν.Pending v → θ v = r v := by
  refine ⟨fun v => if v = (NameSupply.fresh ν).1 then a else θ v, if_pos rfl, fun v hv => ?_⟩
  have hne : v ≠ (NameSupply.fresh ν).1 := fun he => hv (he ▸ ν.pending_fresh)
  exact (if_neg hne).symm

theorem Scheme.exists_bind_instantiate {σ : Scheme} {ν : NameSupply}
    (hσ : ∀ v ∈ σ.freeVars, ¬ ν.Pending v) (θ ρ : String → Ty) :
    ∃ r : String → Ty, σ.specialize θ ρ = (σ.instantiate ν).1.bind r ∧
      ∀ v, ¬ ν.Pending v → θ v = r v := by
  obtain ⟨a, ht, hp, hi, -⟩ := σ.instantiate_eq ν
  obtain ⟨r, hρ, hr⟩ := exists_extension hi θ ρ
  have hθ : ∀ v, ¬ ν.Pending v → θ v = r v := fun v hv =>
    (hr v fun q hq he => hv (he ▸ (hp q hq).1)).symm
  refine ⟨r, ?_, hθ⟩
  rw [ht, Ty.bind_bind]
  apply Ty.bind_congr
  intro v hv
  by_cases hq : v ∈ σ.vars
  · simp [hq, hρ v hq]
  · simp [hq, hθ v (hσ v (mem_freeVars.2 ⟨hv, hq⟩))]

/-- On all names but the pending ones `θ` is `s` followed by `r`. -/
def Subst.Factors (s : Subst) (ν : NameSupply) (θ r : String → Ty) : Prop :=
  ∀ v, ¬ ν.Pending v → θ v = ((Ty.var v).apply s).bind r

namespace Subst.Factors

variable {Γ : Context} {ν ν₁ : NameSupply} {s s₁ s₂ : Subst} {θ θ' r r₁ r₂ : String → Ty} {t : Ty}

theorem bind_eq (h : s.Factors ν θ r) (ht : ∀ v ∈ t.vars, ¬ ν.Pending v) :
    t.bind θ = (t.apply s).bind r := by
  rw [Ty.bind_apply]
  exact Ty.bind_congr fun v hv => h v (ht v hv)

theorem earlier (h : s.Factors ν₁ θ' r) (hr : ν.Reaches ν₁) (he : ∀ v, ¬ ν.Pending v → θ v = θ' v) :
    s.Factors ν θ r :=
  fun v hv => (he v hv).trans (h v fun hp => hv (hr.pending hp))

theorem andThen (h₁ : s₁.Factors ν θ r₁) (o : Outcome Γ ν s₁ t ν₁) (hΓ : ν.Avoids Γ)
    {Q : String → Prop} (h₂ : s₂.Factors ν₁ r₁ r₂) (hs₂ : s₂.Within Q) :
    (s₂.compose s₁).Factors ν θ r₂ := by
  intro v hv
  rw [hs₂.apply_compose, h₁ v hv]
  exact h₂.bind_eq fun w hw => o.not_pending_apply hΓ hv hw

end Subst.Factors

def Context.GuardedFrom (Γ : Context) (ν : NameSupply) : Prop :=
  ∀ ν', ν.Reaches ν' → Γ.Guarded (Γ.InPlay ν ν')

/-- Every typing in a context that is covered is found, up to what is still to be chosen. -/
def Expr.Complete (e : Expr) : Prop :=
  ∀ ⦃Γ Δ ν θ t'⦄, ν.Avoids Γ → Γ.GuardedFrom ν → Γ.Covers θ Δ → HasType Δ e t' →
    ∃ s t ν' r, (e.infer Γ).exec ν = (.ok (s, t), ν') ∧ t' = t.bind r ∧ s.Factors ν θ r

theorem Expr.complete_lit (l : Literal) : (Expr.lit l).Complete := by
  intro Γ Δ ν θ t' _ _ _ h
  cases h
  refine ⟨∅, l.ty, ν, θ, Expr.infer_lit_ok.2 ⟨rfl, rfl, rfl⟩, (l.bind_ty θ).symm, fun v _ => ?_⟩
  simp

theorem Expr.complete_var (x : Ident) : (Expr.var x).Complete := by
  intro Γ Δ ν θ t' hΓ _ hc h
  cases h with
  | var hx ht =>
    obtain ⟨σ, hσ, hc⟩ := hc.of_right hx
    obtain ⟨ρ, rfl⟩ := hc.instances t' ht
    have hfree : ∀ v ∈ σ.freeVars, ¬ ν.Pending v :=
      fun v hv => hΓ v (Context.mem_freeVars.2 ⟨x.name, σ, hσ, hv⟩)
    obtain ⟨r, ht, hr⟩ := Scheme.exists_bind_instantiate hfree θ ρ
    refine ⟨∅, _, _, r, Expr.infer_var_ok.2 ⟨σ, hσ, rfl, rfl, rfl⟩, ht, fun v hv => ?_⟩
    rw [Ty.apply_empty, Ty.bind_var]
    exact hr v hv

theorem Expr.complete_abs {x : Ident} {b : Expr} (hb : b.Complete) :
    (Expr.abs (.var x) b).Complete := by
  intro Γ Δ ν θ t' hΓ hg hc h
  cases h with
  | abs h =>
    rename_i a tb'
    obtain ⟨θ', ha, hθ⟩ := exists_extension_fresh ν θ a
    have hΔ := hΓ.insert_fresh x.name
    have hcov := (hc.congr fun v hv => hθ v (hΓ v hv)).insert x.name
      (Scheme.covers_mono (.var (NameSupply.fresh ν).1) θ')
    rw [Ty.bind_var, ha] at hcov
    have hguard : Context.GuardedFrom _ (NameSupply.fresh ν).2 := fun ν' hr =>
      (hg ν' (ν.reaches_fresh.trans hr)).insert_fresh hr x.name
    obtain ⟨s, tb, ν', r, hrun, rfl, hf⟩ := hb hΔ hguard hcov h
    have o := b.tidy hΔ hrun
    refine ⟨s, _, ν', r, Expr.infer_abs_ok.2 ⟨tb, hrun, rfl⟩, ?_, hf.earlier ν.reaches_fresh hθ⟩
    rw [Ty.apply_fn, o.apply_type, Ty.bind_fn, ← hf _ ν.not_pending_fresh, ha]

theorem Expr.complete_app {f a : Expr} (hf : f.Complete) (ha : a.Complete) :
    (Expr.app f a).Complete := by
  intro Γ Δ ν θ t' hΓ hg hc h
  cases h with
  | app hf' ha' =>
    obtain ⟨θ', hβ, hθ⟩ := exists_extension_fresh ν θ t'
    have hcov := hc.congr fun v hv => hθ v (hΓ v hv)
    have hguard : Γ.GuardedFrom (NameSupply.fresh ν).2 := fun ν' hr =>
      (hg ν' (ν.reaches_fresh.trans hr)).fresh
    obtain ⟨s₁, tf, ν₁, r₁, hrun₁, htf, hf₁⟩ := hf hΓ.fresh hguard hcov hf'
    have of := f.tidy hΓ.fresh hrun₁
    have hcov₁ := hcov.apply ((hguard ν₁ of.reaches).noCapture of.subst)
      fun v hv => hf₁ v (hΓ.fresh v hv)
    have hguard₁ : (Γ.apply s₁).GuardedFrom ν₁ := fun ν' hr =>
      (hguard ν' (of.reaches.trans hr)).later hΓ.fresh of hr
    obtain ⟨s₂, ta, ν₂, r₂, hrun₂, rfl, hf₂⟩ := ha (of.avoids hΓ.fresh) hguard₁ hcov₁ ha'
    have oa := a.tidy (of.avoids hΓ.fresh) hrun₂
    have hf₁₂ := hf₁.andThen of hΓ.fresh hf₂ oa.subst
    -- the result variable was drawn first, so neither part has bound it
    have hr : r₂ (NameSupply.fresh ν).1 = t' := by
      have hfree : (NameSupply.fresh ν).1 ∉ s₂.compose s₁ :=
        (of.inPlay_unified hΓ oa (by simp [Ty.vars])).2
      rw [← hβ, hf₁₂ _ ν.not_pending_fresh, Ty.apply_var_of_not_mem hfree, Ty.bind_var]
    have hl : (tf.apply s₂).bind r₂ = .fn (ta.bind r₂) t' := by
      rw [htf]
      exact (hf₂.bind_eq fun v hv => of.not_pending_type hΓ.fresh hv).symm
    obtain ⟨s₃, hu, hs₃⟩ := unify_complete (tf.apply s₂) (.fn ta (.var (NameSupply.fresh ν).1)) r₂
      (by rw [hl, Ty.bind_fn, Ty.bind_var, hr])
    refine ⟨_, _, ν₂, r₂, Expr.infer_app_ok.2 ⟨s₁, tf, ν₁, s₂, ta, s₃, hrun₁, hrun₂, hu, rfl, rfl⟩,
      ?_, fun v hv => ?_⟩
    · rw [hs₃, Ty.bind_var, hr]
    · rw [(unify_within hu).apply_compose, hs₃]
      exact hf₁₂.earlier ν.reaches_fresh hθ v hv

/-- What a derivation quantifies can be put for what the run quantifies. -/
theorem Context.Covers.generalize {Γ Δ : Context} {σ : Scheme} {t : Ty} {r : String → Ty}
    (h : Γ.Covers r Δ) (ht : σ.body = t.bind r)
    (hσ : ∀ v, v ∈ σ.vars ↔ v ∈ σ.body.vars ∧ v ∉ Δ.freeVars) : (Γ.generalize t).Covers r σ := by
  refine ⟨fun t' ht' => ?_, fun v hv w hw => ?_⟩
  · obtain ⟨ρ, rfl⟩ := Scheme.instance_iff.1 ht'
    refine ⟨fun v => (r v).bind fun w => if w ∈ σ.vars then ρ w else .var w, ?_⟩
    rw [Scheme.specialize, ht, Ty.bind_bind]
    apply Ty.bind_congr
    intro v hv
    split
    · rfl
    · rename_i hq
      have hv : v ∈ Γ.freeVars := mem_freeVars_generalize (Scheme.mem_freeVars.2 ⟨hv, hq⟩)
      apply Ty.bind_eq_self
      intro w hw
      rw [if_neg fun hq => ((hσ w).1 hq).2 (h.mem_freeVars hv hw)]
  · have hwt : w ∈ σ.body.vars := by
      rw [ht, Ty.mem_vars_bind]
      exact ⟨v, (Scheme.mem_freeVars.1 hv).1, hw⟩
    have hΔ := h.mem_freeVars (mem_freeVars_generalize hv) hw
    exact Scheme.mem_freeVars.2 ⟨hwt, fun hq => ((hσ w).1 hq).2 hΔ⟩

theorem Expr.complete_letCons {k : String} {x : Ident} {ps : List Pattern} {e b : Expr}
    {rest : Bindings} (he : (Expr.lambdas ps e).Complete) (hb : (Expr.letIn rest b).Complete) :
    (Expr.letIn (.cons k x ps e rest) b).Complete := by
  intro Γ Δ ν θ t' hΓ hg hc h
  cases h with
  | letCons he' hσ hb' =>
    obtain ⟨s₁, t₁, ν₁, r₁, hrun₁, ht₁, hf₁⟩ := he hΓ hg hc he'
    have o₁ := (Expr.lambdas ps e).tidy hΓ hrun₁
    have hΔ := Context.avoids_afterBinding hΓ o₁ x.name
    have hcov := hc.apply ((hg ν₁ o₁.reaches).noCapture o₁.subst)
      fun v hv => hf₁ v (hΓ v hv)
    have hguard : (Γ.afterBinding s₁ x.name t₁).GuardedFrom ν₁ := fun ν' hr =>
      (hg ν' (o₁.reaches.trans hr)).afterBinding hΓ o₁ hr x.name
    obtain ⟨s₂, t, ν₂, r₂, hrun₂, ht, hf₂⟩ :=
      hb hΔ hguard (hcov.insert x.name (hcov.generalize ht₁ hσ)) hb'
    have o₂ := (Expr.letIn rest b).tidy hΔ hrun₂
    exact ⟨_, t, ν₂, r₂, (Expr.infer_letCons_ok hΓ).2 ⟨s₁, t₁, ν₁, s₂, hrun₁, hrun₂, rfl⟩, ht,
      hf₁.andThen o₁ hΓ hf₂ o₂.subst⟩

theorem Expr.infer_complete (e : Expr) : e.Complete := by
  induction e using Expr.induction_nested with
  | lit l => exact Expr.complete_lit l
  | var x => exact Expr.complete_var x
  | app f a ihf iha => exact Expr.complete_app ihf iha
  | abs x b ih => exact Expr.complete_abs ih
  | other p b hp =>
    intro Γ Δ ν θ t' _ _ _ h
    cases h
    exact absurd rfl (hp _)
  | group e ih =>
    intro Γ Δ ν θ t' hΓ hg hc h
    cases h with
    | group h =>
      rw [Expr.infer_group]
      exact ih hΓ hg hc h
  | letNil b ih =>
    intro Γ Δ ν θ t' hΓ hg hc h
    cases h with
    | letNil h =>
      obtain ⟨s, t, ν', r, hrun, ht, hf⟩ := ih hΓ hg hc h
      exact ⟨s, t, ν', r, (Expr.infer_letNil_ok hΓ).2 hrun, ht, hf⟩
  | letCons k x ps e rest b ihe ihb => exact Expr.complete_letCons ihe ihb

theorem inferWithSubst_complete {e : Expr} {Γ : Context} (hΓ : Γ.MonoOrClosed) {θ : Subst} {t' : Ty}
    (h : HasType (Γ.apply θ) e t') :
    ∃ s t, inferWithSubst e Γ = .ok (s, t) ∧ ∃ r : Subst, t' = t.apply r ∧
      ∀ v ∈ Γ.freeVars, (Ty.var v).apply θ = ((Ty.var v).apply s).apply r := by
  obtain ⟨s, t, ν', f, hrun, ht, hf⟩ := e.infer_complete Γ.avoids_supply (fun _ _ => hΓ.guarded _)
    (hΓ.noCapture θ).covers h
  obtain ⟨r, hr⟩ :=
    Ty.exists_apply_eq_bind f (t :: Γ.freeVars.keys.map fun v => (Ty.var v).apply s)
  refine ⟨s, t, inferWithSubst_ok.2 ⟨ν', hrun⟩, r, ?_, fun v hv => ?_⟩
  · rw [ht, hr t (by simp)]
  · have hv' : (Ty.var v).apply s ∈ Γ.freeVars.keys.map fun v => (Ty.var v).apply s :=
      List.mem_map_of_mem (NameMap.mem_keys.2 hv)
    rw [hr _ (List.mem_cons_of_mem _ hv')]
    exact hf v (Γ.avoids_supply v hv)

/-- What is found is principal, and there is an error exactly where no instance of the context has a
type for the expression. -/
theorem inferWithSubst_principal {e : Expr} {Γ : Context} (hΓ : Γ.MonoOrClosed) :
    (∀ (θ : Subst) (t' : Ty), HasType (Γ.apply θ) e t' →
      ∃ s t, inferWithSubst e Γ = .ok (s, t) ∧ ∃ r : Subst, t' = t.apply r ∧
        ∀ v ∈ Γ.freeVars, (Ty.var v).apply θ = ((Ty.var v).apply s).apply r) ∧
    ((∃ err, inferType e Γ = .error err) ↔
      ¬ ∃ (θ : Subst) (t' : Ty), HasType (Γ.apply θ) e t') := by
  refine ⟨fun θ t' h => inferWithSubst_complete hΓ h, fun ⟨err, he⟩ ⟨θ, t', h⟩ => ?_, fun hn => ?_⟩
  · obtain ⟨s, t, hst, -⟩ := inferWithSubst_complete hΓ h
    simp [inferType, hst, Except.map] at he
  · cases hr : inferWithSubst e Γ with
    | error err => exact ⟨err, by simp [inferType, hr, Except.map]⟩
    | ok st =>
      obtain ⟨ν', hrun⟩ := inferWithSubst_ok.1 hr
      exact absurd ⟨st.1, st.2, e.infer_sound Γ.avoids_supply (hΓ.guarded _) hrun⟩ hn

/-- `k x` with `k : 'a` and `x` at every type, where `k` goes from `Int` to `Int`. -/
theorem principal_apply_parameter :
    ∃ s t, inferWithSubst (.app (.var ⟨"k", none⟩) (.var ⟨"x", none⟩))
        (.ofList [("k", .mono (.var "a")), ("x", .closed (.var "b"))]) = .ok (s, t) ∧
      ∃ r : Subst, Ty.int = t.apply r ∧
        ∀ v ∈ Context.freeVars (.ofList [("k", .mono (.var "a")), ("x", .closed (.var "b"))]),
          (Ty.var v).apply (.singleton "a" (.fn .int .int)) = ((Ty.var v).apply s).apply r := by
  refine (inferWithSubst_principal (by decide)).1 _ _ (.app (a := .int) ?_ ?_)
  · exact .var (by cbv) (Scheme.instance_mono (.fn .int .int))
  · exact .var (σ := .closed (.var "b")) (by cbv) (Scheme.instance_iff.2 ⟨fun _ => .int, by decide⟩)

end LetPoly
