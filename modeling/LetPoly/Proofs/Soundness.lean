import LetPoly.Proofs.Capture
import LetPoly.Proofs.Unification

set_option autoImplicit false

namespace LetPoly

theorem Scheme.instance_instantiate (σ : Scheme) (ν : NameSupply) :
    σ.Instance (σ.instantiate ν).1 := by
  obtain ⟨a, ht, -, -, -⟩ := σ.instantiate_eq ν
  rw [Scheme.instance_iff]
  refine ⟨fun v => .var (a v), ?_⟩
  rw [ht]
  apply Ty.bind_congr
  intro v _
  split <;> rfl

@[simp] theorem Context.apply_empty (Γ : Context) : Γ.apply ∅ = Γ := by
  ext1 x
  rw [get?_apply]
  cases Γ.get? x <;> simp

theorem Expr.infer_sound (e : Expr) : ∀ {Γ : Context} {ν ν' : NameSupply} {s : Subst} {t : Ty},
    ν.Avoids Γ → Γ.Guarded (Γ.InPlay ν ν') → (e.infer Γ).exec ν = (.ok (s, t), ν') →
      HasType (Γ.apply s) e t := by
  induction e using Expr.induction_nested with
  | lit l =>
    intro Γ ν ν' s t _ _ h
    obtain ⟨rfl, rfl, rfl⟩ := Expr.infer_lit_ok.1 h
    exact .lit _ l
  | var x =>
    intro Γ ν ν' s t _ _ h
    obtain ⟨σ, hσ, rfl, rfl, rfl⟩ := Expr.infer_var_ok.1 h
    rw [Context.apply_empty]
    exact .var hσ (σ.instance_instantiate ν)
  | group e ih =>
    intro Γ ν ν' s t hΓ hg h
    rw [Expr.infer_group] at h
    exact .group (ih hΓ hg h)
  | other p b hp =>
    intro Γ ν ν' s t _ _ h
    rw [Expr.exec_abs_other hp] at h
    cases h
  | abs x b ih =>
    intro Γ ν ν' s t hΓ hg h
    obtain ⟨tb, hb, rfl⟩ := Expr.infer_abs_ok.1 h
    have hΔ := hΓ.insert_fresh x.name
    have o := b.tidy hΔ hb
    have hb := ih hΔ (hg.insert_fresh o.reaches x.name) hb
    rw [Context.apply_insert, Scheme.apply_mono] at hb
    rw [Ty.apply_fn, o.apply_type]
    exact .abs hb
  | app f a ihf iha =>
    intro Γ ν ν' s t hΓ hg h
    obtain ⟨s₁, tf, ν₁, s₂, ta, s₃, hf', ha', hu, rfl, rfl⟩ := Expr.infer_app_ok.1 h
    have of := f.tidy hΓ.fresh hf'
    have oa := a.tidy (of.avoids hΓ.fresh) ha'
    have o := of.andThen hΓ.fresh (fun _ hv => hv) oa
    have hg₁ := hg.fresh.later hΓ.fresh of oa.reaches
    have hgf := hg.fresh.upTo oa.reaches
    -- both derivations are moved to the final scope, one substitution after the other
    have hf := (ihf hΓ.fresh hgf hf').apply (hg₁.noCapture oa.subst)
    have ha := iha (of.avoids hΓ.fresh) hg₁ ha'
    have hs₃ := ((hg.apply s₁).apply s₂).noCapture
      ((unify_within hu).mono fun v hv => (of.inPlay_unified hΓ oa hv).1)
    have hf := hf.apply hs₃
    have ha := ha.apply hs₃
    rw [unify_sound _ _ s₃ hu, Ty.apply_fn] at hf
    rw [Context.apply_compose (hg.fresh.noCapture o.subst) (unify_within hu),
      Context.apply_compose (hgf.noCapture of.subst) oa.subst]
    exact .app hf ha
  | letNil b ih =>
    intro Γ ν ν' s t hΓ hg h
    exact .letNil (ih hΓ hg ((Expr.infer_letNil_ok hΓ).1 h))
  | letCons k x ps e rest b ihe ihb =>
    intro Γ ν ν' s t hΓ hg h
    obtain ⟨s₁, t₁, ν₁, s₂, h₁, h₂, rfl⟩ := (Expr.infer_letCons_ok hΓ).1 h
    have o₁ := (Expr.lambdas ps e).tidy hΓ h₁
    have hΔ := Context.avoids_afterBinding hΓ o₁ x.name
    have o₂ := (Expr.letIn rest b).tidy hΔ h₂
    have hgs := hg.upTo o₂.reaches
    have hg₁ := hg.afterBinding hΓ o₁ o₂.reaches x.name
    have he := ihe hΓ hgs h₁
    have hb := ihb hΔ hg₁ h₂
    have hgen : ((Γ.apply s₁).generalize t₁).NoCapture s₂ :=
      (hg₁ x.name _ (by simp [Context.afterBinding])).noCapture o₂.subst
    have hscope : (Γ.apply s₁).NoCapture s₂ := (hg.later hΓ o₁ o₂.reaches).noCapture
      (o₂.subst.mono fun v hv => Or.imp_left Context.mem_freeVars_afterBinding hv)
    rw [Context.afterBinding, Context.apply_insert] at hb
    rw [Context.apply_compose (hgs.noCapture o₁.subst) o₂.subst]
    -- what was generalised before `s₂` was known has to be generalised again under it
    refine .letCons_image (fun hfg => he.subst_on ((hscope.mapsInto.on _).congr hfg))
      (fun v => Context.mem_vars_generalize) fun hσ' => hb.weaken fun ρ => ?_
    rw [Scheme.specialize_apply hgen]
    simpa using hσ' ρ

theorem inferWithSubst_ok {e : Expr} {Γ : Context} {s : Subst} {t : Ty} :
    inferWithSubst e Γ = .ok (s, t) ↔ ∃ ν', (e.infer Γ).exec Γ.supply = (.ok (s, t), ν') := by
  constructor
  · exact fun h => ⟨((e.infer Γ).exec Γ.supply).2, Prod.ext h rfl⟩
  · exact fun ⟨ν', h⟩ => congrArg Prod.fst h

theorem inferType_ok {e : Expr} {Γ : Context} {t : Ty} :
    inferType e Γ = .ok t ↔ ∃ s ν', (e.infer Γ).exec Γ.supply = (.ok (s, t), ν') := by
  constructor
  · intro h
    cases hr : inferWithSubst e Γ with
    | error err => simp [inferType, hr, Except.map] at h
    | ok st =>
      simp only [inferType, hr, Except.map, Except.ok.injEq] at h
      obtain ⟨ν', hrun⟩ := inferWithSubst_ok.1 hr
      exact ⟨st.1, ν', h ▸ hrun⟩
  · intro ⟨s, ν', hrun⟩
    rw [inferType, inferWithSubst_ok.2 ⟨ν', hrun⟩]
    rfl

/-- The substitution and the type that are found for an expression are derivable for it. -/
theorem inferWithSubst_hasType {e : Expr} {Γ : Context} {s : Subst} {t : Ty} (hΓ : Γ.MonoOrClosed)
    (h : inferWithSubst e Γ = .ok (s, t)) : HasType (Γ.apply s) e t := by
  obtain ⟨ν', hr⟩ := inferWithSubst_ok.1 h
  exact e.infer_sound Γ.avoids_supply (hΓ.guarded _) hr

/-- In `x ↦ let f y = k x in id f` the result of `k` stays free in the scope of `f`. -/
theorem hasType_let_below_lambda :
    HasType
      (Context.apply
        (.ofList [("a", .fn (.var "b") (.var "d")), ("e", .fn (.var "g") (.var "d")),
          ("f", .fn (.var "g") (.var "d"))])
        (.ofList [("id", .closed (.fn (.var "a") (.var "a"))), ("k", .mono (.var "a"))]))
      (.lambda ⟨"x", none⟩
        (.letIn
          (.cons "f" ⟨"f", none⟩ [.var ⟨"y", none⟩] (.app (.var ⟨"k", none⟩) (.var ⟨"x", none⟩))
            .nil)
          (.app (.var ⟨"id", none⟩) (.var ⟨"f", none⟩))))
      (.fn (.var "b") (.fn (.var "g") (.var "d"))) :=
  inferWithSubst_hasType (by decide) (by cbv)

end LetPoly
