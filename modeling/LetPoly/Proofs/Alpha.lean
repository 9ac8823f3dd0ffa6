import LetPoly.Proofs.Capture
import LetPoly.Proofs.Renaming

/-!
Names of quantified variables. Two runs over contexts that differ in them alone go in step: they
draw the same names, in another order at most, so their results differ by a renaming. This holds as
long as neither run has a substitution caught by a quantifier, and can fail otherwise.
-/

set_option autoImplicit false

namespace LetPoly

/-- `ρ` takes the quantified names one to one to those of `σ'`, and `π` the free ones to free
ones. -/
structure Scheme.RenamedBy (σ : Scheme) (ρ π : String → String) (σ' : Scheme) : Prop where
  maps : ∀ q ∈ σ.vars, ρ q ∈ σ'.vars
  injective : ∀ p ∈ σ.vars, ∀ q ∈ σ.vars, ρ p = ρ q → p = q
  surjective : ∀ q' ∈ σ'.vars, ∃ q ∈ σ.vars, ρ q = q'
  free : ∀ v ∈ σ.freeVars, π v ∉ σ'.vars
  body : σ'.body = σ.body.rename fun v => if v ∈ σ.vars then ρ v else π v

def Context.Renamed (π : String → String) (Γ Γ' : Context) : Prop :=
  Pointwise (fun σ σ' => ∃ ρ, σ.RenamedBy ρ π σ') Γ Γ'

/-- Equal but for the names of quantified variables. -/
def Context.AlphaEquiv (Γ Γ' : Context) : Prop := Γ.Renamed id Γ'

namespace Scheme.RenamedBy

variable {σ σ' : Scheme} {ρ π π' : String → String} {s s' : Subst} {w : String}

theorem mem_freeVars (h : σ.RenamedBy ρ π σ') :
    w ∈ σ'.freeVars ↔ ∃ v ∈ σ.freeVars, π v = w := by
  rw [Scheme.mem_freeVars, h.body, Ty.mem_vars_rename]
  constructor
  · intro ⟨⟨v, hv, he⟩, hq'⟩
    by_cases hq : v ∈ σ.vars
    · rw [if_pos hq] at he
      exact absurd (he ▸ h.maps v hq) hq'
    · rw [if_neg hq] at he
      exact ⟨v, Scheme.mem_freeVars.2 ⟨hv, hq⟩, he⟩
  · intro ⟨v, hv, he⟩
    have hv' := Scheme.mem_freeVars.1 hv
    exact ⟨⟨v, hv'.1, by rw [if_neg hv'.2, he]⟩, he ▸ h.free v hv⟩

/-- Substitutions that do the same up to names keep schemes the same up to names, if neither brings
a quantified name in. -/
theorem apply (h : σ.RenamedBy ρ π σ') (hs : σ.NoCapture s) (hs' : σ'.NoCapture s')
    (he : ∀ v ∈ σ.freeVars, (Ty.var (π v)).apply s' = ((Ty.var v).apply s).rename π') :
    (σ.apply s).RenamedBy ρ π' (σ'.apply s') := by
  refine ⟨h.maps, h.injective, h.surjective, fun w hw => ?_, ?_⟩
  · obtain ⟨v, hv, hw⟩ := Scheme.mem_freeVars_apply hw
    refine hs' (π v) (h.mem_freeVars.2 ⟨v, hv, rfl⟩) (π' w) ?_
    rw [he v hv, Ty.mem_vars_rename]
    exact ⟨w, hw, rfl⟩
  · show σ'.body.apply (s'.without σ'.vars) = (σ.body.apply (s.without σ.vars)).rename _
    rw [h.body]
    apply Ty.apply_rename
    intro v hv
    rw [Subst.apply_var_without, Subst.apply_var_without]
    by_cases hq : v ∈ σ.vars
    · rw [if_pos hq, if_pos (h.maps v hq), if_pos hq, Ty.rename_var]
      exact congrArg Ty.var (if_pos hq).symm
    · have hv := Scheme.mem_freeVars.2 ⟨hv, hq⟩
      rw [if_neg hq, if_neg (h.free v hv), if_neg hq, he v hv]
      apply Ty.rename_congr
      intro w hw
      exact (if_neg (hs v hv w hw)).symm

theorem size_eq (h : σ.RenamedBy ρ π σ') : σ'.vars.size = σ.vars.size := by
  have hd : (σ.vars.keys.map ρ).Nodup := by
    refine List.Nodup.map_on (fun p hp q hq => ?_) σ.vars.nodup_keys
    exact h.injective p (NameMap.mem_keys.1 hp) q (NameMap.mem_keys.1 hq)
  have hp : (σ.vars.keys.map ρ).Perm σ'.vars.keys := by
    rw [List.perm_ext_iff_of_nodup hd σ'.vars.nodup_keys]
    intro w
    rw [List.mem_map, NameMap.mem_keys]
    constructor
    · intro ⟨q, hq, he⟩
      exact he ▸ h.maps q (NameMap.mem_keys.1 hq)
    · intro hw
      obtain ⟨q, hq, he⟩ := h.surjective w hw
      exact ⟨q, NameMap.mem_keys.2 hq, he⟩
  rw [← NameMap.length_keys, ← NameMap.length_keys, ← hp.length_eq, List.length_map]

end Scheme.RenamedBy

theorem Scheme.renamedBy_mono (π : String → String) (t : Ty) :
    (mono t).RenamedBy id π (mono (t.rename π)) := by
  refine ⟨fun q hq => hq, fun _ _ _ _ h => h, fun q hq => ⟨q, hq, rfl⟩, fun v _ => ?_, ?_⟩
  · exact NameMap.not_mem_empty _
  · apply Ty.rename_congr
    intro v _
    exact (if_neg (NameMap.not_mem_empty v)).symm

namespace Context.Renamed

variable {Γ Γ' : Context} {π π' : String → String} {s s' : Subst} {w : String}

theorem mem_freeVars (h : Γ.Renamed π Γ') : w ∈ Γ'.freeVars ↔ ∃ v ∈ Γ.freeVars, π v = w := by
  constructor
  · intro hw
    obtain ⟨x, σ', hσ', hw⟩ := Context.mem_freeVars.1 hw
    obtain ⟨σ, hσ, ρ, hr⟩ := h.of_right hσ'
    obtain ⟨v, hv, he⟩ := hr.mem_freeVars.1 hw
    exact ⟨v, Context.mem_freeVars.2 ⟨x, σ, hσ, hv⟩, he⟩
  · intro ⟨v, hv, he⟩
    obtain ⟨x, σ, hσ, hv⟩ := Context.mem_freeVars.1 hv
    obtain ⟨σ', hσ', ρ, hr⟩ := h.of_left hσ
    exact Context.mem_freeVars.2 ⟨x, σ', hσ', hr.mem_freeVars.2 ⟨v, hv, he⟩⟩

theorem apply (h : Γ.Renamed π Γ') (hs : Γ.NoCapture s) (hs' : Γ'.NoCapture s')
    (he : ∀ v ∈ Γ.freeVars, (Ty.var (π v)).apply s' = ((Ty.var v).apply s).rename π') :
    (Γ.apply s).Renamed π' (Γ'.apply s') := by
  refine h.map (get?_apply s Γ) (get?_apply s' Γ') fun x σ σ' hσ hσ' ⟨ρ, hr⟩ => ⟨ρ, ?_⟩
  exact hr.apply (hs x σ hσ) (hs' x σ' hσ') fun v hv =>
    he v (Context.mem_freeVars.2 ⟨x, σ, hσ, hv⟩)

theorem generalize (h : Γ.Renamed π Γ') (hπ : Function.Injective π) (t : Ty) :
    (Γ.generalize t).RenamedBy π π (Γ'.generalize (t.rename π)) := by
  have hfree : ∀ v, π v ∈ Γ'.freeVars ↔ v ∈ Γ.freeVars := by
    intro v
    rw [h.mem_freeVars]
    exact ⟨fun ⟨u, hu, he⟩ => hπ he ▸ hu, fun hv => ⟨v, hv, rfl⟩⟩
  refine ⟨fun q hq => ?_, fun p _ q _ he => hπ he, fun w hw => ?_, fun v hv hq => ?_, ?_⟩
  · rw [mem_vars_generalize] at hq ⊢
    rwa [hfree, Ty.mem_vars_rename_iff hπ]
  · rw [mem_vars_generalize] at hw
    obtain ⟨v, hv, rfl⟩ := Ty.mem_vars_rename.1 hw.1
    exact ⟨v, mem_vars_generalize.2 ⟨hv, fun hΓ => hw.2 ((hfree v).2 hΓ)⟩, rfl⟩
  · exact (mem_vars_generalize.1 hq).2 ((hfree v).2 (mem_freeVars_generalize hv))
  · exact Ty.rename_congr fun v _ => (ite_self _).symm

end Context.Renamed

/-- Injective, with every pending name left in its place. -/
structure NameSupply.Spares (ν : NameSupply) (π : String → String) : Prop where
  injective : Function.Injective π
  fixed : ∀ v, ν.Pending v → π v = v

namespace NameSupply.Spares

variable {ν ν' : NameSupply} {π : String → String} {v : String}

theorem later (h : ν.Spares π) (hr : ν.Reaches ν') : ν'.Spares π :=
  ⟨h.injective, fun v hv => h.fixed v (hr.pending hv)⟩

theorem not_pending (h : ν.Spares π) (hv : ¬ ν.Pending v) : ¬ ν.Pending (π v) := by
  intro hp
  have he : π v = v := h.injective (h.fixed (π v) hp)
  exact hv (he ▸ hp)

theorem avoids {Γ Γ' : Context} (h : ν.Spares π) (hΓ : ν.Avoids Γ) (hr : Γ.Renamed π Γ') :
    ν.Avoids Γ' := by
  intro w hw
  obtain ⟨v, hv, rfl⟩ := hr.mem_freeVars.1 hw
  exact h.not_pending (hΓ v hv)

end NameSupply.Spares

theorem NameSupply.Spares.exists_extension {ν ν' : NameSupply} {π a b : String → String}
    {vs : NameSet} (hπ : ν.Spares π) (hr : ν.Reaches ν')
    (ha : ∀ q ∈ vs, ν.Pending (a q) ∧ ¬ ν'.Pending (a q))
    (hb : ∀ q ∈ vs, ν.Pending (b q) ∧ ¬ ν'.Pending (b q))
    (hia : ∀ p ∈ vs, ∀ q ∈ vs, a p = a q → p = q) (hib : ∀ p ∈ vs, ∀ q ∈ vs, b p = b q → p = q)
    (hs : ∀ v, ν.Pending v → ¬ ν'.Pending v → ∃ q ∈ vs, a q = v) :
    ∃ π', ν'.Spares π' ∧ (∀ v, ¬ ν.Pending v → π' v = π v) ∧ ∀ q ∈ vs, π' (a q) = b q := by
  obtain ⟨π', hdrawn, hother⟩ := LetPoly.exists_extension hia π b
  -- what was drawn goes to what was drawn, and nothing else does
  have hnew : ∀ v, (∀ q ∈ vs, a q ≠ v) → ∀ q ∈ vs, π' v ≠ b q := by
    intro v hv q hq he
    rw [hother v hv] at he
    by_cases hp : ν.Pending v
    · rw [hπ.fixed v hp] at he
      obtain ⟨p, hpq, hpv⟩ := hs v hp (he ▸ (hb q hq).2)
      exact hv p hpq hpv
    · exact hπ.not_pending hp (he ▸ (hb q hq).1)
  refine ⟨π', ⟨fun v w he => ?_, fun v hv => ?_⟩, fun v hv => ?_, hdrawn⟩
  · by_cases hv : ∃ p ∈ vs, a p = v
    · obtain ⟨p, hp, rfl⟩ := hv
      rw [hdrawn p hp] at he
      by_cases hw : ∃ q ∈ vs, a q = w
      · obtain ⟨q, hq, rfl⟩ := hw
        rw [hdrawn q hq] at he
        rw [hib p hp q hq he]
      · exact absurd he.symm (hnew w (fun q hq hqw => hw ⟨q, hq, hqw⟩) p hp)
    · have hv : ∀ q ∈ vs, a q ≠ v := fun q hq hqv => hv ⟨q, hq, hqv⟩
      by_cases hw : ∃ q ∈ vs, a q = w
      · obtain ⟨q, hq, rfl⟩ := hw
        rw [hdrawn q hq] at he
        exact absurd he (hnew v hv q hq)
      · have hw : ∀ q ∈ vs, a q ≠ w := fun q hq hqw => hw ⟨q, hq, hqw⟩
        rw [hother v hv, hother w hw] at he
        exact hπ.injective he
  · rw [hother v fun q hq he => (ha q hq).2 (he ▸ hv)]
    exact hπ.fixed v (hr.pending hv)
  · exact hother v fun q hq he => hv (he ▸ (ha q hq).1)

/-- Instances of schemes that differ in names alone use up the same names and differ by a
renaming. -/
theorem Scheme.RenamedBy.instantiate {σ σ' : Scheme} {ρ π : String → String} {ν : NameSupply}
    (h : σ.RenamedBy ρ π σ') (hπ : ν.Spares π) (hσ : ∀ v ∈ σ.freeVars, ¬ ν.Pending v) :
    (σ'.instantiate ν).2 = (σ.instantiate ν).2 ∧
      ∃ π', (σ.instantiate ν).2.Spares π' ∧ (∀ v, ¬ ν.Pending v → π' v = π v) ∧
        (σ'.instantiate ν).1 = (σ.instantiate ν).1.rename π' := by
  have hν : (σ'.instantiate ν).2 = (σ.instantiate ν).2 := by
    show (NameSupply.draw σ'.vars.size ν).2 = (NameSupply.draw σ.vars.size ν).2
    rw [h.size_eq]
  obtain ⟨a, ht, ha, hia, hs⟩ := σ.instantiate_eq ν
  obtain ⟨a', ht', ha', hia', -⟩ := σ'.instantiate_eq ν
  rw [hν] at ha'
  obtain ⟨π', hπ', hold, hdrawn⟩ := hπ.exists_extension (σ.reaches_instantiate ν) ha
    (fun q hq => ha' (ρ q) (h.maps q hq)) hia
    (fun p hp q hq he => h.injective p hp q hq (hia' _ (h.maps p hp) _ (h.maps q hq) he)) hs
  refine ⟨hν, π', hπ', hold, ?_⟩
  rw [ht, ht', h.body]
  show (σ.body.rename _).rename _ = (σ.body.rename _).rename _
  rw [Ty.rename_rename, Ty.rename_rename]
  apply Ty.rename_congr
  intro v hv
  by_cases hq : v ∈ σ.vars
  · rw [if_pos hq, if_pos (h.maps v hq), if_pos hq, hdrawn v hq]
  · have hv := Scheme.mem_freeVars.2 ⟨hv, hq⟩
    rw [if_neg hq, if_neg (h.free v hv), if_neg hq, hold v (hσ v hv)]

/-- From one supply both end on one supply, with results alike. -/
def Check.Agree {α β : Type} (R : NameSupply → α → β → Prop) (x : Check α) (y : Check β)
    (ν : NameSupply) : Prop :=
  (y.exec ν).2 = (x.exec ν).2 ∧ Alike (R (x.exec ν).2) (x.exec ν).1 (y.exec ν).1

theorem Check.Agree.bind {α β γ δ : Type} {R : NameSupply → α → β → Prop}
    {S : NameSupply → γ → δ → Prop} {x : Check α} {y : Check β} {f : α → Check γ} {g : β → Check δ}
    {ν : NameSupply} (h : Check.Agree R x y ν)
    (hfg : ∀ a b ν₁, x.exec ν = (.ok a, ν₁) → y.exec ν = (.ok b, ν₁) → R ν₁ a b →
      Check.Agree S (f a) (g b) ν₁) : Check.Agree S (x >>= f) (y >>= g) ν := by
  unfold Check.Agree at h ⊢
  rw [Check.exec_bind, Check.exec_bind]
  cases hx : x.exec ν with
  | mk r ν₁ =>
    cases hy : y.exec ν with
    | mk r' ν₁' =>
      rw [hx, hy] at h
      obtain ⟨rfl, h⟩ := h
      cases h with
      | ok hab => exact hfg _ _ _ hx hy hab
      | error he => exact ⟨rfl, .error he⟩

theorem Check.Agree.of_exec {α β : Type} {R : NameSupply → α → β → Prop} {x x' : Check α}
    {y y' : Check β} {ν ν' : NameSupply} (h : Check.Agree R x' y' ν')
    (hx : x.exec ν = x'.exec ν') (hy : y.exec ν = y'.exec ν') : Check.Agree R x y ν := by
  unfold Check.Agree
  rw [hx, hy]
  exact h

/-- Results that differ by `π'`, which goes on from `π` over the names drawn since `ν`. -/
structure RenamedResult (ν : NameSupply) (π π' : String → String) (ν' : NameSupply) (s : Subst)
    (t : Ty) (s' : Subst) (t' : Ty) : Prop where
  spares : ν'.Spares π'
  old : ∀ v, ¬ ν.Pending v → π' v = π v
  subst : ∀ v, ¬ ν.Pending v → (Ty.var (π v)).apply s' = ((Ty.var v).apply s).rename π'
  type : t' = t.rename π'

namespace RenamedResult

variable {Γ : Context} {ν ν₁ ν₂ : NameSupply} {π π₁ π₂ : String → String}
  {s₁ s₂ s₁' s₂' : Subst} {t₁ t₂ t₁' t₂' t : Ty} {Q Q' : String → Prop}

theorem earlier (r : RenamedResult ν₁ π π₁ ν₂ s₁ t₁ s₁' t₁') (hr : ν.Reaches ν₁) :
    RenamedResult ν π π₁ ν₂ s₁ t₁ s₁' t₁' :=
  ⟨r.spares, fun v hv => r.old v fun hp => hv (hr.pending hp),
    fun v hv => r.subst v fun hp => hv (hr.pending hp), r.type⟩

theorem apply_rename (r : RenamedResult ν π π₁ ν₁ s₁ t₁ s₁' t₁')
    (ht : ∀ v ∈ t.vars, ¬ ν.Pending v) : (t.rename π).apply s₁' = (t.apply s₁).rename π₁ :=
  Ty.apply_rename fun v hv => r.subst v (ht v hv)

theorem andThen (r₁ : RenamedResult ν π π₁ ν₁ s₁ t₁ s₁' t₁') (o : Outcome Γ ν s₁ t₁ ν₁)
    (hΓ : ν.Avoids Γ) (r₂ : RenamedResult ν₁ π₁ π₂ ν₂ s₂ t₂ s₂' t₂') (hs₂ : s₂.Within Q)
    (hs₂' : s₂'.Within Q') :
    RenamedResult ν π π₂ ν₂ (s₂.compose s₁) t₂ (s₂'.compose s₁') t₂' := by
  refine ⟨r₂.spares, fun v hv => ?_, fun v hv => ?_, r₂.type⟩
  · rw [r₂.old v fun hp => hv (o.reaches.pending hp), r₁.old v hv]
  · rw [hs₂.apply_compose, hs₂'.apply_compose, r₁.subst v hv]
    exact r₂.apply_rename fun w hw => o.not_pending_apply hΓ hv hw

end RenamedResult

def Expr.Equivariant (e : Expr) : Prop :=
  ∀ ⦃Γ Γ' ν π⦄, ν.Avoids Γ → ν.Spares π → Γ.Renamed π Γ' → CaptureFree e Γ ν → CaptureFree e Γ' ν →
    Check.Agree (fun ν' x y => ∃ π', RenamedResult ν π π' ν' x.1 x.2 y.1 y.2)
      (e.infer Γ) (e.infer Γ') ν

theorem Expr.equivariant_lit (l : Literal) : (Expr.lit l).Equivariant := by
  intro Γ Γ' ν π _ hπ _ _ _
  rw [Expr.infer_lit, Expr.infer_lit]
  refine ⟨rfl, .ok ⟨π, hπ, fun _ _ => rfl, fun v _ => ?_, (l.bind_ty _).symm⟩⟩
  simp

theorem Expr.equivariant_var (x : Ident) : (Expr.var x).Equivariant := by
  intro Γ Γ' ν π hΓ hπ h _ _
  rw [Expr.infer_var, Expr.infer_var]
  rcases h x.name with ⟨hn, hn'⟩ | ⟨σ, σ', hσ, hσ', ρ, hr⟩
  · rw [hn, hn']
    exact ⟨rfl, .error rfl⟩
  · rw [hσ, hσ']
    have hfree : ∀ v ∈ σ.freeVars, ¬ ν.Pending v := fun v hv =>
      hΓ v (Context.mem_freeVars.2 ⟨x.name, σ, hσ, hv⟩)
    obtain ⟨hν, π', hπ', hold, ht⟩ := hr.instantiate hπ hfree
    refine ⟨hν, .ok ⟨π', hπ', hold, fun v hv => ?_, ht⟩⟩
    simp [hold v hv]

theorem Expr.equivariant_abs {x : Ident} {b : Expr} (hb : b.Equivariant) :
    (Expr.abs (.var x) b).Equivariant := by
  intro Γ Γ' ν π hΓ hπ h hc hc'
  have hβ : π (NameSupply.fresh ν).1 = (NameSupply.fresh ν).1 := hπ.fixed _ ν.pending_fresh
  have hΔ := h.insert x.name ⟨id, Scheme.renamedBy_mono π (.var (NameSupply.fresh ν).1)⟩
  rw [Ty.rename_var, hβ] at hΔ
  have hΓ' := hπ.avoids hΓ h
  refine Check.Agree.of_exec ?_ (Expr.exec_abs x b Γ ν) (Expr.exec_abs x b Γ' ν)
  cases hc with
  | other hp => exact absurd rfl (hp x)
  | abs hc =>
    cases hc' with
    | other hp => exact absurd rfl (hp x)
    | abs hc' =>
      refine (hb (hΓ.insert_fresh x.name) (hπ.later ν.reaches_fresh) hΔ hc hc').bind
        fun ⟨s, t⟩ ⟨s', t'⟩ ν' hx hy ⟨π', r⟩ => ?_
      have o := b.tidy (hΓ.insert_fresh x.name) hx
      have o' := b.tidy (hΓ'.insert_fresh x.name) hy
      have hs : (Ty.var (π _)).apply s' = ((Ty.var _).apply s).rename π' :=
        r.subst _ ν.not_pending_fresh
      have ht : t' = t.rename π' := r.type
      have r := r.earlier ν.reaches_fresh
      refine ⟨rfl, .ok ⟨π', r.spares, r.old, r.subst, ?_⟩⟩
      show (Ty.fn _ t').apply s' = ((Ty.fn _ t).apply s).rename π'
      rw [hβ] at hs
      rw [Ty.apply_fn, Ty.apply_fn, o.apply_type, o'.apply_type, Ty.rename_fn, hs, ht]

theorem Expr.equivariant_app {f a : Expr} (hf : f.Equivariant) (ha : a.Equivariant) :
    (Expr.app f a).Equivariant := by
  intro Γ Γ' ν π hΓ hπ h hc hc'
  have hβ : π (NameSupply.fresh ν).1 = (NameSupply.fresh ν).1 := hπ.fixed _ ν.pending_fresh
  have hΓ' := hπ.avoids hΓ h
  refine Check.Agree.of_exec ?_ (Expr.exec_app f a Γ ν) (Expr.exec_app f a Γ' ν)
  cases hc with
  | app hcf hn hca =>
    cases hc' with
    | app hcf' hn' hca' =>
      refine (hf hΓ.fresh (hπ.later ν.reaches_fresh) h hcf hcf').bind
        fun ⟨s₁, tf⟩ ⟨s₁', tf'⟩ ν₁ hx hy ⟨π₁, r₁⟩ => ?_
      have of := f.tidy hΓ.fresh hx
      have hΔ := h.apply (hn _ _ _ hx) (hn' _ _ _ hy) fun v hv => r₁.subst v (hΓ.fresh v hv)
      refine (ha (of.avoids hΓ.fresh) r₁.spares hΔ (hca _ _ _ hx) (hca' _ _ _ hy)).bind
        fun ⟨s₂, ta⟩ ⟨s₂', ta'⟩ ν₂ hx₂ hy₂ ⟨π₂, r₂⟩ => ?_
      have of' := f.tidy hΓ'.fresh hy
      have oa := a.tidy (of.avoids hΓ.fresh) hx₂
      have oa' := a.tidy (of'.avoids hΓ'.fresh) hy₂
      have r := r₁.andThen of hΓ.fresh r₂ oa.subst oa'.subst
      have hβ₂ : π₂ (NameSupply.fresh ν).1 = (NameSupply.fresh ν).1 := by
        rw [r.old _ ν.not_pending_fresh, hβ]
      have hl : tf'.apply s₂' = (tf.apply s₂).rename π₂ := by
        have htf : tf' = tf.rename π₁ := r₁.type
        rw [htf]
        exact r₂.apply_rename fun v hv => of.not_pending_type hΓ.fresh hv
      have hr : Ty.fn ta' (.var (NameSupply.fresh ν).1) =
          (Ty.fn ta (.var (NameSupply.fresh ν).1)).rename π₂ := by
        have hta : ta' = ta.rename π₂ := r₂.type
        rw [hta, Ty.rename_fn, Ty.rename_var, hβ₂]
      have hu : Check.Agree (fun _ => Subst.Renames π₂)
          (Check.unify (tf.apply s₂) (.fn ta (.var (NameSupply.fresh ν).1)))
          (Check.unify (tf'.apply s₂') (.fn ta' (.var (NameSupply.fresh ν).1))) ν₂ := by
        rw [hl, hr]
        exact ⟨rfl, unify_rename r₂.spares.injective _ _⟩
      refine hu.bind fun s₃ s₃' ν₃ hx₃ hy₃ hs₃ => ?_
      have hν : ν₂ = ν₃ := congrArg Prod.snd hx₃
      have h₃ := unify_within (mapError_eq_ok.1 (congrArg Prod.fst hx₃))
      have h₃' := unify_within (mapError_eq_ok.1 (congrArg Prod.fst hy₃))
      have r := r.earlier ν.reaches_fresh
      refine ⟨rfl, .ok ⟨π₂, hν ▸ r.spares, r.old, fun v hv => ?_, ?_⟩⟩
      · show (Ty.var (π v)).apply (s₃'.compose _) = ((Ty.var v).apply (s₃.compose _)).rename π₂
        rw [h₃.apply_compose, h₃'.apply_compose, r.subst v hv, hs₃]
      · show (Ty.var _).apply s₃' = ((Ty.var _).apply s₃).rename π₂
        rw [← hs₃, Ty.rename_var, hβ₂]

theorem Expr.equivariant_letCons {k : String} {x : Ident} {ps : List Pattern} {e b : Expr}
    {rest : Bindings} (he : (Expr.lambdas ps e).Equivariant)
    (hb : (Expr.letIn rest b).Equivariant) :
    (Expr.letIn (.cons k x ps e rest) b).Equivariant := by
  intro Γ Γ' ν π hΓ hπ h hc hc'
  have hΓ' := hπ.avoids hΓ h
  have hp := (rest.tidy b b.tidy).2
  refine Check.Agree.of_exec ?_ (Expr.exec_letCons e.tidy hp k x ps hΓ)
    (Expr.exec_letCons e.tidy hp k x ps hΓ')
  cases hc with
  | letCons hce hn hcb =>
    cases hc' with
    | letCons hce' hn' hcb' =>
      refine (he hΓ hπ h hce hce').bind fun ⟨s₁, t₁⟩ ⟨s₁', t₁'⟩ ν₁ hx hy ⟨π₁, r₁⟩ => ?_
      have o := (Expr.lambdas ps e).tidy hΓ hx
      have o' := (Expr.lambdas ps e).tidy hΓ' hy
      have hΔ := h.apply (hn _ _ _ hx) (hn' _ _ _ hy) fun v hv => r₁.subst v (hΓ v hv)
      have hgen := hΔ.generalize r₁.spares.injective t₁
      have ht : t₁' = t₁.rename π₁ := r₁.type
      rw [← ht] at hgen
      have ho := Context.avoids_afterBinding hΓ o x.name
      have ho' := Context.avoids_afterBinding hΓ' o' x.name
      refine (hb ho r₁.spares (hΔ.insert x.name ⟨π₁, hgen⟩) (hcb _ _ _ hx) (hcb' _ _ _ hy)).bind
        fun ⟨s₂, t⟩ ⟨s₂', t'⟩ ν₂ hx₂ hy₂ ⟨π₂, r₂⟩ => ?_
      have o₂ := (Expr.letIn rest b).tidy ho hx₂
      have o₂' := (Expr.letIn rest b).tidy ho' hy₂
      exact ⟨rfl, .ok ⟨π₂, r₁.andThen o hΓ r₂ o₂.subst o₂'.subst⟩⟩

theorem Expr.equivariant (e : Expr) : e.Equivariant := by
  induction e using Expr.induction_nested with
  | lit l => exact Expr.equivariant_lit l
  | var x => exact Expr.equivariant_var x
  | app f a ihf iha => exact Expr.equivariant_app ihf iha
  | abs x b ih => exact Expr.equivariant_abs ih
  | other p b hp =>
    intro Γ Γ' ν π _ _ _ _ _
    unfold Check.Agree
    rw [Expr.exec_abs_other hp, Expr.exec_abs_other hp]
    exact ⟨rfl, .error rfl⟩
  | group e ih =>
    intro Γ Γ' ν π hΓ hπ h hc hc'
    rw [Expr.infer_group, Expr.infer_group]
    cases hc with
    | group hc =>
      cases hc' with
      | group hc' => exact ih hΓ hπ h hc hc'
  | letNil b ih =>
    intro Γ Γ' ν π hΓ hπ h hc hc'
    cases hc with
    | letNil hc =>
      cases hc' with
      | letNil hc' =>
        exact (ih hΓ hπ h hc hc').of_exec (Expr.exec_letNil b.tidy hΓ)
          (Expr.exec_letNil b.tidy (hπ.avoids hΓ h))
  | letCons k x ps e rest b ihe ihb => exact Expr.equivariant_letCons ihe ihb

theorem Context.AlphaEquiv.supply_eq {Γ Γ' : Context} (h : Γ.AlphaEquiv Γ') :
    Γ'.supply = Γ.supply := by
  have hf : Γ'.freeVars = Γ.freeVars := by
    apply NameSet.ext_mem
    intro v
    rw [h.mem_freeVars]
    exact ⟨fun ⟨w, hw, he⟩ => he ▸ hw, fun hv => ⟨v, hv, rfl⟩⟩
  rw [Context.supply, Context.supply, hf]

/-- The names that a context quantifies do not matter, up to a renaming of the type that is found,
unless a substitution is caught on the way. -/
theorem inferType_alike_of_alphaEquiv {e : Expr} {Γ Γ' : Context} (h : Γ.AlphaEquiv Γ')
    (hc : CaptureFree e Γ Γ.supply) (hc' : CaptureFree e Γ' Γ'.supply) :
    Alike (fun t t' => ∃ π, Function.Injective π ∧ t' = t.rename π)
      (inferType e Γ) (inferType e Γ') := by
  have hπ : Γ.supply.Spares id := ⟨fun _ _ he => he, fun _ _ => rfl⟩
  rw [h.supply_eq] at hc'
  obtain ⟨-, ha⟩ := e.equivariant Γ.avoids_supply hπ h hc hc'
  unfold inferType inferWithSubst
  rw [h.supply_eq]
  exact ha.map fun x y ⟨π', r⟩ => ⟨π', r.spares.injective, r.type⟩

/-- `f` at the scheme `∀ v. v -> z`. -/
def mixedContext (v : String) : Context :=
  .singleton "f" (.poly [v] (.fn (.var v) (.var "z")))

/-- Written `let u = f 1 in f`. -/
def useTwice : Expr :=
  .letIn (.cons "u" ⟨"u", none⟩ [] (.app (.var ⟨"f", none⟩) (.lit (.int 1))) .nil)
    (.var ⟨"f", none⟩)

theorem mixedContext_alphaEquiv {v w : String} (hv : v ≠ "z") (hw : w ≠ "z") :
    (mixedContext v).AlphaEquiv (mixedContext w) := by
  have hr : (Scheme.poly [v] (.fn (.var v) (.var "z"))).RenamedBy (fun _ => w) id
      (.poly [w] (.fn (.var w) (.var "z"))) := by
    constructor
    case maps => simp [Scheme.poly]
    case injective => simp +contextual [Scheme.poly]
    case surjective => simp [Scheme.poly]
    case free =>
      intro u hu
      have hu : (u = v ∨ u = "z") ∧ u ≠ v := by
        simpa [Scheme.mem_freeVars, Scheme.poly, Ty.vars] using hu
      have hz : u = "z" := hu.1.resolve_left hu.2
      simpa [Scheme.poly, hz] using Ne.symm hw
    case body => simp [Scheme.poly, Ne.symm hv]
  intro x
  unfold mixedContext
  rw [NameMap.get?_singleton, NameMap.get?_singleton]
  by_cases hx : x = "f"
  · rw [if_pos hx, if_pos hx]
    exact .inr ⟨_, _, rfl, rfl, _, hr⟩
  · rw [if_neg hx, if_neg hx]
    exact .inl ⟨rfl, rfl⟩

theorem useTwice_captureFree {v : String} (hv : v = "p" ∨ v = "q") :
    CaptureFree useTwice (mixedContext v) (mixedContext v).supply := by
  have hend : ((useTwice.infer (mixedContext v)).exec (mixedContext v).supply).2 =
      ⟨3, .ofNames ["z"]⟩ := by
    rcases hv with rfl | rfl <;> cbv
  refine useTwice.captureFree_of_guarded (Context.avoids_supply _) (.refl _) ?_
  intro x σ hσ _ _ q hq hp
  rw [hend] at hp
  have hq : q = v := by
    rw [mixedContext, NameMap.get?_singleton] at hσ
    split at hσ
    · cases hσ
      simpa [Scheme.poly] using hq
    · cases hσ
  subst hq
  rcases hv with rfl | rfl
  · exact hp.elim (by decide) fun h => h.2 ⟨by decide, 16, by decide, by cbv⟩
  · exact hp.elim (by decide) fun h => h.2 ⟨by decide, 17, by decide, by cbv⟩

theorem useTwice_alike :
    Alike (fun t t' => ∃ π, Function.Injective π ∧ t' = t.rename π)
      (inferType useTwice (mixedContext "p")) (inferType useTwice (mixedContext "q")) :=
  inferType_alike_of_alphaEquiv (mixedContext_alphaEquiv (by decide) (by decide))
    (useTwice_captureFree (.inl rfl)) (useTwice_captureFree (.inr rfl))

/-- With `'a` quantified the type of `u` is caught: `'c -> 'c` in place of `'c -> 'a`. -/
theorem useTwice_not_alike :
    (mixedContext "q").AlphaEquiv (mixedContext "a") ∧
      ¬ Alike (fun t t' => ∃ π, Function.Injective π ∧ t' = t.rename π)
        (inferType useTwice (mixedContext "q")) (inferType useTwice (mixedContext "a")) := by
  refine ⟨mixedContext_alphaEquiv (by decide) (by decide), fun h => ?_⟩
  have hq : inferType useTwice (mixedContext "q") = .ok (.fn (.var "c") (.var "a")) := by cbv
  have ha : inferType useTwice (mixedContext "a") = .ok (.fn (.var "c") (.var "c")) := by cbv
  rw [hq, ha] at h
  cases h with
  | ok hr =>
    obtain ⟨π, hπ, he⟩ := hr
    rw [Ty.rename_fn, Ty.rename_var, Ty.rename_var] at he
    simp only [Ty.fn, Ty.app.injEq, Ty.var.injEq, true_and] at he
    exact absurd (hπ (he.1.symm.trans he.2)) (by decide)

end LetPoly
