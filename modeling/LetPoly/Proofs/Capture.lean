import LetPoly.Proofs.Nesting
import LetPoly.Proofs.Typing

/-!
Substitution in a scheme renames nothing, so an image that mentions a quantified name would be
caught. It is not as long as no scheme with a free variable quantifies a name in play
(`Context.Guarded`), and a run keeps its contexts that way: what a binding quantifies is out of play
from then on, so nothing is caught on the way (`CaptureFree`).
-/

set_option autoImplicit false

namespace LetPoly

/-- The same names in scope, with related schemes. -/
def Context.Pointwise (R : Scheme → Scheme → Prop) (Γ Δ : Context) : Prop :=
  ∀ x, (Γ.get? x = none ∧ Δ.get? x = none) ∨
    ∃ σ σ', Γ.get? x = some σ ∧ Δ.get? x = some σ' ∧ R σ σ'

namespace Context.Pointwise

variable {R S : Scheme → Scheme → Prop} {Γ Δ Γ' Δ' : Context} {x : String} {σ σ' : Scheme}

theorem of_left (h : Pointwise R Γ Δ) (hx : Γ.get? x = some σ) :
    ∃ σ', Δ.get? x = some σ' ∧ R σ σ' := by
  rcases h x with ⟨hn, _⟩ | ⟨τ, σ', hτ, hσ', hr⟩
  · simp [hn] at hx
  · rw [hx] at hτ
    cases hτ
    exact ⟨σ', hσ', hr⟩

theorem of_right (h : Pointwise R Γ Δ) (hx : Δ.get? x = some σ') :
    ∃ σ, Γ.get? x = some σ ∧ R σ σ' := by
  rcases h x with ⟨_, hn⟩ | ⟨σ, τ, hσ, hτ, hr⟩
  · simp [hn] at hx
  · rw [hx] at hτ
    cases hτ
    exact ⟨σ, hσ, hr⟩

theorem map (h : Pointwise R Γ Δ) {f g : Scheme → Scheme}
    (hf : ∀ x, Γ'.get? x = (Γ.get? x).map f) (hg : ∀ x, Δ'.get? x = (Δ.get? x).map g)
    (hS : ∀ x σ σ', Γ.get? x = some σ → Δ.get? x = some σ' → R σ σ' → S (f σ) (g σ')) :
    Pointwise S Γ' Δ' := by
  intro x
  rcases h x with ⟨hn, hn'⟩ | ⟨σ, σ', hσ, hσ', hr⟩
  · exact .inl ⟨by simp [hf, hn], by simp [hg, hn']⟩
  · exact .inr ⟨f σ, g σ', by simp [hf, hσ], by simp [hg, hσ'], hS x σ σ' hσ hσ' hr⟩

theorem insert (h : Pointwise R Γ Δ) (x : String) (hσ : R σ σ') :
    Pointwise R (Γ.insert x σ) (Δ.insert x σ') := by
  intro y
  rw [NameMap.get?_insert, NameMap.get?_insert]
  by_cases hy : y = x
  · exact .inr ⟨σ, σ', by simp [hy], by simp [hy], hσ⟩
  · simpa [hy] using h y

end Context.Pointwise

/-- Where the scheme has a free variable, none of its quantified names is in `Q`. -/
def Scheme.Guarded (σ : Scheme) (Q : String → Prop) : Prop :=
  ∀ v ∈ σ.freeVars, ∀ q ∈ σ.vars, ¬ Q q

def Context.Guarded (Γ : Context) (Q : String → Prop) : Prop :=
  ∀ x σ, Γ.get? x = some σ → σ.Guarded Q

def Context.NoCapture (Γ : Context) (s : Subst) : Prop :=
  ∀ x σ, Γ.get? x = some σ → σ.NoCapture s

namespace Scheme

variable {σ : Scheme} {Q : String → Prop} {s outer inner : Subst}

theorem Guarded.apply (h : σ.Guarded Q) (s : Subst) : (σ.apply s).Guarded Q := by
  intro v hv q hq
  obtain ⟨w, hw, -⟩ := mem_freeVars_apply hv
  exact h w hw q hq

theorem Guarded.noCapture (h : σ.Guarded Q) (hs : s.Within Q) : σ.NoCapture s := by
  intro v hv w hw hq
  rcases Ty.mem_vars_apply_var hw with ⟨he, -⟩ | ⟨u, hu, hw⟩
  · exact (mem_freeVars.1 hv).2 (he ▸ hq)
  · exact h v hv w hq (hs.value v u hu w hw).1

theorem apply_compose (h : σ.NoCapture inner) (ho : outer.Within Q) :
    σ.apply (outer.compose inner) = (σ.apply inner).apply outer := by
  suffices hb : σ.body.apply ((outer.compose inner).without σ.vars) =
      (σ.body.apply (inner.without σ.vars)).apply (outer.without σ.vars) by
    simp only [apply, hb]
  rw [Ty.apply_eq_bind, Ty.apply_eq_bind (outer.without σ.vars), Ty.bind_apply]
  apply Ty.bind_congr
  intro v hv
  rw [Subst.apply_var_without, Subst.apply_var_without]
  by_cases hq : v ∈ σ.vars
  · rw [if_pos hq, if_pos hq, Ty.bind_var, Subst.apply_var_without, if_pos hq]
  · rw [if_neg hq, if_neg hq, ho.apply_compose, Ty.apply_eq_bind]
    apply Ty.bind_congr
    intro w hw
    rw [Subst.apply_var_without, if_neg (h v (mem_freeVars.2 ⟨hv, hq⟩) w hw)]

end Scheme

@[simp] theorem Scheme.apply_mono (t : Ty) (s : Subst) : (mono t).apply s = mono (t.apply s) := by
  have hs : s.without ∅ = s := by
    ext1 v
    simp
  simp only [apply, mono, hs]

namespace Context

variable {Γ Δ : Context} {Q R : String → Prop} {s outer inner : Subst} {ν ν₁ ν₂ : NameSupply}

theorem apply_insert (Γ : Context) (x : String) (σ : Scheme) (s : Subst) :
    Context.apply s (Γ.insert x σ) = (Γ.apply s).insert x (σ.apply s) := by
  ext1 y
  rw [get?_apply, NameMap.get?_insert, NameMap.get?_insert, get?_apply]
  split <;> rfl

theorem Guarded.mono (h : Γ.Guarded Q) (hR : ∀ v, R v → Q v) : Γ.Guarded R :=
  fun x σ hσ v hv q hq hr => h x σ hσ v hv q hq (hR q hr)

theorem Guarded.apply (h : Γ.Guarded Q) (s : Subst) : (Γ.apply s).Guarded Q := by
  intro x σ' hx
  rw [get?_apply] at hx
  obtain ⟨σ, hσ, rfl⟩ := Option.map_eq_some_iff.1 hx
  exact (h x σ hσ).apply s

theorem Guarded.insert (h : Γ.Guarded Q) {x : String} {σ : Scheme} (hσ : σ.Guarded Q) :
    Context.Guarded (Γ.insert x σ) Q := by
  intro y τ hy
  rw [NameMap.get?_insert] at hy
  split at hy
  · cases hy
    exact hσ
  · exact h y τ hy

theorem Guarded.upTo (h : Γ.Guarded (Γ.InPlay ν ν₂)) (hr : ν₁.Reaches ν₂) :
    Γ.Guarded (Γ.InPlay ν ν₁) :=
  h.mono fun _ hv => hv.later hr

theorem Guarded.fresh (h : Γ.Guarded (Γ.InPlay ν ν₁)) :
    Γ.Guarded (Γ.InPlay (NameSupply.fresh ν).2 ν₁) :=
  h.mono fun _ hv => hv.earlier ν.reaches_fresh

theorem Guarded.insert_fresh (h : Γ.Guarded (Γ.InPlay ν ν₁))
    (hr : (NameSupply.fresh ν).2.Reaches ν₁) (x : String) :
    Context.Guarded (Γ.insert x (.mono (.var (NameSupply.fresh ν).1)))
      (Context.InPlay (Γ.insert x (.mono (.var (NameSupply.fresh ν).1)))
        (NameSupply.fresh ν).2 ν₁) := by
  refine Guarded.insert (h.mono fun v hv => hv.of_insert_fresh hr) fun _ _ q hq => ?_
  exact absurd hq (NameMap.not_mem_empty q)

theorem Guarded.later {t : Ty} (h : Γ.Guarded (Γ.InPlay ν ν₂)) (hΓ : ν.Avoids Γ)
    (o : Outcome Γ ν s t ν₁) (hr : ν₁.Reaches ν₂) :
    (Γ.apply s).Guarded ((Γ.apply s).InPlay ν₁ ν₂) :=
  (h.apply s).mono fun _ hv => (o.inPlay_later hΓ hr (fun _ hw => hw) hv).1

theorem Guarded.afterBinding {t : Ty} (h : Γ.Guarded (Γ.InPlay ν ν₂)) (hΓ : ν.Avoids Γ)
    (o : Outcome Γ ν s t ν₁) (hr : ν₁.Reaches ν₂) (x : String) :
    (Γ.afterBinding s x t).Guarded ((Γ.afterBinding s x t).InPlay ν₁ ν₂) := by
  refine Guarded.insert ((h.later hΓ o hr).mono fun v hv => ?_) fun _ _ q hq hp => ?_
  · exact Or.imp_left mem_freeVars_afterBinding hv
  · obtain ⟨ht, hfree⟩ := mem_vars_generalize.1 hq
    rcases hp with hp | hp
    · exact hfree (mem_freeVars_afterBinding hp)
    · exact (o.type q ht).1.not_pending hΓ o.reaches hp.1

theorem Guarded.noCapture (h : Γ.Guarded Q) (hs : s.Within Q) : Γ.NoCapture s :=
  fun x σ hσ => (h x σ hσ).noCapture hs

theorem apply_compose (h : Γ.NoCapture inner) (ho : outer.Within R) :
    Γ.apply (outer.compose inner) = (Γ.apply inner).apply outer := by
  ext1 x
  rw [get?_apply, get?_apply, get?_apply]
  cases hσ : Γ.get? x with
  | none => rfl
  | some σ => simp [Scheme.apply_compose (h x σ hσ) ho]

theorem NoCapture.mapsInto (h : Γ.NoCapture s) :
    Γ.MapsInto (fun v => (Ty.var v).apply s) (Γ.apply s) := by
  intro x σ hσ
  refine ⟨σ.apply s, by rw [get?_apply, hσ]; rfl, fun ρ => ?_⟩
  rw [Scheme.instance_iff]
  refine ⟨ρ, ?_⟩
  rw [Scheme.specialize_apply (h x σ hσ)]
  simp only [Ty.bind_id]

end Context

theorem HasType.apply {Γ : Context} {s : Subst} {e : Expr} {t : Ty} (h : HasType Γ e t)
    (hs : Γ.NoCapture s) : HasType (Γ.apply s) e (t.apply s) := by
  rw [Ty.apply_eq_bind]
  exact h.subst hs.mapsInto

/-- Nothing is quantified, or nothing is free. -/
def Scheme.MonoOrClosed (σ : Scheme) : Prop := σ.vars = ∅ ∨ σ.freeVars = ∅

instance (σ : Scheme) : Decidable σ.MonoOrClosed := inferInstanceAs (Decidable (_ ∨ _))

def Context.MonoOrClosed (Γ : Context) : Prop := ∀ x ∈ Γ.entries, x.2.MonoOrClosed

instance (Γ : Context) : Decidable Γ.MonoOrClosed :=
  inferInstanceAs (Decidable (∀ x ∈ Γ.entries, x.2.MonoOrClosed))

theorem Scheme.MonoOrClosed.noCapture {σ : Scheme} (h : σ.MonoOrClosed) (s : Subst) :
    σ.NoCapture s := by
  intro v hv w _ hq
  rcases h with he | he
  · exact absurd (he ▸ hq) (NameMap.not_mem_empty w)
  · exact absurd (he ▸ hv) (NameMap.not_mem_empty v)

theorem Context.MonoOrClosed.noCapture {Γ : Context} (h : Γ.MonoOrClosed) (s : Subst) :
    Γ.NoCapture s :=
  fun x σ hσ => Scheme.MonoOrClosed.noCapture (h (x, σ) (NameMap.mem_entries.2 hσ)) s

theorem Context.MonoOrClosed.guarded {Γ : Context} (h : Γ.MonoOrClosed) (Q : String → Prop) :
    Γ.Guarded Q := by
  intro x σ hσ v hv q hq
  rcases h (x, σ) (NameMap.mem_entries.2 hσ) with he | he
  · exact absurd (he ▸ hq) (NameMap.not_mem_empty q)
  · exact absurd (he ▸ hv) (NameMap.not_mem_empty v)

/-- No substitution that the checker carries out on a scope, from `ν` on, is caught by a quantifier
there. -/
inductive CaptureFree : Expr → Context → NameSupply → Prop
  | lit {l : Literal} {Γ : Context} {ν : NameSupply} : CaptureFree (.lit l) Γ ν
  | var {x : Ident} {Γ : Context} {ν : NameSupply} : CaptureFree (.var x) Γ ν
  | app {f a : Expr} {Γ : Context} {ν : NameSupply} : CaptureFree f Γ (NameSupply.fresh ν).2 →
    (∀ s t ν₁, (f.infer Γ).exec (NameSupply.fresh ν).2 = (.ok (s, t), ν₁) → Γ.NoCapture s) →
    (∀ s t ν₁, (f.infer Γ).exec (NameSupply.fresh ν).2 = (.ok (s, t), ν₁) →
      CaptureFree a (Γ.apply s) ν₁) → CaptureFree (.app f a) Γ ν
  | abs {x : Ident} {b : Expr} {Γ : Context} {ν : NameSupply} :
    CaptureFree b (Γ.insert x.name (.mono (.var (NameSupply.fresh ν).1))) (NameSupply.fresh ν).2 →
    CaptureFree (.abs (.var x) b) Γ ν
  | other {p : Pattern} {b : Expr} {Γ : Context} {ν : NameSupply} :
    (∀ x, p ≠ .var x) → CaptureFree (.abs p b) Γ ν
  | group {e : Expr} {Γ : Context} {ν : NameSupply} :
    CaptureFree e Γ ν → CaptureFree (.group e) Γ ν
  | letNil {b : Expr} {Γ : Context} {ν : NameSupply} :
    CaptureFree b Γ ν → CaptureFree (.letIn .nil b) Γ ν
  | letCons {k : String} {x : Ident} {ps : List Pattern} {e b : Expr} {rest : Bindings}
    {Γ : Context} {ν : NameSupply} : CaptureFree (.lambdas ps e) Γ ν →
    (∀ s t ν₁, ((Expr.lambdas ps e).infer Γ).exec ν = (.ok (s, t), ν₁) → Γ.NoCapture s) →
    (∀ s t ν₁, ((Expr.lambdas ps e).infer Γ).exec ν = (.ok (s, t), ν₁) →
      CaptureFree (.letIn rest b) (Γ.afterBinding s x.name t) ν₁) →
    CaptureFree (.letIn (.cons k x ps e rest) b) Γ ν

/-- Nothing is caught as long as no scheme with a free variable quantifies a name in play. -/
theorem Expr.captureFree_of_guarded (e : Expr) : ∀ {Γ : Context} {ν ν' : NameSupply},
    ν.Avoids Γ → ((e.infer Γ).exec ν).2.Reaches ν' → Γ.Guarded (Γ.InPlay ν ν') →
      CaptureFree e Γ ν := by
  induction e using Expr.induction_nested with
  | lit l => intro Γ ν ν' _ _ _; exact .lit
  | var x => intro Γ ν ν' _ _ _; exact .var
  | other p b hp => intro Γ ν ν' _ _ _; exact .other hp
  | group e ih =>
    intro Γ ν ν' hΓ hr hg
    rw [Expr.infer_group] at hr
    exact .group (ih hΓ hr hg)
  | abs x b ih =>
    intro Γ ν ν' hΓ hr hg
    rw [Expr.exec_abs] at hr
    have hb := Check.reaches_of_bind hr fun _ => Check.advances_pure _
    have hβ := (b.advances_infer _ _).trans hb
    exact .abs (ih (hΓ.insert_fresh x.name) hb (hg.insert_fresh hβ x.name))
  | app f a ihf iha =>
    intro Γ ν ν' hΓ hr hg
    rw [Expr.exec_app] at hr
    have hf := Check.reaches_of_bind hr fun x => (a.advances_infer _).bind fun y =>
      (Check.advances_unify _ _).bind fun _ => Check.advances_pure _
    have hg := hg.fresh
    refine .app (ihf hΓ.fresh hf hg) (fun s t ν₁ h => ?_) (fun s t ν₁ h => ?_)
    · have of := f.tidy hΓ.fresh h
      rw [h] at hf
      exact (hg.upTo hf).noCapture of.subst
    · have of := f.tidy hΓ.fresh h
      have ha := Check.reaches_of_bind_ok hr h
      dsimp only at ha
      have ha := Check.reaches_of_bind ha fun y =>
        (Check.advances_unify _ _).bind fun _ => Check.advances_pure _
      rw [h] at hf
      exact iha (of.avoids hΓ.fresh) ha (hg.later hΓ.fresh of hf)
  | letNil b ih =>
    intro Γ ν ν' hΓ hr hg
    rw [Expr.exec_letNil b.tidy hΓ] at hr
    exact .letNil (ih hΓ hr hg)
  | letCons k x ps e rest b ihe ihb =>
    intro Γ ν ν' hΓ hr hg
    rw [Expr.exec_letCons e.tidy (rest.tidy b b.tidy).2 k x ps hΓ] at hr
    have he := Check.reaches_of_bind hr fun y =>
      ((Expr.letIn rest b).advances_infer _).bind fun _ => Check.advances_pure _
    refine .letCons (ihe hΓ he hg) (fun s t ν₁ h => ?_) (fun s t ν₁ h => ?_)
    · have o := (Expr.lambdas ps e).tidy hΓ h
      rw [h] at he
      exact (hg.upTo he).noCapture o.subst
    · have o := (Expr.lambdas ps e).tidy hΓ h
      have hb := Check.reaches_of_bind_ok hr h
      dsimp only at hb
      have hb := Check.reaches_of_bind hb fun _ => Check.advances_pure _
      rw [h] at he
      exact ihb (Context.avoids_afterBinding hΓ o x.name) hb (hg.afterBinding hΓ o he x.name)

end LetPoly
