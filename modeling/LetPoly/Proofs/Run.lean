import LetPoly.Infer
import LetPoly.Proofs.Supply
import Mathlib

/-!
Runs of the checker. A run only moves its supply forward, and what a successful run returns is over
the free variables of the context and the names drawn on the way, with no bound name left in a value
or in the type (`Outcome`).
-/

set_option autoImplicit false

namespace LetPoly

namespace Check

variable {α β : Type}

/-- The result from a supply, with what is left of it. -/
def exec (x : Check α) (ν : NameSupply) : Except TypeError α × NameSupply := x.run ν

theorem exec_bind (x : Check α) (f : α → Check β) (ν : NameSupply) :
    (x >>= f).exec ν =
      match x.exec ν with
      | (.ok a, ν') => (f a).exec ν'
      | (.error e, ν') => (.error e, ν') := by
  show (match x.exec ν with | (r, ν') => (ExceptT.bindCont f r) ν') = _
  obtain ⟨r, ν'⟩ := x.exec ν
  cases r <;> rfl

@[simp] theorem exec_pure (a : α) (ν : NameSupply) : (pure a : Check α).exec ν = (.ok a, ν) := rfl

@[simp] theorem exec_fresh (ν : NameSupply) :
    Check.fresh.exec ν = (.ok (NameSupply.fresh ν).1, (NameSupply.fresh ν).2) := rfl

@[simp] theorem exec_instantiate (σ : Scheme) (ν : NameSupply) :
    (Check.instantiate σ).exec ν = (.ok (σ.instantiate ν).1, (σ.instantiate ν).2) := rfl

@[simp] theorem exec_unify (l r : Ty) (ν : NameSupply) :
    (Check.unify l r).exec ν = ((LetPoly.unify l r).mapError .unify, ν) := rfl

theorem exec_bind_ok {x : Check α} {f : α → Check β} {ν ν'' : NameSupply} {b : β} :
    (x >>= f).exec ν = (.ok b, ν'') ↔
      ∃ a ν', x.exec ν = (.ok a, ν') ∧ (f a).exec ν' = (.ok b, ν'') := by
  rw [exec_bind]
  constructor
  · intro h
    split at h
    · rename_i a ν' hx
      exact ⟨a, ν', hx, h⟩
    · cases h
  · intro ⟨a, ν', hx, h⟩
    rw [hx]
    exact h

theorem exec_bind_congr {x y : Check α} {f g : α → Check β} {ν : NameSupply}
    (hx : x.exec ν = y.exec ν)
    (h : ∀ a ν', x.exec ν = (.ok a, ν') → (f a).exec ν' = (g a).exec ν') :
    (x >>= f).exec ν = (y >>= g).exec ν := by
  rw [exec_bind, exec_bind, ← hx]
  split
  · rename_i a ν' ha
    exact h a ν' ha
  · rfl

/-- Never goes back in the supply, whether it fails or not. -/
def Advances (x : Check α) : Prop := ∀ ν : NameSupply, ν.Reaches (x.exec ν).2

theorem advances_pure (a : α) : (pure a : Check α).Advances := fun ν => .refl ν

theorem advances_throw (e : TypeError) : (throw e : Check α).Advances := fun ν => .refl ν

theorem advances_unify (l r : Ty) : (Check.unify l r).Advances := fun ν => .refl ν

theorem Advances.bind {x : Check α} {f : α → Check β} (hx : x.Advances)
    (hf : ∀ a, (f a).Advances) : (x >>= f).Advances := by
  intro ν
  rw [exec_bind]
  have hν := hx ν
  cases h : x.exec ν with
  | mk r ν' =>
    rw [h] at hν
    cases r with
    | ok a => exact hν.trans (hf a ν')
    | error e => exact hν

theorem reaches_of_bind {x : Check α} {f : α → Check β} {ν ν' : NameSupply}
    (h : ((x >>= f).exec ν).2.Reaches ν') (hf : ∀ a, (f a).Advances) : (x.exec ν).2.Reaches ν' := by
  rw [exec_bind] at h
  cases hx : x.exec ν with
  | mk r ν₁ =>
    rw [hx] at h
    cases r with
    | ok a => exact (hf a ν₁).trans h
    | error e => exact h

theorem reaches_of_bind_ok {x : Check α} {f : α → Check β} {ν ν₁ ν' : NameSupply} {a : α}
    (h : ((x >>= f).exec ν).2.Reaches ν') (hx : x.exec ν = (.ok a, ν₁)) :
    ((f a).exec ν₁).2.Reaches ν' := by
  rwa [exec_bind, hx] at h

def Yields (x : Check α) (P : α → Prop) : Prop :=
  ∀ ⦃ν a ν'⦄, x.exec ν = (.ok a, ν') → P a

theorem yields_pure {P : α → Prop} {a : α} (h : P a) : (pure a : Check α).Yields P := by
  intro ν b ν' hb
  cases hb
  exact h

theorem yields_throw {P : α → Prop} (e : TypeError) : (throw e : Check α).Yields P := by
  intro ν a ν' h
  cases h

theorem Yields.bind {x : Check α} {f : α → Check β} {P : α → Prop} {Q : β → Prop} (hx : x.Yields P)
    (hf : ∀ a, P a → (f a).Yields Q) : (x >>= f).Yields Q := by
  intro ν b ν'' h
  obtain ⟨a, ν', ha, hb⟩ := exec_bind_ok.1 h
  exact hf a (hx ha) hb

end Check

open Check

theorem Pattern.advances_infer (p : Pattern) (Γ : Context) : (p.infer Γ).Advances := by
  intro ν
  cases p with
  | var x => exact NameSupply.reaches_fresh ν
  | wildcard => exact .refl ν
  | lit l => exact .refl ν
  | named x p => exact .refl ν
  | con c ps => exact .refl ν

theorem Pattern.advances_inferAll (ps : List Pattern) (Γ : Context) :
    (Pattern.inferAll ps Γ).Advances := by
  induction ps generalizing Γ with
  | nil => exact advances_pure _
  | cons p ps ih =>
    exact (p.advances_infer Γ).bind fun x => (ih x.2).bind fun _ => advances_pure _

theorem Check.advances_function {ps : List Pattern} {body : Context → Check (Subst × Ty)}
    (h : ∀ Γ, (body Γ).Advances) (Γ : Context) : (Check.function ps body Γ).Advances :=
  (Pattern.advances_inferAll ps Γ).bind fun x => (h x.2).bind fun _ => advances_pure _

mutual
theorem Expr.advances_infer : (e : Expr) → (Γ : Context) → (e.infer Γ).Advances
  | .group e, Γ => by
    rw [Expr.infer_group]
    exact e.advances_infer Γ
  | .lit l, Γ => by
    rw [Expr.infer_lit]
    exact advances_pure _
  | .var x, Γ => by
    rw [Expr.infer_var]
    split
    · exact advances_throw _
    · rename_i σ _
      exact Advances.bind (fun ν => σ.reaches_instantiate ν) fun _ => advances_pure _
  | .app f a, Γ => by
    rw [Expr.infer_app]
    refine Advances.bind (fun ν => ν.reaches_fresh) fun v => ?_
    refine (f.advances_infer Γ).bind fun x => ?_
    refine (a.advances_infer _).bind fun y => ?_
    exact (advances_unify _ _).bind fun _ => advances_pure _
  | .abs p b, Γ => by
    rw [Expr.infer_abs]
    exact (p.advances_infer Γ).bind fun x => (b.advances_infer _).bind fun _ => advances_pure _
  | .letIn bs b, Γ => by
    rw [Expr.infer_let]
    exact (bs.advances_infer ∅ Γ).bind fun x => (b.advances_infer _).bind fun _ => advances_pure _

theorem Bindings.advances_infer :
    (bs : Bindings) → (s : Subst) → (Γ : Context) → (bs.infer s Γ).Advances
  | .nil, s, Γ => by
    rw [Bindings.infer_nil]
    exact advances_pure _
  | .cons k x ps e rest, s, Γ => by
    rw [Bindings.infer_cons]
    exact (advances_function e.advances_infer Γ).bind fun y => rest.advances_infer _ _
end

theorem Binding.advances_infer (b : Binding) (Γ : Context) : (b.infer Γ).Advances :=
  advances_function b.body.advances_infer Γ

theorem Scheme.mem_freeVars_apply {σ : Scheme} {s : Subst} {v : String}
    (h : v ∈ (σ.apply s).freeVars) : ∃ w ∈ σ.freeVars, v ∈ ((Ty.var w).apply s).vars := by
  obtain ⟨hb, hq⟩ := mem_freeVars.1 h
  obtain ⟨w, hw, hv⟩ := Ty.mem_vars_apply.1 hb
  rw [Subst.apply_var_without] at hv
  split at hv
  · rename_i hwq
    have hvw : v = w := Ty.mem_vars_var.1 hv
    exact absurd (hvw ▸ hwq) hq
  · rename_i hwq
    exact ⟨w, mem_freeVars.2 ⟨hw, hwq⟩, hv⟩

@[simp] theorem Scheme.mem_freeVars_mono {t : Ty} {v : String} :
    v ∈ (Scheme.mono t).freeVars ↔ v ∈ t.vars := by
  simp [mem_freeVars, mono]

namespace Context

theorem mem_freeVars_apply {Γ : Context} {s : Subst} {v : String}
    (h : v ∈ (Γ.apply s).freeVars) : ∃ w ∈ Γ.freeVars, v ∈ ((Ty.var w).apply s).vars := by
  obtain ⟨x, σ', hx, hv⟩ := mem_freeVars.1 h
  rw [get?_apply] at hx
  obtain ⟨σ, hσ, rfl⟩ := Option.map_eq_some_iff.1 hx
  obtain ⟨w, hw, hv⟩ := Scheme.mem_freeVars_apply hv
  exact ⟨w, mem_freeVars.2 ⟨x, σ, hσ, hw⟩, hv⟩

theorem mem_freeVars_insert {Γ : Context} {x : String} {σ : Scheme} {v : String}
    (h : v ∈ Context.freeVars (Γ.insert x σ)) : v ∈ σ.freeVars ∨ v ∈ Γ.freeVars := by
  obtain ⟨y, σ', hy, hv⟩ := mem_freeVars.1 h
  rw [NameMap.get?_insert] at hy
  split at hy
  · cases hy
    exact .inl hv
  · exact .inr (mem_freeVars.2 ⟨y, σ', hy, hv⟩)

/-- The scope after a binding of `x` that gave `s` and `t`. -/
def afterBinding (Γ : Context) (s : Subst) (x : String) (t : Ty) : Context :=
  (Γ.apply s).insert x ((Γ.apply s).generalize t)

theorem mem_freeVars_generalize {Γ : Context} {t : Ty} {v : String}
    (h : v ∈ (Γ.generalize t).freeVars) : v ∈ Γ.freeVars := by
  obtain ⟨ht, hv⟩ := Scheme.mem_freeVars.1 h
  by_cases hΓ : v ∈ Γ.freeVars
  · exact hΓ
  · exact absurd (mem_vars_generalize.2 ⟨ht, hΓ⟩) hv

theorem mem_freeVars_afterBinding {Γ : Context} {s : Subst} {x : String} {t : Ty} {v : String}
    (h : v ∈ (Γ.afterBinding s x t).freeVars) : v ∈ (Γ.apply s).freeVars := by
  rcases mem_freeVars_insert h with h | h
  · exact mem_freeVars_generalize h
  · exact h

/-- Free in the context, or drawn on the way. -/
def InPlay (Γ : Context) (ν ν' : NameSupply) (v : String) : Prop :=
  v ∈ Γ.freeVars ∨ ν.Pending v ∧ ¬ ν'.Pending v

end Context

/-- No pending name is free in the context. -/
def NameSupply.Avoids (ν : NameSupply) (Γ : Context) : Prop := ∀ v ∈ Γ.freeVars, ¬ ν.Pending v

theorem Context.avoids_supply (Γ : Context) : Γ.supply.Avoids Γ := fun _ hv hp => hp.1 hv

theorem Context.InPlay.not_pending {Γ : Context} {ν ν' : NameSupply} {v : String}
    (hΓ : ν.Avoids Γ) (hr : ν.Reaches ν') (h : Γ.InPlay ν ν' v) : ¬ ν'.Pending v := by
  rcases h with h | h
  · exact fun hp => hΓ v h (hr.pending hp)
  · exact h.2

theorem Context.InPlay.later {Γ : Context} {ν ν₁ ν₂ : NameSupply} {v : String}
    (hr : ν₁.Reaches ν₂) (h : Γ.InPlay ν ν₁ v) : Γ.InPlay ν ν₂ v :=
  h.imp_right fun hp => ⟨hp.1, fun hv => hp.2 (hr.pending hv)⟩

theorem Context.InPlay.earlier {Γ : Context} {ν₀ ν ν' : NameSupply} {v : String}
    (hr : ν₀.Reaches ν) (h : Γ.InPlay ν ν' v) : Γ.InPlay ν₀ ν' v :=
  h.imp_right fun hp => ⟨hr.pending hp.1, hp.2⟩

theorem Context.inPlay_fresh (Γ : Context) {ν ν' : NameSupply}
    (hr : (NameSupply.fresh ν).2.Reaches ν') : Γ.InPlay ν ν' (NameSupply.fresh ν).1 :=
  .inr ⟨ν.pending_fresh, fun hp => ν.not_pending_fresh (hr.pending hp)⟩

theorem Context.InPlay.of_insert_fresh {Γ : Context} {ν ν' : NameSupply} {x v : String}
    (hr : (NameSupply.fresh ν).2.Reaches ν')
    (h : Context.InPlay (Γ.insert x (.mono (.var (NameSupply.fresh ν).1)))
      (NameSupply.fresh ν).2 ν' v) : Γ.InPlay ν ν' v := by
  rcases h with h | h
  · rcases Context.mem_freeVars_insert h with h | h
    · have he : v = (NameSupply.fresh ν).1 := Ty.mem_vars_var.1 (Scheme.mem_freeVars_mono.1 h)
      exact he ▸ Γ.inPlay_fresh hr
    · exact .inl h
  · exact .inr ⟨ν.reaches_fresh.pending h.1, h.2⟩

/-- Everything is in play, and no bound name is left in a value or in the type. -/
structure Outcome (Γ : Context) (ν : NameSupply) (s : Subst) (t : Ty) (ν' : NameSupply) : Prop where
  reaches : ν.Reaches ν'
  subst : s.Within (Γ.InPlay ν ν')
  type : ∀ v ∈ t.vars, Γ.InPlay ν ν' v ∧ v ∉ s

namespace Outcome

variable {Γ Δ : Context} {ν ν₁ ν₂ : NameSupply} {s s₁ s₂ : Subst} {t t₁ t₂ : Ty} {v : String}

theorem apply_type (o : Outcome Γ ν s t ν₁) : t.apply s = t :=
  Ty.apply_of_forall_not_mem fun v hv => (o.type v hv).2

theorem mem_freeVars_apply (o : Outcome Γ ν s t ν₁) (h : v ∈ (Γ.apply s).freeVars) :
    Γ.InPlay ν ν₁ v ∧ v ∉ s := by
  obtain ⟨w, hw, hv⟩ := Context.mem_freeVars_apply h
  refine o.subst.mem_vars_apply (fun u hu => ?_) hv
  exact .inl (Ty.mem_vars_var.1 hu ▸ hw)

theorem avoids (o : Outcome Γ ν s t ν₁) (hΓ : ν.Avoids Γ) : ν₁.Avoids (Γ.apply s) :=
  fun _ hv => (o.mem_freeVars_apply hv).1.not_pending hΓ o.reaches

theorem not_pending_apply (o : Outcome Γ ν s t ν₁) (hΓ : ν.Avoids Γ) {w : String}
    (hv : ¬ ν.Pending v) (hw : w ∈ ((Ty.var v).apply s).vars) : ¬ ν₁.Pending w := by
  rcases Ty.mem_vars_apply_var hw with ⟨he, -⟩ | ⟨u, hu, hw⟩
  · exact fun hp => hv (o.reaches.pending (he ▸ hp))
  · exact (o.subst.value v u hu w hw).1.not_pending hΓ o.reaches

theorem not_pending_type (o : Outcome Γ ν s t ν₁) (hΓ : ν.Avoids Γ) (hv : v ∈ t.vars) :
    ¬ ν₁.Pending v :=
  (o.type v hv).1.not_pending hΓ o.reaches

theorem inPlay_later (o : Outcome Γ ν s t ν₁) (hΓ : ν.Avoids Γ) (hr : ν₁.Reaches ν₂)
    (hΔ : ∀ v ∈ Δ.freeVars, v ∈ (Γ.apply s).freeVars) (h : Δ.InPlay ν₁ ν₂ v) :
    Γ.InPlay ν ν₂ v ∧ v ∉ s := by
  rcases h with h | h
  · have hv := o.mem_freeVars_apply (hΔ v h)
    exact ⟨hv.1.later hr, hv.2⟩
  · exact ⟨.inr ⟨o.reaches.pending h.1, h.2⟩,
      fun hs => (o.subst.key v hs).not_pending hΓ o.reaches h.1⟩

theorem andThen (o₁ : Outcome Γ ν s₁ t₁ ν₁) (hΓ : ν.Avoids Γ)
    (hΔ : ∀ v ∈ Δ.freeVars, v ∈ (Γ.apply s₁).freeVars) (o₂ : Outcome Δ ν₁ s₂ t₂ ν₂) :
    Outcome Γ ν (s₂.compose s₁) t₂ ν₂ := by
  have hr := o₁.reaches.trans o₂.reaches
  have hlater := fun v => o₁.inPlay_later (v := v) hΓ o₂.reaches hΔ
  have h₁ : s₁.Within (Γ.InPlay ν ν₂) := o₁.subst.mono fun v hv => hv.later o₂.reaches
  refine ⟨hr, h₁.compose o₂.subst hlater, fun v hv => ?_⟩
  obtain ⟨hp, hs₂⟩ := o₂.type v hv
  obtain ⟨hp, hs₁⟩ := hlater v hp
  exact ⟨hp, fun h => (Subst.mem_compose.1 h).elim hs₁ hs₂⟩

end Outcome

section Constructs

variable {Γ : Context} {ν ν' : NameSupply} {s : Subst} {t : Ty}

theorem Pattern.var_or_other (p : Pattern) : (∃ x, p = .var x) ∨ ∀ x, p ≠ .var x := by
  cases p with
  | var x => exact .inl ⟨x, rfl⟩
  | _ => exact .inr (by simp)

theorem Pattern.exec_infer_var (x : Ident) (Γ : Context) (ν : NameSupply) :
    ((Pattern.var x).infer Γ).exec ν =
      (.ok (.var (NameSupply.fresh ν).1, Γ.insert x.name (.mono (.var (NameSupply.fresh ν).1))),
        (NameSupply.fresh ν).2) := rfl

theorem Pattern.exec_infer_other {p : Pattern} (h : ∀ x, p ≠ .var x) (Γ : Context)
    (ν : NameSupply) :
    (p.infer Γ).exec ν =
      (.error (.unsupported (p.kind ++ " pattern `" ++ p.text ++ "`")), ν) := by
  cases p with
  | var x => exact absurd rfl (h x)
  | _ => rfl

theorem Expr.infer_lit_ok {l : Literal} :
    ((Expr.lit l).infer Γ).exec ν = (.ok (s, t), ν') ↔ s = ∅ ∧ t = l.ty ∧ ν' = ν := by
  rw [Expr.infer_lit, exec_pure, Prod.mk.injEq, Except.ok.injEq, Prod.mk.injEq]
  constructor
  · intro ⟨⟨hs, ht⟩, hν⟩
    exact ⟨hs.symm, ht.symm, hν.symm⟩
  · intro ⟨hs, ht, hν⟩
    exact ⟨⟨hs.symm, ht.symm⟩, hν.symm⟩

theorem Expr.infer_var_ok {x : Ident} :
    ((Expr.var x).infer Γ).exec ν = (.ok (s, t), ν') ↔
      ∃ σ, Γ.get? x.name = some σ ∧ s = ∅ ∧ t = (σ.instantiate ν).1 ∧
        ν' = (σ.instantiate ν).2 := by
  rw [Expr.infer_var]
  cases h : Γ.get? x.name with
  | none =>
    constructor
    · intro hr
      cases hr
    · intro ⟨_, hσ, _⟩
      cases hσ
  | some σ =>
    simp only [exec_bind_ok, exec_instantiate, exec_pure]
    constructor
    · intro ⟨_, _, h₁, h₂⟩
      cases h₁
      cases h₂
      exact ⟨σ, rfl, rfl, rfl, rfl⟩
    · intro ⟨_, h₁, hs, ht, hν⟩
      cases h₁
      exact ⟨_, _, rfl, by rw [hs, ht, hν]⟩

theorem Expr.exec_app (f a : Expr) (Γ : Context) (ν : NameSupply) :
    ((Expr.app f a).infer Γ).exec ν =
      (do
        let (s₁, tf) ← f.infer Γ
        let (s₂, ta) ← a.infer (Γ.apply s₁)
        let s₃ ← Check.unify (tf.apply s₂) (.fn ta (.var (NameSupply.fresh ν).1))
        return (s₃.compose (s₂.compose s₁), (Ty.var (NameSupply.fresh ν).1).apply s₃) :
          Check (Subst × Ty)).exec (NameSupply.fresh ν).2 := by
  rw [Expr.infer_app, exec_bind, exec_fresh]

theorem Expr.infer_app_ok {f a : Expr} :
    ((Expr.app f a).infer Γ).exec ν = (.ok (s, t), ν') ↔
      ∃ s₁ tf ν₁ s₂ ta s₃, (f.infer Γ).exec (NameSupply.fresh ν).2 = (.ok (s₁, tf), ν₁) ∧
        (a.infer (Γ.apply s₁)).exec ν₁ = (.ok (s₂, ta), ν') ∧
        LetPoly.unify (tf.apply s₂) (.fn ta (.var (NameSupply.fresh ν).1)) = .ok s₃ ∧
        s = s₃.compose (s₂.compose s₁) ∧ t = (Ty.var (NameSupply.fresh ν).1).apply s₃ := by
  rw [Expr.exec_app]
  simp only [exec_bind_ok, exec_unify, exec_pure]
  constructor
  · intro ⟨⟨s₁, tf⟩, ν₁, h₁, ⟨s₂, ta⟩, ν₂, h₂, s₃, ν₃, h₃, h⟩
    cases h
    cases hu : LetPoly.unify (tf.apply s₂) (.fn ta (.var (NameSupply.fresh ν).1)) with
    | error e => simp [hu, Except.mapError] at h₃
    | ok u =>
      simp only [hu, Except.mapError, Prod.mk.injEq, Except.ok.injEq] at h₃
      obtain ⟨rfl, rfl⟩ := h₃
      exact ⟨s₁, tf, ν₁, s₂, ta, u, h₁, h₂, hu, rfl, rfl⟩
  · intro ⟨s₁, tf, ν₁, s₂, ta, s₃, h₁, h₂, h₃, hs, ht⟩
    refine ⟨(s₁, tf), ν₁, h₁, (s₂, ta), ν', h₂, s₃, ν', ?_, by rw [hs, ht]⟩
    rw [h₃]
    rfl

theorem Expr.exec_abs (x : Ident) (b : Expr) (Γ : Context) (ν : NameSupply) :
    ((Expr.abs (.var x) b).infer Γ).exec ν =
      (do
        let (s, tb) ← b.infer (Γ.insert x.name (.mono (.var (NameSupply.fresh ν).1)))
        return (s, (Ty.fn (.var (NameSupply.fresh ν).1) tb).apply s) :
          Check (Subst × Ty)).exec (NameSupply.fresh ν).2 := by
  rw [Expr.infer_abs, exec_bind]
  rfl

theorem Expr.infer_abs_ok {x : Ident} {b : Expr} :
    ((Expr.abs (.var x) b).infer Γ).exec ν = (.ok (s, t), ν') ↔
      ∃ tb, (b.infer (Γ.insert x.name (.mono (.var (NameSupply.fresh ν).1)))).exec
          (NameSupply.fresh ν).2 = (.ok (s, tb), ν') ∧
        t = (Ty.fn (.var (NameSupply.fresh ν).1) tb).apply s := by
  rw [Expr.exec_abs]
  simp only [exec_bind_ok, exec_pure]
  constructor
  · intro ⟨⟨s₁, tb⟩, ν₁, h₁, h⟩
    cases h
    exact ⟨tb, h₁, rfl⟩
  · intro ⟨tb, h₁, ht⟩
    exact ⟨(s, tb), ν', h₁, by rw [ht]⟩

theorem Expr.exec_abs_other {p : Pattern} (h : ∀ x, p ≠ .var x) (b : Expr) (Γ : Context)
    (ν : NameSupply) :
    ((Expr.abs p b).infer Γ).exec ν =
      (.error (.unsupported (p.kind ++ " pattern `" ++ p.text ++ "`")), ν) := by
  rw [Expr.infer_abs, exec_bind, Pattern.exec_infer_other h]

end Constructs

/-- Started on a supply that avoids the context, a run returns an outcome. -/
def Expr.Tidy (e : Expr) : Prop :=
  ∀ ⦃Γ ν s t ν'⦄, ν.Avoids Γ → (e.infer Γ).exec ν = (.ok (s, t), ν') → Outcome Γ ν s t ν'

theorem NameSupply.Avoids.insert_fresh {Γ : Context} {ν : NameSupply} (h : ν.Avoids Γ)
    (x : String) :
    (NameSupply.fresh ν).2.Avoids (Γ.insert x (.mono (.var (NameSupply.fresh ν).1))) := by
  intro v hv hp
  have hpv := (ν.pending_fresh_iff v).1 hp
  rcases Context.mem_freeVars_insert hv with hv | hv
  · exact hpv.2 (Ty.mem_vars_var.1 (Scheme.mem_freeVars_mono.1 hv))
  · exact h v hv hpv.1

theorem NameSupply.Avoids.fresh {Γ : Context} {ν : NameSupply} (h : ν.Avoids Γ) :
    (NameSupply.fresh ν).2.Avoids Γ :=
  fun v hv hp => h v hv (ν.reaches_fresh.pending hp)

theorem Expr.tidy_lit (l : Literal) : (Expr.lit l).Tidy := by
  intro Γ ν s t ν' _ h
  obtain ⟨rfl, rfl, rfl⟩ := Expr.infer_lit_ok.1 h
  refine ⟨.refl _, .empty _, fun v hv => ?_⟩
  cases l <;> cases hv

theorem Expr.tidy_var (x : Ident) : (Expr.var x).Tidy := by
  intro Γ ν s t ν' _ h
  obtain ⟨σ, hσ, rfl, rfl, rfl⟩ := Expr.infer_var_ok.1 h
  obtain ⟨a, ht, ha, -, -⟩ := σ.instantiate_eq ν
  refine ⟨σ.reaches_instantiate ν, .empty _, fun v hv => ⟨?_, by simp⟩⟩
  rw [ht] at hv
  obtain ⟨w, hw, hv⟩ := Ty.mem_vars_bind.1 hv
  simp only [Ty.vars, List.mem_singleton] at hv
  subst hv
  by_cases hq : w ∈ σ.vars
  · rw [if_pos hq]
    exact .inr (ha w hq)
  · rw [if_neg hq]
    exact .inl (Context.mem_freeVars.2 ⟨x.name, σ, hσ, Scheme.mem_freeVars.2 ⟨hw, hq⟩⟩)

theorem Expr.tidy_abs {x : Ident} {b : Expr} (hb : b.Tidy) : (Expr.abs (.var x) b).Tidy := by
  intro Γ ν s t ν' hΓ h
  obtain ⟨tb, hb', rfl⟩ := Expr.infer_abs_ok.1 h
  have o := hb (hΓ.insert_fresh x.name) hb'
  have hs := o.subst.mono fun v hv => hv.of_insert_fresh o.reaches
  refine ⟨ν.reaches_fresh.trans o.reaches, hs, fun v hv => hs.mem_vars_apply (fun w hw => ?_) hv⟩
  rw [Ty.vars_fn, List.mem_append] at hw
  rcases hw with hw | hw
  · exact Ty.mem_vars_var.1 hw ▸ Γ.inPlay_fresh o.reaches
  · exact (o.type w hw).1.of_insert_fresh o.reaches

theorem Expr.tidy_abs_other {p : Pattern} (h : ∀ x, p ≠ .var x) (b : Expr) :
    (Expr.abs p b).Tidy := by
  intro Γ ν s t ν' _ hr
  rw [Expr.exec_abs_other h] at hr
  cases hr

theorem Expr.tidy_group {e : Expr} (h : e.Tidy) : (Expr.group e).Tidy := by
  intro Γ ν s t ν' hΓ hr
  rw [Expr.infer_group] at hr
  exact h hΓ hr

/-- Nothing that an application unifies was bound in its parts: the result variable is drawn before
them and is in neither's reach. -/
theorem Outcome.inPlay_unified {Γ : Context} {ν ν₁ ν₂ : NameSupply} {s₁ s₂ : Subst} {tf ta : Ty}
    (of : Outcome Γ (NameSupply.fresh ν).2 s₁ tf ν₁) (hΓ : ν.Avoids Γ)
    (oa : Outcome (Γ.apply s₁) ν₁ s₂ ta ν₂) {v : String}
    (hv : v ∈ (tf.apply s₂).vars ++ (Ty.fn ta (.var (NameSupply.fresh ν).1)).vars) :
    Γ.InPlay ν ν₂ v ∧ v ∉ s₂.compose s₁ := by
  have o := of.andThen hΓ.fresh (fun _ hv => hv) oa
  rw [Ty.vars_fn, List.mem_append, List.mem_append] at hv
  rcases hv with hv | hv | hv
  · obtain ⟨w, hw, hv⟩ := Ty.mem_vars_apply.1 hv
    have hw := of.type w hw
    have hn : v ∉ s₂ := oa.subst.not_mem_of_mem_apply hv
    suffices hp : Γ.InPlay ν ν₂ v ∧ v ∉ s₁ from
      ⟨hp.1, fun h => (Subst.mem_compose.1 h).elim hp.2 hn⟩
    rcases Ty.mem_vars_apply_var hv with ⟨he, -⟩ | ⟨u, hu, hv⟩
    · rw [he]
      exact ⟨(hw.1.later oa.reaches).earlier ν.reaches_fresh, hw.2⟩
    · have hp := of.inPlay_later hΓ.fresh oa.reaches (fun _ hv => hv)
        (oa.subst.value w u hu v hv).1
      exact ⟨hp.1.earlier ν.reaches_fresh, hp.2⟩
  · have hv := o.type v hv
    exact ⟨hv.1.earlier ν.reaches_fresh, hv.2⟩
  · rw [Ty.mem_vars_var.1 hv]
    refine ⟨Γ.inPlay_fresh o.reaches, fun hs => ?_⟩
    rcases o.subst.key _ hs with hv | hv
    · exact hΓ _ hv ν.pending_fresh
    · exact ν.not_pending_fresh hv.1

theorem Expr.tidy_app {f a : Expr} (hf : f.Tidy) (ha : a.Tidy) : (Expr.app f a).Tidy := by
  intro Γ ν s t ν' hΓ h
  obtain ⟨s₁, tf, ν₁, s₂, ta, s₃, hf', ha', hu, rfl, rfl⟩ := Expr.infer_app_ok.1 h
  have of := hf hΓ.fresh hf'
  have oa := ha (of.avoids hΓ.fresh) ha'
  have o := of.andThen hΓ.fresh (fun _ hv => hv) oa
  have h₁₂ : (s₂.compose s₁).Within (Γ.InPlay ν ν') :=
    o.subst.mono fun v hv => hv.earlier ν.reaches_fresh
  have h₃ := unify_within hu
  refine ⟨ν.reaches_fresh.trans o.reaches,
    h₁₂.compose h₃ fun v hv => of.inPlay_unified hΓ oa hv, fun v hv => ?_⟩
  have hv := h₃.mem_vars_apply (fun w hw => ?_) hv
  · have hv' := of.inPlay_unified hΓ oa hv.1
    exact ⟨hv'.1, fun hs => (Subst.mem_compose.1 hs).elim hv'.2 hv.2⟩
  · simp only [Ty.vars, List.mem_singleton] at hw
    rw [Ty.vars_fn, hw]
    simp [Ty.vars]

end LetPoly
