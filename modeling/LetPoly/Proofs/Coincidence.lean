import LetPoly.Proofs.Closed
import LetPoly.Proofs.Scope

/-!
Only the free identifiers of an expression matter. Two contexts may differ at any other name as long
as both are closed there: such a name is never looked up, and adds nothing to the free variables
that a binding is generalised against. Runs in the two contexts then stay in step to the end
(`Expr.coincides`).
-/

set_option autoImplicit false

namespace LetPoly

open Check

namespace Context

def ClosedAt (Γ : Context) (x : String) : Prop := ∀ σ, Γ.get? x = some σ → σ.freeVars = ∅

theorem Closed.closedAt {Γ : Context} (hΓ : Γ.Closed) (x : String) : Γ.ClosedAt x :=
  fun _ h => hΓ.get? h

theorem ClosedAt.apply {Γ : Context} {x : String} (h : Γ.ClosedAt x) (s : Subst) :
    (Γ.apply s).ClosedAt x := by
  intro σ' hσ'
  rw [get?_apply] at hσ'
  obtain ⟨σ, hσ, rfl⟩ := Option.map_eq_some_iff.1 hσ'
  apply NameSet.ext_mem
  intro v
  constructor
  · intro hv
    obtain ⟨w, hw, -⟩ := Scheme.mem_freeVars_apply hv
    exact absurd (h σ hσ ▸ hw) (NameMap.not_mem_empty w)
  · exact fun hv => absurd hv (NameMap.not_mem_empty v)

/-- The names of `xs` stand for the same in both contexts; at any other name the two may differ if
both are closed there. -/
structure AgreeOn (xs : List String) (Γ Δ : Context) : Prop where
  same : ∀ x ∈ xs, Γ.get? x = Δ.get? x
  other : ∀ x, Γ.get? x = Δ.get? x ∨ Γ.ClosedAt x ∧ Δ.ClosedAt x

namespace AgreeOn

variable {xs ys : List String} {Γ Δ : Context}

theorem symm (h : AgreeOn xs Γ Δ) : AgreeOn xs Δ Γ :=
  ⟨fun x hx => (h.same x hx).symm, fun x => (h.other x).imp Eq.symm And.symm⟩

theorem subset (h : AgreeOn xs Γ Δ) (hys : ∀ y ∈ ys, y ∈ xs) : AgreeOn ys Γ Δ :=
  ⟨fun y hy => h.same y (hys y hy), h.other⟩

theorem mem_freeVars (h : AgreeOn xs Γ Δ) {v : String} (hv : v ∈ Γ.freeVars) :
    v ∈ Δ.freeVars := by
  obtain ⟨x, σ, hσ, hv⟩ := Context.mem_freeVars.1 hv
  rcases h.other x with he | hc
  · exact Context.mem_freeVars.2 ⟨x, σ, he ▸ hσ, hv⟩
  · exact absurd (hc.1 σ hσ ▸ hv) (NameMap.not_mem_empty v)

theorem freeVars_eq (h : AgreeOn xs Γ Δ) : Γ.freeVars = Δ.freeVars :=
  NameSet.ext_mem fun _ => ⟨h.mem_freeVars, h.symm.mem_freeVars⟩

theorem apply (h : AgreeOn xs Γ Δ) (s : Subst) : AgreeOn xs (Γ.apply s) (Δ.apply s) := by
  refine ⟨fun x hx => ?_, fun x => ?_⟩
  · rw [get?_apply, get?_apply, h.same x hx]
  · rcases h.other x with he | hc
    · left
      rw [get?_apply, get?_apply, he]
    · exact .inr ⟨hc.1.apply s, hc.2.apply s⟩

theorem insert (h : AgreeOn xs Γ Δ) (x : String) (σ : Scheme) (hys : ∀ y ∈ ys, y ≠ x → y ∈ xs) :
    AgreeOn ys (Γ.insert x σ) (Δ.insert x σ) := by
  refine ⟨fun y hy => ?_, fun y => ?_⟩
  · by_cases hx : y = x
    · simp [hx]
    · simp [hx, h.same y (hys y hy hx)]
  · by_cases hx : y = x
    · simp [hx]
    · simpa [ClosedAt, hx] using h.other y

theorem afterBinding (h : AgreeOn xs Γ Δ) (s : Subst) (x : String) (t : Ty)
    (hys : ∀ y ∈ ys, y ≠ x → y ∈ xs) :
    AgreeOn ys (Γ.afterBinding s x t) (Δ.afterBinding s x t) := by
  have hg : (Γ.apply s).generalize t = (Δ.apply s).generalize t := by
    rw [generalize, generalize, (h.apply s).freeVars_eq]
  rw [Context.afterBinding, Context.afterBinding, hg]
  exact (h.apply s).insert x _ hys

end AgreeOn

theorem Closed.agreeOn {Γ Δ : Context} {xs : List String} (hΓ : Γ.Closed) (hΔ : Δ.Closed)
    (h : ∀ x ∈ xs, Γ.get? x = Δ.get? x) : AgreeOn xs Γ Δ :=
  ⟨h, fun x => .inr ⟨hΓ.closedAt x, hΔ.closedAt x⟩⟩

end Context

open Context (AgreeOn)

/-- Contexts that agree on its free identifiers give an expression one outcome, from any supply. -/
def Expr.Coincides (e : Expr) : Prop :=
  ∀ ⦃Γ Δ⦄, AgreeOn e.freeIdents Γ Δ → ∀ ν, (e.infer Γ).exec ν = (e.infer Δ).exec ν

theorem Expr.coincides_var (x : Ident) : (Expr.var x).Coincides := by
  intro Γ Δ h ν
  have hx : Γ.get? x.name = Δ.get? x.name := h.same x.name (by simp [Expr.freeIdents])
  rw [Expr.infer_var, Expr.infer_var, hx]

theorem Expr.coincides_app {f a : Expr} (hf : f.Coincides) (ha : a.Coincides) :
    (Expr.app f a).Coincides := by
  intro Γ Δ h ν
  have hΓf : AgreeOn f.freeIdents Γ Δ := h.subset fun y hy => by simp [Expr.freeIdents, hy]
  have hΓa : AgreeOn a.freeIdents Γ Δ := h.subset fun y hy => by simp [Expr.freeIdents, hy]
  rw [Expr.exec_app, Expr.exec_app]
  refine exec_bind_congr (hf hΓf _) fun r₁ ν₁ _ => ?_
  exact exec_bind_congr (ha (hΓa.apply r₁.1) ν₁) fun _ _ _ => rfl

theorem Expr.coincides_abs {b : Expr} (hb : b.Coincides) (p : Pattern) :
    (Expr.abs p b).Coincides := by
  intro Γ Δ h ν
  rcases p.var_or_other with ⟨x, rfl⟩ | hp
  · rw [Expr.exec_abs, Expr.exec_abs]
    refine exec_bind_congr (hb (h.insert x.name _ fun y hy hx => ?_) _) fun _ _ _ => rfl
    simpa [Expr.freeIdents, Pattern.names] using ⟨hy, hx⟩
  · rw [Expr.exec_abs_other hp, Expr.exec_abs_other hp]

theorem Expr.Coincides.exec_function {e : Expr} (he : e.Coincides) (ps : List Pattern)
    {Γ Δ : Context} (h : AgreeOn (e.freeIdents.filter (· ∉ Pattern.namesAll ps)) Γ Δ)
    (ν : NameSupply) :
    (Check.function ps (fun scope => e.infer scope) Γ).exec ν =
      (Check.function ps (fun scope => e.infer scope) Δ).exec ν := by
  induction ps generalizing Γ Δ ν with
  | nil =>
    have hbody : (e.infer Γ).exec ν = (e.infer Δ).exec ν :=
      he (h.subset fun y hy => by simpa [Pattern.namesAll] using hy) ν
    simp only [Check.function_eq, Pattern.inferAll, exec_bind, exec_pure, hbody]
  | cons p ps ih =>
    rw [exec_function_cons, exec_function_cons]
    rcases p.var_or_other with ⟨x, rfl⟩ | hp
    · rw [exec_bind, exec_bind, Pattern.exec_infer_var, Pattern.exec_infer_var]
      refine exec_bind_congr (ih (h.insert x.name _ fun y hy hx => ?_) _) fun _ _ _ => rfl
      simp only [List.mem_filter, decide_eq_true_eq] at hy ⊢
      simpa [Pattern.namesAll, Pattern.names, hx] using hy
    · rw [exec_bind, exec_bind, Pattern.exec_infer_other hp, Pattern.exec_infer_other hp]

def Bindings.Coincides (bs : Bindings) : Prop :=
  ∀ ⦃b : Expr⦄, b.Coincides → ∀ ⦃Γ Δ⦄, AgreeOn (bs.freeIdentsBefore b.freeIdents) Γ Δ →
    ∀ s ν, (bs.inferIn b s Γ).exec ν = (bs.inferIn b s Δ).exec ν

theorem Bindings.coincides_nil : Bindings.nil.Coincides := by
  intro b hb Γ Δ h s ν
  rw [Bindings.exec_inferIn_nil, Bindings.exec_inferIn_nil]
  exact exec_bind_congr (hb h ν) fun _ _ _ => rfl

theorem Bindings.coincides_cons {e : Expr} {rest : Bindings} (he : e.Coincides)
    (hrest : rest.Coincides) (k : String) (x : Ident) (ps : List Pattern) :
    (Bindings.cons k x ps e rest).Coincides := by
  intro b hb Γ Δ h s ν
  rw [Bindings.freeIdentsBefore] at h
  have hbody := h.subset fun y hy => List.mem_append_left _ hy
  rw [Bindings.exec_inferIn_cons, Bindings.exec_inferIn_cons]
  refine exec_bind_congr (he.exec_function ps hbody ν) fun r ν₁ _ => ?_
  refine hrest hb (h.afterBinding r.1 x.name r.2 fun y hy hx => ?_) _ ν₁
  exact List.mem_append_right _ (List.mem_filter.2 ⟨hy, by simpa using hx⟩)

mutual
theorem Expr.coincides : (e : Expr) → e.Coincides
  | .lit l => fun _ _ _ _ => by rw [Expr.infer_lit, Expr.infer_lit]
  | .var x => Expr.coincides_var x
  | .app f a => Expr.coincides_app f.coincides a.coincides
  | .abs p b => Expr.coincides_abs b.coincides p
  | .group e => fun Γ Δ h ν => by
    rw [Expr.infer_group, Expr.infer_group]
    exact e.coincides (h.subset fun y hy => by simpa [Expr.freeIdents] using hy) ν
  | .letIn bs b => fun Γ Δ h ν => by
    rw [Expr.infer_letIn, Expr.infer_letIn]
    rw [Expr.freeIdents] at h
    exact bs.coincides b.coincides h ∅ ν

theorem Bindings.coincides : (bs : Bindings) → bs.Coincides
  | .nil => Bindings.coincides_nil
  | .cons k x ps e rest => Bindings.coincides_cons e.coincides rest.coincides k x ps
end

/-- Closed contexts that agree on the free identifiers of an expression give it the same
substitution and type, or the same error. -/
theorem inferWithSubst_eq_of_agree {e : Expr} {Γ Δ : Context} (hΓ : Γ.Closed) (hΔ : Δ.Closed)
    (h : ∀ x ∈ e.freeIdents, Γ.get? x = Δ.get? x) : inferWithSubst e Γ = inferWithSubst e Δ := by
  have hagree := hΓ.agreeOn hΔ h
  have hsupply : Γ.supply = Δ.supply := congrArg NameSupply.avoiding hagree.freeVars_eq
  have hrun := e.coincides hagree Γ.supply
  rw [hsupply] at hrun
  rw [inferWithSubst, inferWithSubst, hsupply]
  exact congrArg Prod.fst hrun

/-- Written `let f x = k x in \k -> f (f k)`, where only the first `k` is free. -/
def rebindsK : Expr :=
  .letIn
    (.cons "f" ⟨"f", none⟩ [.var ⟨"x", none⟩] (.app (.var ⟨"k", none⟩) (.var ⟨"x", none⟩)) .nil)
    (.lambda ⟨"k", none⟩
      (.app (.var ⟨"f", none⟩) (.app (.var ⟨"f", none⟩) (.var ⟨"k", none⟩))))

/-- The contexts have `k` in common; one has `f` and `x` besides, the other `y`. -/
theorem inferWithSubst_rebindsK :
    rebindsK.freeIdents = ["k"] ∧
    inferWithSubst rebindsK
        (.ofList [("f", .mono .int), ("k", .closed (.fn (.var "a") .int)), ("x", .mono .unit)]) =
      inferWithSubst rebindsK
        (.ofList [("k", .closed (.fn (.var "a") .int)), ("y", .closed (.var "b"))]) :=
  ⟨by decide, inferWithSubst_eq_of_agree (by decide) (by decide) (by decide)⟩

end LetPoly
