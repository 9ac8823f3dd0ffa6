import LetPoly.Proofs.Closed
import LetPoly.Proofs.Normal

/-!
A `let` of one binding against its body with the binding put in the place of its name. In a closed
context the checker accepts the one exactly if it accepts the binding and the other, and the types
it finds have one normal form: each use of the name takes an instance of the type of the binding,
and those instances are the types of the binding (`Context.Closed.hasType_iff_instance`).
-/

set_option autoImplicit false

namespace LetPoly

/-- `Δ` has for `e` what `Γ` has, and no free variable under `x`. -/
structure Context.Hosts (Δ Γ : Context) (x : String) (e : Expr) : Prop where
  agrees : ∀ y ∈ e.freeIdents, Δ.get? y = Γ.get? y
  closed : ∀ τ, Δ.get? x = some τ → τ.freeVars = ∅

namespace Context.Hosts

variable {Δ Γ : Context} {x y : String} {e : Expr} {σ : Scheme}

theorem insert (h : Δ.Hosts Γ x e) (hx : y ≠ x) (hy : y ∉ e.freeIdents) (τ : Scheme) :
    Context.Hosts (Δ.insert y τ) Γ x e := by
  refine ⟨fun z hz => ?_, fun τ' hτ' => ?_⟩
  · have hzy : z ≠ y := fun he => hy (he ▸ hz)
    rw [NameMap.get?_insert, if_neg hzy, h.agrees z hz]
  · rw [NameMap.get?_insert, if_neg (Ne.symm hx)] at hτ'
    exact h.closed τ' hτ'

theorem mem_freeVars_insert_iff (h : Δ.Hosts Γ x e) (hσ : σ.freeVars = ∅) (v : String) :
    v ∈ Context.freeVars (Δ.insert x σ) ↔ v ∈ Δ.freeVars := by
  constructor
  · intro hv
    rcases mem_freeVars_insert hv with hv | hv
    · exact absurd (hσ ▸ hv) (NameMap.not_mem_empty v)
    · exact hv
  · intro hv
    obtain ⟨y, τ, hτ, hv⟩ := mem_freeVars.1 hv
    have hyx : y ≠ x := fun he => NameMap.not_mem_empty v (h.closed τ (he ▸ hτ) ▸ hv)
    exact mem_freeVars.2 ⟨y, τ, by rw [NameMap.get?_insert, if_neg hyx, hτ], hv⟩

end Context.Hosts

section Replace

variable {x : String} {e₁ : Expr} {σ : Scheme} {Γ : Context}

/-- With `x` at the types of `e₁`, `e` has the types that it has with `e₁` in the place of `x`. -/
def Expr.Inlines (e : Expr) (x : String) (e₁ : Expr) (σ : Scheme) (Γ : Context) : Prop :=
  (∀ y ∈ e.boundNames, y ∉ e₁.freeIdents) → ∀ ⦃Δ : Context⦄, Δ.Hosts Γ x e₁ →
    ∀ t, HasType (Δ.insert x σ) e t ↔ HasType Δ (e.replace x e₁) t

theorem Expr.inlines_var (h₁ : ∀ t, HasType Γ e₁ t ↔ σ.Instance t) (y : Ident) :
    (Expr.var y).Inlines x e₁ σ Γ := by
  intro _ Δ hΔ t
  rw [HasType.var_iff, NameMap.get?_insert, Expr.replace]
  by_cases hy : y.name = x
  · rw [if_pos hy, if_pos hy, HasType.congr hΔ.agrees, h₁]
    simp
  · rw [if_neg hy, if_neg hy, HasType.var_iff]

theorem Expr.inlines_abs {y : Ident} {b : Expr} (hb : b.Inlines x e₁ σ Γ) :
    (Expr.abs (.var y) b).Inlines x e₁ σ Γ := by
  intro hbound Δ hΔ t
  simp only [Expr.boundNames, Pattern.names, List.mem_append, List.mem_singleton] at hbound
  rw [Expr.replace]
  by_cases hy : y.name = x
  · rw [if_pos (by simp [Pattern.names, hy]), HasType.abs_iff, HasType.abs_iff, hy]
    simp only [NameMap.insert_insert]
  · rw [if_neg (by simpa [Pattern.names, eq_comm] using hy), HasType.abs_iff, HasType.abs_iff]
    have hy' := hbound y.name (.inl rfl)
    have hb := fun a => hb (fun z hz => hbound z (.inr hz)) (hΔ.insert hy hy' (.mono a))
    simp only [NameMap.insert_comm _ _ _ (Ne.symm hy), hb]

theorem Expr.inlines_letCons (hσ : σ.freeVars = ∅) {k : String} {y : Ident} {ps : List Pattern}
    {e b : Expr} {rest : Bindings} (he : (Expr.lambdas ps e).Inlines x e₁ σ Γ)
    (hb : (Expr.letIn rest b).Inlines x e₁ σ Γ) :
    (Expr.letIn (.cons k y ps e rest) b).Inlines x e₁ σ Γ := by
  intro hbound Δ hΔ t
  simp only [Expr.mem_boundNames_letCons] at hbound
  have he := he (fun z hz => hbound z (.inr (.inl hz))) hΔ
  rw [Expr.replace_letCons, HasType.letCons_iff, HasType.letCons_iff]
  simp only [he, Expr.replace_lambdas, hΔ.mem_freeVars_insert_iff hσ]
  by_cases hy : y.name = x
  · simp only [hy, NameMap.insert_insert, true_or, if_true]
  · have hy' := hbound y.name (.inl rfl)
    have hb := fun τ => hb (fun z hz => hbound z (.inr (.inr hz))) (hΔ.insert hy hy' τ)
    simp only [NameMap.insert_comm _ _ _ (Ne.symm hy), hb, Expr.replace, hy, false_or, if_false]

theorem Expr.inlines (hσ : σ.freeVars = ∅) (h₁ : ∀ t, HasType Γ e₁ t ↔ σ.Instance t) (e : Expr) :
    e.Inlines x e₁ σ Γ := by
  induction e using Expr.induction_nested with
  | lit l =>
    intro _ Δ _ t
    rw [Expr.replace, HasType.lit_iff, HasType.lit_iff]
  | var y => exact Expr.inlines_var h₁ y
  | app f a ihf iha =>
    intro hbound Δ hΔ t
    simp only [Expr.boundNames, List.mem_append] at hbound
    have hf := ihf (fun y hy => hbound y (.inl hy)) hΔ
    have ha := iha (fun y hy => hbound y (.inr hy)) hΔ
    rw [Expr.replace, HasType.app_iff, HasType.app_iff]
    simp only [hf, ha]
  | abs y b ih => exact Expr.inlines_abs ih
  | other p b hp =>
    intro _ Δ _ t
    rw [Expr.replace]
    exact iff_of_false (HasType.not_abs hp) (HasType.not_abs hp)
  | group e ih =>
    intro hbound Δ hΔ t
    rw [Expr.boundNames] at hbound
    rw [Expr.replace, HasType.group_iff, HasType.group_iff]
    exact ih hbound hΔ t
  | letNil b ih =>
    intro hbound Δ hΔ t
    rw [Expr.boundNames, Bindings.boundNames, List.nil_append] at hbound
    rw [Expr.replace_letNil, HasType.letNil_iff, HasType.letNil_iff]
    exact ih hbound hΔ t
  | letCons k y ps e rest b ihe ihb => exact Expr.inlines_letCons hσ ihe ihb

end Replace

namespace Context.Closed

variable {Γ : Context} {k : String} {x : Ident} {e e' e₁ e₂ : Expr} {t t' : Ty}

/-- A `let` has the types of its body with the binding in place, if the binding has any. -/
theorem hasType_let_iff (hΓ : Γ.Closed) (hb : ∀ y ∈ e₂.boundNames, y ∉ e₁.freeIdents) :
    HasType Γ (.letIn (.cons k x [] e₁ .nil) e₂) t ↔
      (∃ t₁, HasType Γ e₁ t₁) ∧ HasType Γ (e₂.replace x.name e₁) t := by
  have hhosts : Γ.Hosts Γ x.name e₁ := ⟨fun _ _ => rfl, fun _ => hΓ.get?⟩
  -- what is found for the binding stands for all its types
  have hinline : ∀ t₁, inferType e₁ Γ = .ok t₁ →
      (HasType (Γ.insert x.name (Γ.generalize t₁)) e₂ t ↔
        HasType Γ (e₂.replace x.name e₁) t) := by
    intro t₁ ht₁
    have hσ : (Γ.generalize t₁).freeVars = ∅ := by
      apply NameSet.ext_mem
      intro v
      have hv : v ∉ (Γ.generalize t₁).freeVars :=
        fun hv => hΓ.not_mem_freeVars v (mem_freeVars_generalize hv)
      simp [hv]
    exact Expr.inlines hσ (fun _ => hΓ.hasType_iff_instance ht₁) e₂ hb hhosts t
  rw [HasType.letCons_iff]
  simp only [HasType.letNil_iff]
  constructor
  · intro ⟨σ, he₁, hσ, he₂⟩
    obtain ⟨t₁, ht₁, -⟩ := hΓ.inferType_complete he₁
    refine ⟨⟨_, he₁⟩, (hinline t₁ ht₁).1 (he₂.weaken fun ρ => ?_)⟩
    exact (hΓ.hasType_iff_instance ht₁).1 (hΓ.hasType_bind he₁ _)
  · intro ⟨⟨t', he₁⟩, he₂⟩
    obtain ⟨t₁, ht₁, -⟩ := hΓ.inferType_complete he₁
    exact ⟨Γ.generalize t₁, hΓ.hasType_of_inferType ht₁, fun v => mem_vars_generalize,
      (hinline t₁ ht₁).2 he₂⟩

theorem normalize_eq (hΓ : Γ.Closed) (h : inferType e Γ = .ok t) (h' : inferType e' Γ = .ok t')
    (he : HasType Γ e' t) (he' : HasType Γ e t') : t.normalize = t'.normalize := by
  obtain ⟨u', hu', g, hg⟩ := hΓ.inferType_complete he
  obtain ⟨u, hu, f, hf⟩ := hΓ.inferType_complete he'
  cases h.symm.trans hu
  cases h'.symm.trans hu'
  exact Ty.normalize_eq_of_instances hf hg

end Context.Closed

/-- Checking a `let` is checking the binding, and the body with the binding in the place of its
name. -/
theorem inferType_let_iff_replace {Γ : Context} (hΓ : Γ.Closed) {k : String} {x : Ident}
    {e₁ e₂ : Expr} (hb : ∀ y ∈ e₂.boundNames, y ∉ e₁.freeIdents) :
    ((∃ t, inferType (.letIn (.cons k x [] e₁ .nil) e₂) Γ = .ok t) ↔
      (∃ t₁, inferType e₁ Γ = .ok t₁) ∧ ∃ t, inferType (e₂.replace x.name e₁) Γ = .ok t) ∧
    ∀ t t', inferType (.letIn (.cons k x [] e₁ .nil) e₂) Γ = .ok t →
      inferType (e₂.replace x.name e₁) Γ = .ok t' → t.normalize = t'.normalize := by
  constructor
  · simp only [hΓ.exists_inferType_iff, hΓ.hasType_let_iff hb, exists_and_left]
  · intro t t' h h'
    obtain ⟨he₁, he⟩ := (hΓ.hasType_let_iff hb).1 (hΓ.hasType_of_inferType h)
    have he' := hΓ.hasType_of_inferType h'
    exact hΓ.normalize_eq h h' he ((hΓ.hasType_let_iff hb).2 ⟨he₁, he'⟩)

def idContext : Context :=
  .ofList [("id", .closed (.fn (.var "a") (.var "a"))), ("n", .mono .int)]

/-- Written `\u -> id u`. -/
def expandedId : Expr := .lambda ⟨"u", none⟩ (.app (.var ⟨"id", none⟩) (.var ⟨"u", none⟩))

/-- Written `(\y -> f) (f n)`. -/
def usesOfF : Expr :=
  .app (.lambda ⟨"y", none⟩ (.var ⟨"f", none⟩)) (.app (.var ⟨"f", none⟩) (.var ⟨"n", none⟩))

/-- The names that are drawn differ, the normal form does not. -/
theorem inferType_let_two_uses :
    inferType (.letIn (.cons "f" ⟨"f", none⟩ [] expandedId .nil) usesOfF) idContext =
        .ok (.fn (.var "f") (.var "f")) ∧
      inferType (usesOfF.replace "f" expandedId) idContext = .ok (.fn (.var "d") (.var "d")) ∧
      (Ty.fn (.var "f") (.var "f")).normalize = (Ty.fn (.var "d") (.var "d")).normalize := by
  have hlet : inferType (.letIn (.cons "f" ⟨"f", none⟩ [] expandedId .nil) usesOfF) idContext =
      .ok (.fn (.var "f") (.var "f")) := by cbv
  have hbody : inferType (usesOfF.replace "f" expandedId) idContext =
      .ok (.fn (.var "d") (.var "d")) := by cbv
  exact ⟨hlet, hbody, (inferType_let_iff_replace (by decide) (by decide)).2 _ _ hlet hbody⟩

end LetPoly
