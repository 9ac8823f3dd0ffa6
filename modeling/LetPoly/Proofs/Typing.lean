import LetPoly.Context
import LetPoly.Proofs.Scope
import LetPoly.Proofs.Substitution

/-!
The typing rules, without a supply of names and without unification. A derivation stays one under
every substitution, and in every context that has what it takes for the free identifiers
(`HasType.subst_on`): the variables that a binding quantifies are renamed out of the way first, so
no image can be caught by a quantifier.
-/

set_option autoImplicit false

namespace LetPoly

/-- The body with types in the place of the quantified variables. -/
def Scheme.Instance (σ : Scheme) (t : Ty) : Prop :=
  ∃ s : Subst, (∀ v ∈ s, v ∈ σ.vars) ∧ t = σ.body.apply s

inductive HasType : Context → Expr → Ty → Prop
  | lit (Γ : Context) (l : Literal) : HasType Γ (.lit l) l.ty
  | var {Γ : Context} {x : Ident} {σ : Scheme} {t : Ty} :
    Γ.get? x.name = some σ → σ.Instance t → HasType Γ (.var x) t
  | app {Γ : Context} {f e : Expr} {a b : Ty} :
    HasType Γ f (.fn a b) → HasType Γ e a → HasType Γ (.app f e) b
  | abs {Γ : Context} {x : Ident} {e : Expr} {a b : Ty} :
    HasType (Γ.insert x.name (.mono a)) e b → HasType Γ (.abs (.var x) e) (.fn a b)
  | group {Γ : Context} {e : Expr} {t : Ty} : HasType Γ e t → HasType Γ (.group e) t
  | letNil {Γ : Context} {b : Expr} {t : Ty} : HasType Γ b t → HasType Γ (.letIn .nil b) t
  /-- A binding sees the scope before it. The next ones see it under its name, with exactly those
  variables quantified that are not free in that scope. -/
  | letCons {Γ : Context} {key : String} {x : Ident} {ps : List Pattern} {e b : Expr}
    {rest : Bindings} {σ : Scheme} {t : Ty} :
    HasType Γ (.lambdas ps e) σ.body →
    (∀ v, v ∈ σ.vars ↔ v ∈ σ.body.vars ∧ v ∉ Γ.freeVars) →
    HasType (Γ.insert x.name σ) (.letIn rest b) t →
    HasType Γ (.letIn (.cons key x ps e rest) b) t

namespace HasType

variable {Γ : Context} {x : Ident} {e f b : Expr} {t : Ty}

theorem lit_iff {l : Literal} : HasType Γ (.lit l) t ↔ t = l.ty := by
  constructor
  · intro h
    cases h
    rfl
  · rintro rfl
    exact .lit Γ l

theorem var_iff : HasType Γ (.var x) t ↔ ∃ σ, Γ.get? x.name = some σ ∧ σ.Instance t := by
  constructor
  · intro h
    cases h with
    | var hx ht => exact ⟨_, hx, ht⟩
  · intro ⟨σ, hx, ht⟩
    exact .var hx ht

theorem app_iff : HasType Γ (.app f e) t ↔ ∃ a, HasType Γ f (.fn a t) ∧ HasType Γ e a := by
  constructor
  · intro h
    cases h with
    | app hf he => exact ⟨_, hf, he⟩
  · intro ⟨a, hf, he⟩
    exact .app hf he

theorem abs_iff : HasType Γ (.abs (.var x) b) t ↔
    ∃ a u, t = .fn a u ∧ HasType (Γ.insert x.name (.mono a)) b u := by
  constructor
  · intro h
    cases h with
    | abs hb => exact ⟨_, _, rfl, hb⟩
  · rintro ⟨a, u, rfl, hb⟩
    exact .abs hb

theorem not_abs {p : Pattern} (hp : ∀ x, p ≠ .var x) : ¬ HasType Γ (.abs p b) t := by
  intro h
  cases h
  exact hp _ rfl

theorem group_iff : HasType Γ (.group e) t ↔ HasType Γ e t := by
  constructor
  · intro h
    cases h with
    | group h => exact h
  · exact .group

theorem letNil_iff : HasType Γ (.letIn .nil b) t ↔ HasType Γ b t := by
  constructor
  · intro h
    cases h with
    | letNil h => exact h
  · exact .letNil

theorem letCons_iff {key : String} {ps : List Pattern} {rest : Bindings} :
    HasType Γ (.letIn (.cons key x ps e rest) b) t ↔
      ∃ σ : Scheme, HasType Γ (.lambdas ps e) σ.body ∧
        (∀ v, v ∈ σ.vars ↔ v ∈ σ.body.vars ∧ v ∉ Γ.freeVars) ∧
        HasType (Γ.insert x.name σ) (.letIn rest b) t := by
  constructor
  · intro h
    cases h with
    | letCons he hσ hb => exact ⟨_, he, hσ, hb⟩
  · intro ⟨σ, he, hσ, hb⟩
    exact .letCons he hσ hb

end HasType

namespace Scheme

variable {σ : Scheme} {f g ρ : String → Ty} {t : Ty} {v w : String}

/-- The body with `ρ` for the quantified variables and `f` for the free ones. -/
def specialize (σ : Scheme) (f ρ : String → Ty) : Ty :=
  σ.body.bind fun v => if v ∈ σ.vars then ρ v else f v

theorem specialize_congr (h : ∀ v ∈ σ.freeVars, f v = g v) :
    σ.specialize f ρ = σ.specialize g ρ := by
  apply Ty.bind_congr
  intro v hv
  by_cases hq : v ∈ σ.vars
  · rw [if_pos hq, if_pos hq]
  · rw [if_neg hq, if_neg hq, h v (mem_freeVars.2 ⟨hv, hq⟩)]

theorem bind_specialize (σ : Scheme) (f g ρ : String → Ty) :
    (σ.specialize f ρ).bind g = σ.specialize (fun v => (f v).bind g) (fun v => (ρ v).bind g) := by
  rw [specialize, Ty.bind_bind]
  apply Ty.bind_congr
  intro v _
  split <;> rfl

@[simp] theorem specialize_mono (a : Ty) (f ρ : String → Ty) :
    (mono a).specialize f ρ = a.bind f := by
  apply Ty.bind_congr
  intro v _
  simp [mono]

theorem instance_iff : σ.Instance t ↔ ∃ ρ, t = σ.specialize .var ρ := by
  constructor
  · intro ⟨s, hs, ht⟩
    refine ⟨fun v => (Ty.var v).apply s, ?_⟩
    rw [ht, Ty.apply_eq_bind]
    apply Ty.bind_congr
    intro v _
    by_cases hv : v ∈ σ.vars
    · rw [if_pos hv]
    · rw [if_neg hv, Ty.apply_var_of_not_mem fun h => hv (hs v h)]
  · intro ⟨ρ, ht⟩
    obtain ⟨s, hs⟩ := Ty.exists_apply_eq ρ σ.body.vars
    refine ⟨s.filterKeys σ.vars.contains, fun v hv => (NameMap.mem_filterKeys.1 hv).1, ?_⟩
    rw [ht, Ty.apply_eq_bind]
    apply Ty.bind_congr
    intro v hv
    have hsv := hs v hv
    by_cases hq : v ∈ σ.vars
    · simpa [Ty.apply, hq] using hsv.symm
    · simp [Ty.apply, hq]

/-- The substitution brings no quantified name in. -/
def NoCapture (σ : Scheme) (s : Subst) : Prop :=
  ∀ v ∈ σ.freeVars, ∀ w ∈ ((Ty.var v).apply s).vars, w ∉ σ.vars

theorem specialize_apply {s : Subst} (h : σ.NoCapture s) (f ρ : String → Ty) :
    (σ.apply s).specialize f ρ = σ.specialize (fun v => ((Ty.var v).apply s).bind f) ρ := by
  rw [specialize, apply, Ty.bind_apply]
  apply Ty.bind_congr
  intro v hv
  rw [Subst.apply_var_without]
  by_cases hq : v ∈ σ.vars
  · simp [hq]
  · rw [if_neg hq, if_neg hq]
    apply Ty.bind_congr
    intro w hw
    rw [if_neg (h v (mem_freeVars.2 ⟨hv, hq⟩) w hw)]

end Scheme

theorem exists_fresh_names (avoid : List String) :
    ∃ g h : String → String, (∀ v, h (g v) = v) ∧ ∀ v, g v ∉ avoid := by
  obtain ⟨n, hn⟩ : ∃ n, ∀ v ∈ avoid, v.length < n := by
    induction avoid with
    | nil => exact ⟨0, by simp⟩
    | cons a avoid ih =>
      obtain ⟨n, hn⟩ := ih
      refine ⟨n + a.length + 1, fun v hv => ?_⟩
      rcases List.mem_cons.1 hv with hv | hv
      · rw [hv]; omega
      · have := hn v hv; omega
  refine ⟨fun v => String.ofList (List.replicate n 'a' ++ v.toList),
    fun w => String.ofList (w.toList.drop n), fun v => ?_, fun v hv => ?_⟩
  · simp
  · have hlt := hn _ hv
    simp only [String.length_ofList, List.length_append, List.length_replicate] at hlt
    omega

/-- What `f` makes of an instance in `Γ` is an instance in `Δ`. -/
def Context.MapsInto (Γ : Context) (f : String → Ty) (Δ : Context) : Prop :=
  ∀ x σ, Γ.get? x = some σ → ∃ σ', Δ.get? x = some σ' ∧ ∀ ρ, σ'.Instance (σ.specialize f ρ)

def Context.MapsOn (xs : List String) (Γ : Context) (f : String → Ty) (Δ : Context) : Prop :=
  ∀ x ∈ xs, ∀ σ, Γ.get? x = some σ →
    ∃ σ', Δ.get? x = some σ' ∧ ∀ ρ, σ'.Instance (σ.specialize f ρ)

namespace Context.MapsOn

variable {xs ys : List String} {Γ Δ : Context} {f g : String → Ty}

theorem subset (h : Γ.MapsOn xs f Δ) (hys : ∀ y ∈ ys, y ∈ xs) : Γ.MapsOn ys f Δ :=
  fun y hy => h y (hys y hy)

theorem congr (h : Γ.MapsOn xs f Δ) (hfg : ∀ v ∈ Γ.freeVars, f v = g v) : Γ.MapsOn xs g Δ := by
  intro x hx σ hσ
  obtain ⟨σ', hσ', hi⟩ := h x hx σ hσ
  refine ⟨σ', hσ', fun ρ => ?_⟩
  have hs := hi ρ
  rwa [Scheme.specialize_congr fun v hv => hfg v (mem_freeVars.2 ⟨x, σ, hσ, hv⟩)] at hs

theorem insert (h : Γ.MapsOn xs f Δ) {x : String} {σ σ' : Scheme}
    (hys : ∀ y ∈ ys, y ≠ x → y ∈ xs) (hσ : ∀ ρ, σ'.Instance (σ.specialize f ρ)) :
    Context.MapsOn ys (Γ.insert x σ) f (Δ.insert x σ') := by
  intro y hy τ hτ
  rw [NameMap.get?_insert] at hτ
  by_cases hxy : y = x
  · rw [if_pos hxy] at hτ
    cases hτ
    exact ⟨σ', by simp [hxy], hσ⟩
  · rw [if_neg hxy] at hτ
    obtain ⟨τ', hτ', hi⟩ := h y (hys y hy hxy) τ hτ
    exact ⟨τ', by simp [hxy, hτ'], hi⟩

theorem of_agree (h : ∀ x ∈ xs, Γ.get? x = Δ.get? x) : Γ.MapsOn xs .var Δ :=
  fun x hx σ hσ => ⟨σ, h x hx ▸ hσ, fun ρ => Scheme.instance_iff.2 ⟨ρ, rfl⟩⟩

end Context.MapsOn

theorem Context.MapsInto.on {Γ Δ : Context} {f : String → Ty} (h : Γ.MapsInto f Δ)
    (xs : List String) : Γ.MapsOn xs f Δ :=
  fun x _ => h x

theorem Literal.bind_ty (l : Literal) (f : String → Ty) : l.ty.bind f = l.ty := by
  cases l <;> rfl

theorem Scheme.instance_mono (a : Ty) : (Scheme.mono a).Instance a :=
  instance_iff.2 ⟨.var, by simp⟩

@[simp] theorem Context.body_generalize (Γ : Context) (t : Ty) : (Γ.generalize t).body = t := rfl

/-- Where `f` keeps the free variables of a scope and sends the others to names of their own,
generalising the image loses no instance. -/
theorem Context.instance_generalize {Γ Δ : Context} {σ : Scheme} {f : String → Ty}
    {g h : String → String} (hσ : ∀ v, v ∈ σ.vars ↔ v ∈ σ.body.vars ∧ v ∉ Γ.freeVars)
    (hg : ∀ v, h (g v) = v) (hΔ : ∀ v, g v ∉ Δ.freeVars)
    (hf : ∀ v ∈ σ.body.vars, ∀ u, g u ∉ (f v).vars) (ρ : String → Ty) :
    (Δ.generalize (σ.body.bind fun v => if v ∈ Γ.freeVars then f v else .var (g v))).Instance
      (σ.specialize f ρ) := by
  rw [Scheme.instance_iff]
  refine ⟨fun w => if w = g (h w) then ρ (h w) else .var w, ?_⟩
  rw [Scheme.specialize, Scheme.specialize, body_generalize, Ty.bind_bind]
  apply Ty.bind_congr
  intro v hv
  by_cases hΓ : v ∈ Γ.freeVars
  · rw [if_neg fun hq => ((hσ v).1 hq).2 hΓ, if_pos hΓ]
    symm
    apply Ty.bind_eq_self
    intro w hw
    have hne : w ≠ g (h w) := fun he => hf v hv (h w) (he ▸ hw)
    rw [if_neg hne, ite_self]
  · have hq : g v ∈ (Δ.generalize
        (σ.body.bind fun v => if v ∈ Γ.freeVars then f v else .var (g v))).vars := by
      rw [mem_vars_generalize, Ty.mem_vars_bind]
      exact ⟨⟨v, hv, by simp [hΓ, Ty.vars]⟩, hΔ v⟩
    rw [if_pos ((hσ v).2 ⟨hv, hΓ⟩), if_neg hΓ, Ty.bind_var, if_pos hq, hg, if_pos rfl]

/-- The rule for a binding in the image of a scope: a scheme with the images of all instances is
enough for what follows. -/
theorem HasType.letCons_image {Γ Δ : Context} {f : String → Ty} {key : String} {x : Ident}
    {ps : List Pattern} {e b : Expr} {rest : Bindings} {σ : Scheme} {t : Ty}
    (he : ∀ {g : String → Ty}, (∀ v ∈ Γ.freeVars, f v = g v) →
      HasType Δ (.lambdas ps e) (σ.body.bind g))
    (hσ : ∀ v, v ∈ σ.vars ↔ v ∈ σ.body.vars ∧ v ∉ Γ.freeVars)
    (hb : ∀ {σ' : Scheme}, (∀ ρ, σ'.Instance (σ.specialize f ρ)) →
      HasType (Δ.insert x.name σ') (.letIn rest b) t) :
    HasType Δ (.letIn (.cons key x ps e rest) b) t := by
  obtain ⟨g, h, hg, hfresh⟩ :=
    exists_fresh_names (Δ.freeVars.keys ++ σ.body.vars.flatMap fun v => (f v).vars)
  simp only [List.mem_append, List.mem_flatMap, not_or, NameMap.mem_keys] at hfresh
  have he := he fun v hv =>
    show f v = (if v ∈ Γ.freeVars then f v else .var (g v)) by rw [if_pos hv]
  refine .letCons he (fun v => Context.mem_vars_generalize) (hb fun ρ => ?_)
  exact Context.instance_generalize hσ hg (fun v => (hfresh v).1)
    (fun v hv u hu => (hfresh u).2 ⟨v, hv, hu⟩) ρ

theorem HasType.subst_on {Γ : Context} {e : Expr} {t : Ty} (h : HasType Γ e t) :
    ∀ {f : String → Ty} {Δ : Context}, Γ.MapsOn e.freeIdents f Δ → HasType Δ e (t.bind f) := by
  induction h with
  | lit Γ l =>
    intro f Δ _
    rw [Literal.bind_ty]
    exact .lit Δ l
  | var hx ht =>
    intro f Δ hΔ
    obtain ⟨σ', hσ', hi⟩ := hΔ _ (by simp [Expr.freeIdents]) _ hx
    obtain ⟨ρ, rfl⟩ := Scheme.instance_iff.1 ht
    rw [Scheme.bind_specialize]
    exact .var hσ' (hi _)
  | app _ _ ihf iha =>
    intro f Δ hΔ
    have hf := ihf (hΔ.subset fun y hy => by simp [Expr.freeIdents, hy])
    rw [Ty.bind_fn] at hf
    exact .app hf (iha (hΔ.subset fun y hy => by simp [Expr.freeIdents, hy]))
  | abs _ ih =>
    intro f Δ hΔ
    refine .abs (ih (hΔ.insert (fun y hy hne => ?_) fun ρ => ?_))
    · simpa [Expr.mem_freeIdents_abs, Pattern.names, hy] using hne
    · rw [Scheme.specialize_mono]
      exact Scheme.instance_mono _
  | group _ ih =>
    intro f Δ hΔ
    exact .group (ih (hΔ.subset fun y hy => by simpa [Expr.freeIdents] using hy))
  | letNil _ ih =>
    intro f Δ hΔ
    refine .letNil (ih (hΔ.subset fun y hy => ?_))
    simpa [Expr.freeIdents, Bindings.freeIdentsBefore] using hy
  | letCons _ hσ _ ihe ihb =>
    intro f Δ hΔ
    have he := hΔ.subset fun y hy => Expr.mem_freeIdents_letCons.2 (.inl hy)
    refine .letCons_image (fun hfg => ihe (he.congr hfg)) hσ fun hσ' => ihb (hΔ.insert ?_ hσ')
    exact fun y hy hne => Expr.mem_freeIdents_letCons.2 (.inr ⟨hy, hne⟩)

theorem HasType.subst {Γ Δ : Context} {e : Expr} {t : Ty} {f : String → Ty} (h : HasType Γ e t)
    (hΔ : Γ.MapsInto f Δ) : HasType Δ e (t.bind f) :=
  h.subst_on (hΔ.on _)

theorem HasType.weaken {Γ : Context} {x : String} {σ σ' : Scheme} {e : Expr} {t : Ty}
    (h : HasType (Γ.insert x σ) e t) (hσ : ∀ ρ, σ'.Instance (σ.specialize .var ρ)) :
    HasType (Γ.insert x σ') e t := by
  have hw := h.subst_on ((Context.MapsOn.of_agree fun _ _ => rfl).insert (fun _ hy _ => hy) hσ)
  rwa [Ty.bind_id] at hw

/-- Nothing but the free identifiers of an expression matters to its types. -/
theorem HasType.congr {Γ Δ : Context} {e : Expr} {t : Ty}
    (h : ∀ x ∈ e.freeIdents, Γ.get? x = Δ.get? x) : HasType Γ e t ↔ HasType Δ e t := by
  constructor
  · intro he
    have hΔ := he.subst_on (Context.MapsOn.of_agree h)
    rwa [Ty.bind_id] at hΔ
  · intro he
    have hΓ := he.subst_on (Context.MapsOn.of_agree fun x hx => (h x hx).symm)
    rwa [Ty.bind_id] at hΓ

end LetPoly
