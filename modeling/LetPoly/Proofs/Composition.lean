import LetPoly.Proofs.Nesting
import LetPoly.Proofs.Renaming

/-!
Compositions of substitutions. They are not lawful in general, but each one that a run carries out
is. To speak of them all, the checker is told to write each of them down, which changes nothing
about its outcome (`Noting.Follows`).
-/

set_option autoImplicit false

namespace LetPoly

/-- Applying the composition is applying `inner` and then `outer`. -/
def Subst.Composable (outer inner : Subst) : Prop :=
  ∀ t : Ty, t.apply (outer.compose inner) = (t.apply inner).apply outer

theorem Subst.Within.composable {outer : Subst} {P : String → Prop} (h : outer.Within P)
    (inner : Subst) : outer.Composable inner :=
  fun t => h.apply_compose t

/-- Outer and inner substitution of each composition, the latest first. -/
abbrev Notes := List (Subst × Subst)

def Notes.Lawful (ns : Notes) : Prop := ∀ c ∈ ns, c.1.Composable c.2

theorem Notes.lawful_nil : Notes.Lawful [] := by simp [Lawful]

theorem Notes.Lawful.append {ms ns : Notes} (hm : ms.Lawful) (hn : ns.Lawful) :
    Notes.Lawful (ms ++ ns) := by
  intro c hc
  rcases List.mem_append.1 hc with hc | hc
  · exact hm c hc
  · exact hn c hc

theorem Notes.Lawful.cons {outer inner : Subst} {ns : Notes} (h : outer.Composable inner)
    (hn : ns.Lawful) : Notes.Lawful ((outer, inner) :: ns) := by
  intro c hc
  rcases List.mem_cons.1 hc with rfl | hc
  · exact h
  · exact hn c hc

def Notes.write (outer inner : Subst) : StateM Notes Unit := modify ((outer, inner) :: ·)

section Adds

variable {α β ε : Type} {A B : Prop} {x : StateM Notes α} {a : α} {b : β}

/-- Returns `a` whatever was written before, and what it writes is lawful if `A` holds. -/
def Notes.Adds (A : Prop) (x : StateM Notes α) (a : α) : Prop :=
  ∀ ns, ∃ added : Notes, x.run ns = (a, added ++ ns) ∧ (A → added.Lawful)

theorem Notes.Adds.imp (h : Notes.Adds B x a) (hAB : A → B) : Notes.Adds A x a := by
  intro ns
  obtain ⟨added, he, hl⟩ := h ns
  exact ⟨added, he, fun ha => hl (hAB ha)⟩

theorem Notes.adds_pure (a : α) : Notes.Adds A (pure a) a :=
  fun _ => ⟨[], rfl, fun _ => Notes.lawful_nil⟩

theorem Notes.adds_write {outer inner : Subst} (h : A → outer.Composable inner) :
    Notes.Adds A (Notes.write outer inner) () :=
  fun _ => ⟨[(outer, inner)], rfl, fun ha => Notes.lawful_nil.cons (h ha)⟩

theorem Notes.Adds.bind {f : α → StateM Notes β} (hx : Notes.Adds A x a)
    (hf : Notes.Adds A (f a) b) : Notes.Adds A (x >>= f) b := by
  intro ns
  obtain ⟨added, he, hl⟩ := hx ns
  obtain ⟨added', he', hl'⟩ := hf (added ++ ns)
  refine ⟨added' ++ added, ?_, fun ha => (hl' ha).append (hl ha)⟩
  rw [StateT.run_bind, he, List.append_assoc]
  exact he'

theorem Notes.Adds.map (hx : Notes.Adds A x a) (f : α → β) :
    Notes.Adds A (x >>= fun a => pure (f a)) (f a) :=
  hx.bind (Notes.adds_pure _)

theorem Notes.Adds.bindExcept {x : ExceptT ε (StateM Notes) α} {r : Except ε α}
    {f : α → ExceptT ε (StateM Notes) β} {g : α → Except ε β} (hx : Notes.Adds A x.run r)
    (hf : ∀ a, r = .ok a → Notes.Adds A (f a).run (g a)) :
    Notes.Adds A (x >>= f).run (r >>= g) := by
  rw [ExceptT.run_bind]
  refine hx.bind ?_
  cases r with
  | error e => exact Notes.adds_pure _
  | ok a => exact hf a rfl

end Adds

theorem adds_unifyNoting (l r : Ty) :
    Notes.Adds True (unifyNoting Notes.write l r).run (unify l r) := by
  induction l, r using unify_induction with
  | self t =>
    rw [unifyNoting_self, unify_self]
    exact Notes.adds_pure _
  | varLeft v t h =>
    rw [unifyNoting_var_left _ h, unify_var_left h]
    split
    · exact Notes.adds_pure _
    · exact Notes.adds_pure _
  | varRight v t h =>
    rw [unifyNoting_var_right _ h, unify_var_right h]
    split
    · exact Notes.adds_pure _
    · exact Notes.adds_pure _
  | clash l r h =>
    rw [unifyNoting_clash _ h, unify_clash h]
    exact Notes.adds_pure _
  | app f₁ a₁ f₂ a₂ ihf iha =>
    by_cases he : Ty.app f₁ a₁ = Ty.app f₂ a₂
    · cases he
      rw [unifyNoting_self, unify_self]
      exact Notes.adds_pure _
    · rw [unifyNoting_app _ he, unify_app]
      refine ihf.bindExcept fun s₁ h₁ => (iha s₁ h₁).bindExcept fun s₂ h₂ => ?_
      have hc : s₂.Composable s₁ := (unify_within h₂).composable s₁
      exact ((Notes.adds_write fun _ => hc).map Except.ok).bindExcept fun _ _ => Notes.adds_pure _

/-- The checker that writes each composition down. Like the supply, the notes outlive a failure. -/
abbrev Noting := CheckT (StateM Notes)

namespace Noting

variable {α β : Type} {A B : Prop} {x : Noting α} {y : Check α} {ν : NameSupply}

def exec (x : Noting α) (ν : NameSupply) (ns : Notes) :
    (Except TypeError α × NameSupply) × Notes := (x.run ν).run ns

/-- From `ν` the one has the outcome of the other, and what it writes is lawful if `A` holds. -/
def Follows (A : Prop) (x : Noting α) (y : Check α) (ν : NameSupply) : Prop :=
  Notes.Adds A (x.run ν) (y.exec ν)

theorem Follows.imp (h : Follows B x y ν) (hAB : A → B) : Follows A x y ν := Notes.Adds.imp h hAB

theorem Follows.exists_notes (h : Follows A x y ν) :
    ∃ ns : Notes, x.exec ν [] = (y.exec ν, ns) ∧ (A → ns.Lawful) := by
  obtain ⟨ns, he, hl⟩ := h []
  rw [List.append_nil] at he
  exact ⟨ns, he, hl⟩

theorem follows_lift (y : Check α) (ν : NameSupply) :
    Follows A (CheckT.lift y) (CheckT.lift y) ν :=
  Notes.adds_pure _

theorem follows_pure (a : α) (ν : NameSupply) : Follows A (pure a) (pure a) ν := Notes.adds_pure _

theorem Follows.bind {f : α → Noting β} {g : α → Check β} (hx : Follows A x y ν)
    (hf : ∀ a ν₁, y.exec ν = (.ok a, ν₁) → Follows A (f a) (g a) ν₁) :
    Follows A (x >>= f) (y >>= g) ν := by
  rw [Follows, Check.exec_bind]
  refine Notes.Adds.bind (f := fun p => ExceptT.bindCont f p.1 p.2) hx ?_
  cases hy : y.exec ν with
  | mk r ν₁ =>
    cases r with
    | error e => exact Notes.adds_pure _
    | ok a => exact hf a ν₁ hy

theorem follows_unify (l r : Ty) (ν : NameSupply) :
    Follows A (CheckT.unify Notes.write l r) (CheckT.unify unnoted l r) ν := by
  have h := ((adds_unifyNoting l r).imp fun _ : A => trivial).map fun u =>
    (u.mapError TypeError.unify, ν)
  exact h

theorem follows_compose {outer inner : Subst} (h : A → outer.Composable inner) (ν : NameSupply) :
    Follows A (CheckT.compose Notes.write outer inner) (CheckT.compose unnoted outer inner) ν := by
  have h := (Notes.adds_write h).map fun _ =>
    ((.ok (outer.compose inner), ν) : Except TypeError Subst × NameSupply)
  exact h

end Noting

theorem Pattern.avoids_infer {p : Pattern} {Γ Δ : Context} {ν ν' : NameSupply} {t : Ty}
    (hΓ : ν.Avoids Γ) (h : (p.infer Γ).exec ν = (.ok (t, Δ), ν')) : ν'.Avoids Δ := by
  cases p with
  | var x =>
    cases h
    exact hΓ.insert_fresh x.name
  | _ => cases h

theorem Pattern.avoids_inferAll {ps : List Pattern} {Γ Δ : Context} {ν ν' : NameSupply}
    {ts : List Ty} (hΓ : ν.Avoids Γ) (h : (Pattern.inferAll ps Γ).exec ν = (.ok (ts, Δ), ν')) :
    ν'.Avoids Δ := by
  induction ps generalizing Γ ν ts with
  | nil =>
    cases h
    exact hΓ
  | cons p ps ih =>
    rw [Pattern.inferAll, Check.exec_bind_ok] at h
    obtain ⟨⟨t, Γ₁⟩, ν₁, hp, h⟩ := h
    obtain ⟨⟨us, Γ₂⟩, ν₂, hps, h⟩ := Check.exec_bind_ok.1 h
    cases h
    exact ih (Pattern.avoids_infer hΓ hp) hps

theorem Bindings.avoids_infer : (bs : Bindings) → {s s' : Subst} → {Γ Δ : Context} →
    {ν ν' : NameSupply} → ν.Avoids Γ → (bs.infer s Γ).exec ν = (.ok (s', Δ), ν') → ν'.Avoids Δ
  | .nil, s, s', Γ, Δ, ν, ν', hΓ, h => by
    rw [Bindings.infer_nil] at h
    cases h
    exact hΓ
  | .cons k x ps e rest, s, s', Γ, Δ, ν, ν', hΓ, h => by
    rw [Bindings.infer_cons, Check.exec_bind_ok] at h
    obtain ⟨⟨s₁, t⟩, ν₁, h₁, h⟩ := h
    rw [Expr.exec_function e.tidy ps hΓ] at h₁
    have o := (Expr.lambdas ps e).tidy hΓ h₁
    exact rest.avoids_infer (Context.avoids_afterBinding hΓ o x.name) h

theorem Noting.follows_function {ps : List Pattern} {body' : Context → Noting (Subst × Ty)}
    {body : Context → Check (Subst × Ty)}
    (h : ∀ Γ ν, Noting.Follows (ν.Avoids Γ) (body' Γ) (body Γ) ν) (Γ : Context) (ν : NameSupply) :
    Noting.Follows (ν.Avoids Γ) (CheckT.function ps body' Γ) (CheckT.function ps body Γ) ν := by
  refine (Noting.follows_lift _ ν).bind fun ⟨ts, Δ⟩ ν₁ hps => ?_
  refine ((h Δ ν₁).imp fun hΓ => Pattern.avoids_inferAll hΓ hps).bind fun ⟨s, t⟩ ν₂ _ => ?_
  exact Noting.follows_pure _ ν₂

mutual
theorem Expr.follows_inferNoting : (e : Expr) → (Γ : Context) → (ν : NameSupply) →
    Noting.Follows (ν.Avoids Γ) (e.inferNoting Notes.write Γ) (e.inferNoting unnoted Γ) ν
  | .group e, Γ, ν => by
    rw [Expr.inferNoting, Expr.inferNoting]
    exact e.follows_inferNoting Γ ν
  | .lit l, Γ, ν => by
    rw [Expr.inferNoting, Expr.inferNoting]
    exact Noting.follows_pure _ ν
  | .var x, Γ, ν => by
    rw [Expr.inferNoting, Expr.inferNoting]
    cases Γ.get? x.name with
    | none => exact Notes.adds_pure _
    | some σ => exact (Noting.follows_lift _ ν).bind fun t ν₁ _ => Noting.follows_pure _ ν₁
  | .app f a, Γ, ν => by
    rw [Expr.inferNoting, Expr.inferNoting]
    refine (Noting.follows_lift _ ν).bind fun v ν₀ hv => ?_
    cases hv
    refine ((f.follows_inferNoting Γ _).imp NameSupply.Avoids.fresh).bind fun ⟨s₁, tf⟩ ν₁ hf => ?_
    have hΔ := fun hΓ : ν.Avoids Γ => (f.tidy hΓ.fresh hf).avoids hΓ.fresh
    refine ((a.follows_inferNoting _ ν₁).imp hΔ).bind fun ⟨s₂, ta⟩ ν₂ ha => ?_
    refine (Noting.follows_unify _ _ ν₂).bind fun s₃ ν₃ hu => ?_
    have h₂ := fun hΓ => (a.tidy (hΔ hΓ) ha).subst.composable s₁
    refine (Noting.follows_compose h₂ ν₃).bind fun s₂₁ ν₄ _ => ?_
    have h₃ := unify_within (mapError_eq_ok.1 (congrArg Prod.fst hu))
    refine (Noting.follows_compose (fun _ => h₃.composable _) ν₄).bind fun s ν₅ _ => ?_
    exact Noting.follows_pure _ ν₅
  | .abs p b, Γ, ν => by
    rw [Expr.inferNoting, Expr.inferNoting]
    refine (Noting.follows_lift _ ν).bind fun ⟨tp, Δ⟩ ν₁ hp => ?_
    refine ((b.follows_inferNoting Δ ν₁).imp fun hΓ => Pattern.avoids_infer hΓ hp).bind
      fun ⟨s, tb⟩ ν₂ _ => ?_
    exact Noting.follows_pure _ ν₂
  | .letIn bs b, Γ, ν => by
    rw [Expr.inferNoting, Expr.inferNoting]
    refine (bs.follows_inferNoting ∅ Γ ν).bind fun ⟨s₁, Δ⟩ ν₁ hbs => ?_
    have hΔ := fun hΓ : ν.Avoids Γ => bs.avoids_infer hΓ hbs
    refine ((b.follows_inferNoting Δ ν₁).imp hΔ).bind fun ⟨s₂, t⟩ ν₂ hb => ?_
    have h₂ := fun hΓ => (b.tidy (hΔ hΓ) hb).subst.composable s₁
    exact (Noting.follows_compose h₂ ν₂).bind fun s ν₃ _ => Noting.follows_pure _ ν₃

theorem Bindings.follows_inferNoting : (bs : Bindings) → (s : Subst) → (Γ : Context) →
    (ν : NameSupply) →
      Noting.Follows (ν.Avoids Γ) (bs.inferNoting Notes.write s Γ) (bs.inferNoting unnoted s Γ) ν
  | .nil, s, Γ, ν => by
    rw [Bindings.inferNoting, Bindings.inferNoting]
    exact Noting.follows_pure _ ν
  | .cons k x ps e rest, s, Γ, ν => by
    rw [Bindings.inferNoting, Bindings.inferNoting]
    refine (Noting.follows_function e.follows_inferNoting Γ ν).bind fun ⟨s₁, t⟩ ν₁ h₁ => ?_
    have o := fun hΓ : ν.Avoids Γ =>
      (Expr.lambdas ps e).tidy hΓ (Expr.exec_function e.tidy ps hΓ ▸ h₁)
    have hc := fun hΓ => (o hΓ).subst.composable s
    refine (Noting.follows_compose hc ν₁).bind fun s' ν₂ hs => ?_
    cases hs
    exact (rest.follows_inferNoting _ _ ν₁).imp fun hΓ =>
      Context.avoids_afterBinding hΓ (o hΓ) x.name
end

theorem Binding.follows_inferNoting (b : Binding) (Γ : Context) (ν : NameSupply) :
    Noting.Follows (ν.Avoids Γ) (b.inferNoting Notes.write Γ) (b.inferNoting unnoted Γ) ν :=
  Noting.follows_function b.body.follows_inferNoting Γ ν

/-- What a run from `ν` returns is over the free variables of `Γ` and the names drawn on the way,
with no bound name left in it, and each composition on the way, which the run itself tells, is
lawful. -/
structure TidyRun (Γ : Context) (ν : NameSupply)
    (run : {m : Type → Type} → [Monad m] → (Subst → Subst → m Unit) → CheckT m (Subst × Ty)) :
    Prop where
  outcome : ∀ (s : Subst) (t : Ty) ν', Check.exec (run unnoted) ν = (.ok (s, t), ν') →
    Outcome Γ ν s t ν'
  type_fixed : ∀ (s : Subst) (t : Ty) ν', Check.exec (run unnoted) ν = (.ok (s, t), ν') →
    t.apply s = t
  idempotent : ∀ (s : Subst) (t : Ty) ν', Check.exec (run unnoted) ν = (.ok (s, t), ν') →
    ∀ u : Ty, (u.apply s).apply s = u.apply s
  lawful : ∃ ns, Noting.exec (run Notes.write) ν [] = (Check.exec (run unnoted) ν, ns) ∧ ns.Lawful

end LetPoly
