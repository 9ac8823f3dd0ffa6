import LetPoly.Proofs.Composition
import LetPoly.Proofs.Drawing

/-!
Supplies whose indices end at a limit. What a run does depends only on the names that it can still
draw, so it cannot tell a supply from one that agrees with it up to a limit which the run does not
pass (`Check.Local`). Names beyond the limit may then be free in the context.
-/

set_option autoImplicit false

namespace LetPoly

namespace NameSupply

variable {limit : Nat} {ν ν' μ μ' : NameSupply} {v : String}

/-- Still to be drawn, if indices end at the limit. -/
def PendingUpTo (limit : Nat) (ν : NameSupply) (v : String) : Prop :=
  v ∉ ν.reserved ∧ ∃ k, ν.issued < k ∧ k ≤ limit ∧ letters k = v

theorem PendingUpTo.pending (h : ν.PendingUpTo limit v) : ν.Pending v := by
  obtain ⟨hr, k, hk, -, hv⟩ := h
  exact ⟨hr, k, hk, hv⟩

/-- At the same index, with the same names still to be drawn. -/
structure SameUpTo (limit : Nat) (ν μ : NameSupply) : Prop where
  issued : μ.issued = ν.issued
  pending : ∀ v, μ.PendingUpTo limit v ↔ ν.PendingUpTo limit v

theorem SameUpTo.symm (h : ν.SameUpTo limit μ) : μ.SameUpTo limit ν :=
  ⟨h.issued.symm, fun v => (h.pending v).symm⟩

theorem SameUpTo.reserved_iff (h : ν.SameUpTo limit μ) {k : Nat} (hk : ν.issued < k)
    (hl : k ≤ limit) : letters k ∈ μ.reserved ↔ letters k ∈ ν.reserved := by
  have hν : ν.PendingUpTo limit (letters k) ↔ letters k ∉ ν.reserved :=
    ⟨fun hp => hp.1, fun hr => ⟨hr, k, hk, hl, rfl⟩⟩
  have hμ : μ.PendingUpTo limit (letters k) ↔ letters k ∉ μ.reserved :=
    ⟨fun hp => hp.1, fun hr => ⟨hr, k, h.issued ▸ hk, hl, rfl⟩⟩
  rw [← not_iff_not, ← hν, ← hμ, h.pending]

theorem SameUpTo.later (h : ν.SameUpTo limit μ) (hr : ν.Reaches ν') :
    ν'.SameUpTo limit ⟨ν'.issued, μ.reserved⟩ := by
  refine ⟨rfl, fun v => ?_⟩
  constructor
  · rintro ⟨hv, k, hk, hl, rfl⟩
    have hk' : ν.issued < k := Nat.lt_of_le_of_lt hr.issued hk
    exact ⟨hr.reserved ▸ fun hm => hv ((h.reserved_iff hk' hl).2 hm), k, hk, hl, rfl⟩
  · rintro ⟨hv, k, hk, hl, rfl⟩
    have hk' : ν.issued < k := Nat.lt_of_le_of_lt hr.issued hk
    exact ⟨fun hm => hv (hr.reserved ▸ (h.reserved_iff hk' hl).1 hm), k, hk, hl, rfl⟩

theorem SameUpTo.nextIndex (h : ν.SameUpTo limit μ)
    (hl : LetPoly.nextIndex ν.reserved ν.issued ≤ limit) :
    LetPoly.nextIndex μ.reserved μ.issued = LetPoly.nextIndex ν.reserved ν.issued := by
  obtain ⟨hlt, hfree, hbetween⟩ := finds_iff_first.1 (finds_iff.2 rfl)
  rw [h.issued]
  refine finds_iff.1 (finds_iff_first.2 ⟨hlt, ?_, fun k hk hkm => ?_⟩)
  · rwa [h.reserved_iff hlt hl]
  · rw [h.reserved_iff hk (by omega)]
    exact hbetween k hk hkm

theorem SameUpTo.fresh (h : ν.SameUpTo limit μ) (hl : (NameSupply.fresh ν).2.issued ≤ limit) :
    NameSupply.fresh μ =
      ((NameSupply.fresh ν).1, ⟨(NameSupply.fresh ν).2.issued, μ.reserved⟩) := by
  show (letters (LetPoly.nextIndex μ.reserved μ.issued), _) = _
  rw [h.nextIndex hl]
  rfl

theorem SameUpTo.draw (k : Nat) (h : ν.SameUpTo limit μ) (hl : (draw k ν).2.issued ≤ limit) :
    NameSupply.draw k μ =
      ((NameSupply.draw k ν).1, ⟨(NameSupply.draw k ν).2.issued, μ.reserved⟩) := by
  induction k generalizing ν μ with
  | zero =>
    show ([], μ) = ([], (⟨ν.issued, μ.reserved⟩ : NameSupply))
    rw [← h.issued]
  | succ k ih =>
    have hfresh : (NameSupply.fresh ν).2.issued ≤ limit :=
      Nat.le_trans (reaches_draw k _).issued hl
    rw [draw_succ, h.fresh hfresh, ih (h.later (reaches_fresh ν)) hl]
    rfl

/-- Names that are not pending up to the limit can be reserved. -/
theorem exists_sameUpTo (limit : Nat) (ν : NameSupply) (names : List String) :
    ∃ μ : NameSupply, ν.SameUpTo limit μ ∧
      ∀ v ∈ names, ¬ ν.PendingUpTo limit v → ¬ μ.Pending v := by
  classical
  let spared : NameSet := .ofNames (names.filter fun v => ¬ ν.PendingUpTo limit v)
  have hspared : ∀ v, v ∈ spared ↔ v ∈ names ∧ ¬ ν.PendingUpTo limit v := by
    intro v
    simp [spared]
  refine ⟨⟨ν.issued, ν.reserved.union spared⟩, ⟨rfl, fun v => ?_⟩, fun v hv hn hp => ?_⟩
  · constructor
    · rintro ⟨hr, hk⟩
      exact ⟨fun hm => hr (NameMap.mem_union.2 (.inl hm)), hk⟩
    · intro h
      refine ⟨fun hm => ?_, h.2⟩
      rcases NameMap.mem_union.1 hm with hm | hm
      · exact h.1 hm
      · exact ((hspared v).1 hm).2 h
  · exact hp.1 (NameMap.mem_union.2 (.inr ((hspared v).2 ⟨hv, hn⟩)))

/-- No name still to be drawn up to the limit is free in the context. -/
def AvoidsUpTo (limit : Nat) (ν : NameSupply) (Γ : Context) : Prop :=
  ∀ v ∈ Γ.freeVars, ¬ ν.PendingUpTo limit v

theorem Avoids.upTo {Γ : Context} (h : ν.Avoids Γ) (limit : Nat) : ν.AvoidsUpTo limit Γ :=
  fun v hv hp => h v hv hp.pending

theorem AvoidsUpTo.exists_avoids {Γ : Context} (h : ν.AvoidsUpTo limit Γ) :
    ∃ μ, ν.SameUpTo limit μ ∧ μ.Avoids Γ := by
  obtain ⟨μ, hμ, hp⟩ := exists_sameUpTo limit ν Γ.freeVars.keys
  exact ⟨μ, hμ, fun v hv => hp v (NameMap.mem_keys.2 hv) (h v hv)⟩

end NameSupply

open NameSupply (SameUpTo)

namespace Noting

variable {α β : Type}

theorem exec_bind (x : Noting α) (f : α → Noting β) (ν : NameSupply) (ns : Notes) :
    (x >>= f).exec ν ns =
      match x.exec ν ns with
      | ((.ok a, ν'), ns') => (f a).exec ν' ns'
      | ((.error e, ν'), ns') => ((.error e, ν'), ns') := by
  show (match x.exec ν ns with | ((r, ν'), ns') => (ExceptT.bindCont f r) ν' ns') = _
  obtain ⟨⟨r, ν'⟩, ns'⟩ := x.exec ν ns
  cases r <;> rfl

/-- Goes forward in the supply, and does the same on every supply that agrees up to a limit which it
does not pass. -/
structure Local (x : Noting α) : Prop where
  advances : ∀ (ν : NameSupply) ns, ν.Reaches (x.exec ν ns).1.2
  agrees : ∀ {limit : Nat} {ν μ : NameSupply} ns, ν.SameUpTo limit μ →
    (x.exec ν ns).1.2.issued ≤ limit → x.exec μ ns =
      (((x.exec ν ns).1.1, ⟨(x.exec ν ns).1.2.issued, μ.reserved⟩), (x.exec ν ns).2)

theorem local_of_blind {x : Noting α} {r : Notes → Except TypeError α × Notes}
    (h : ∀ ν ns, x.exec ν ns = (((r ns).1, ν), (r ns).2)) : x.Local := by
  constructor
  case advances =>
    intro ν ns
    rw [h]
    exact .refl ν
  case agrees =>
    intro limit ν μ ns hμ _
    rw [h, h]
    dsimp only
    rw [← hμ.issued]

theorem local_pure (a : α) : (pure a : Noting α).Local :=
  local_of_blind (r := fun ns => (.ok a, ns)) fun _ _ => rfl

theorem local_throw (e : TypeError) : (throw e : Noting α).Local :=
  local_of_blind (r := fun ns => (.error e, ns)) fun _ _ => rfl

theorem local_compose (outer inner : Subst) : Local (CheckT.compose Notes.write outer inner) :=
  local_of_blind (r := fun ns => (.ok (outer.compose inner), (outer, inner) :: ns)) fun _ _ => rfl

theorem local_unify (l r : Ty) : Local (CheckT.unify Notes.write l r) :=
  local_of_blind (r := fun ns => (((unifyNoting Notes.write l r).run.run ns).1.mapError .unify,
    ((unifyNoting Notes.write l r).run.run ns).2)) fun _ _ => rfl

theorem Local.bind {x : Noting α} {f : α → Noting β} (hx : x.Local) (hf : ∀ a, (f a).Local) :
    (x >>= f).Local := by
  constructor
  case advances =>
    intro ν ns
    have h := hx.advances ν ns
    rw [exec_bind]
    generalize x.exec ν ns = p at h ⊢
    obtain ⟨⟨r, ν₁⟩, ns₁⟩ := p
    cases r with
    | error e => exact h
    | ok a => exact h.trans ((hf a).advances ν₁ ns₁)
  case agrees =>
    intro limit ν μ ns hμ hl
    have hr := hx.advances ν ns
    have hagree := hx.agrees ns hμ
    rw [exec_bind] at hl
    rw [exec_bind, exec_bind]
    generalize x.exec ν ns = p at hl hr hagree ⊢
    obtain ⟨⟨r, ν₁⟩, ns₁⟩ := p
    cases r with
    | error e => rw [hagree hl]
    | ok a =>
      have hl₁ : ν₁.issued ≤ limit := Nat.le_trans ((hf a).advances ν₁ ns₁).issued hl
      rw [hagree hl₁]
      exact (hf a).agrees ns₁ (hμ.later hr) hl

theorem local_fresh : Local (CheckT.lift Check.fresh) := by
  constructor
  case advances => exact fun ν ns => NameSupply.reaches_fresh ν
  case agrees =>
    intro limit ν μ ns hμ hl
    show ((Except.ok (NameSupply.fresh μ).1, (NameSupply.fresh μ).2), ns) = _
    rw [hμ.fresh hl]
    rfl

theorem local_instantiate (σ : Scheme) : Local (CheckT.lift (Check.instantiate σ)) := by
  constructor
  case advances => exact fun ν ns => σ.reaches_instantiate ν
  case agrees =>
    intro limit ν μ ns hμ hl
    show ((Except.ok (σ.instantiate μ).1, (σ.instantiate μ).2), ns) = _
    have h : σ.instantiate μ = ((σ.instantiate ν).1, ⟨(σ.instantiate ν).2.issued, μ.reserved⟩) :=
      congrArg (fun p : List String × NameSupply =>
        (σ.body.apply (.ofList (σ.vars.keys.zip (p.1.map .var))), p.2)) (hμ.draw _ hl)
    rw [h]
    rfl

theorem lift_bind (y : Check α) (g : α → Check β) :
    (CheckT.lift (y >>= g) : Noting β) = CheckT.lift y >>= fun a => CheckT.lift (g a) := by
  funext ν ns
  show ((y >>= g).exec ν, ns) = exec (CheckT.lift y >>= fun a => CheckT.lift (g a)) ν ns
  rw [Check.exec_bind, exec_bind]
  show _ = match ((y.exec ν, ns) : (Except TypeError α × NameSupply) × Notes) with
    | ((.ok a, ν'), ns') => exec (CheckT.lift (g a)) ν' ns'
    | ((.error e, ν'), ns') => ((.error e, ν'), ns')
  obtain ⟨r, ν₁⟩ := y.exec ν
  cases r <;> rfl

theorem local_pattern (p : Pattern) (Γ : Context) : Local (CheckT.lift (p.infer Γ)) := by
  cases p with
  | var x =>
    rw [Pattern.infer, lift_bind]
    exact local_fresh.bind fun v => local_pure _
  | _ => exact local_throw _

theorem local_patterns (ps : List Pattern) (Γ : Context) :
    Local (CheckT.lift (Pattern.inferAll ps Γ)) := by
  induction ps generalizing Γ with
  | nil => exact local_pure _
  | cons p ps ih =>
    rw [Pattern.inferAll, lift_bind]
    refine (local_pattern p Γ).bind fun r => ?_
    dsimp only
    rw [lift_bind]
    exact (ih r.2).bind fun _ => local_pure _

theorem local_function {body : Context → Noting (Subst × Ty)} (h : ∀ Γ, (body Γ).Local)
    (ps : List Pattern) (Γ : Context) : Local (CheckT.function ps body Γ) :=
  (local_patterns ps Γ).bind fun r => (h r.2).bind fun _ => local_pure _

end Noting

mutual
theorem Expr.local_inferNoting : (e : Expr) → (Γ : Context) →
    Noting.Local (e.inferNoting Notes.write Γ)
  | .group e, Γ => by
    rw [Expr.inferNoting]
    exact e.local_inferNoting Γ
  | .lit l, Γ => by
    rw [Expr.inferNoting]
    exact Noting.local_pure _
  | .var x, Γ => by
    rw [Expr.inferNoting]
    cases Γ.get? x.name with
    | none => exact Noting.local_throw _
    | some σ => exact (Noting.local_instantiate σ).bind fun _ => Noting.local_pure _
  | .app f a, Γ => by
    rw [Expr.inferNoting]
    refine Noting.local_fresh.bind fun v => (f.local_inferNoting Γ).bind fun r₁ => ?_
    refine (a.local_inferNoting _).bind fun r₂ => (Noting.local_unify _ _).bind fun s₃ => ?_
    refine (Noting.local_compose _ _).bind fun s => (Noting.local_compose _ _).bind fun _ => ?_
    exact Noting.local_pure _
  | .abs p b, Γ => by
    rw [Expr.inferNoting]
    refine (Noting.local_pattern p Γ).bind fun r₁ => (b.local_inferNoting _).bind fun r₂ => ?_
    exact Noting.local_pure _
  | .letIn bs b, Γ => by
    rw [Expr.inferNoting]
    refine (bs.local_inferNoting ∅ Γ).bind fun r₁ => (b.local_inferNoting _).bind fun r₂ => ?_
    exact (Noting.local_compose _ _).bind fun _ => Noting.local_pure _

theorem Bindings.local_inferNoting : (bs : Bindings) → (s : Subst) → (Γ : Context) →
    Noting.Local (bs.inferNoting Notes.write s Γ)
  | .nil, s, Γ => by
    rw [Bindings.inferNoting]
    exact Noting.local_pure _
  | .cons k x ps e rest, s, Γ => by
    rw [Bindings.inferNoting]
    refine (Noting.local_function e.local_inferNoting ps Γ).bind fun r => ?_
    exact (Noting.local_compose _ _).bind fun s' => rest.local_inferNoting s' _
end

theorem Binding.local_inferNoting (b : Binding) (Γ : Context) :
    Noting.Local (b.inferNoting Notes.write Γ) :=
  Noting.local_function b.body.local_inferNoting b.params Γ

def Check.Local {α : Type} (y : Check α) : Prop :=
  ∀ ⦃limit ν μ⦄, ν.SameUpTo limit μ → (y.exec ν).2.issued ≤ limit →
    y.exec μ = ((y.exec ν).1, ⟨(y.exec ν).2.issued, μ.reserved⟩)

theorem Noting.Local.check {α : Type} {A : NameSupply → Prop} {x : Noting α} {y : Check α}
    (hx : x.Local) (hf : ∀ ν, Noting.Follows (A ν) x y ν) : y.Local := by
  intro limit ν μ hμ hl
  obtain ⟨ns, hν, -⟩ := (hf ν).exists_notes
  obtain ⟨ns', hμ', -⟩ := (hf μ).exists_notes
  have h := hx.agrees [] hμ (by rwa [hν])
  rw [hν, hμ'] at h
  exact congrArg Prod.fst h

theorem Expr.local_infer (e : Expr) (Γ : Context) : (e.infer Γ).Local :=
  (e.local_inferNoting Γ).check (e.follows_inferNoting Γ)

theorem Binding.local_infer (b : Binding) (Γ : Context) : (b.infer Γ).Local :=
  (b.local_inferNoting Γ).check (b.follows_inferNoting Γ)

/-- A run is the same on a supply that is the same up to a limit which it does not pass, and leaves
such a supply. -/
theorem Check.Local.exec_same {α : Type} {y : Check α} {limit : Nat} {ν ν₁ μ : NameSupply}
    {r : Except TypeError α} (hy : y.Local) (hadv : y.Advances) (hμ : ν.SameUpTo limit μ)
    (h : y.exec ν = (r, ν₁)) (hl : ν₁.issued ≤ limit) :
    ∃ μ₁, y.exec μ = (r, μ₁) ∧ ν₁.SameUpTo limit μ₁ := by
  have hrun := hy hμ (by rwa [h])
  have hlater := hμ.later (hadv ν)
  rw [h] at hrun hlater
  exact ⟨_, hrun, hlater⟩

/-- Computations that agree on one supply agree on any that is the same up to a limit which they do
not pass. -/
theorem Check.Local.exec_eq {α : Type} {x y : Check α} {limit : Nat} {ν μ : NameSupply}
    (hx : x.Local) (hy : y.Local) (hμ : ν.SameUpTo limit μ) (hr : ν.Reaches (x.exec ν).2)
    (h : x.exec μ = y.exec μ) (hl : (x.exec ν).2.issued ≤ limit) : x.exec ν = y.exec ν := by
  have hxμ := hx hμ hl
  rw [h] at hxμ
  have hyν := hy hμ.symm (by rwa [hxμ])
  rw [hyν, hxμ]
  exact Prod.ext rfl (by rw [← hr.reserved])

/-- Checking a binding and checking its curried function have one outcome: the same substitution and
type or the same error, and the same supply left. -/
theorem Binding.exec_infer_eq_lambdas (b : Binding) {Γ : Context} {ν : NameSupply} {limit : Nat}
    (hΓ : ν.AvoidsUpTo limit Γ) (hl : ((b.infer Γ).exec ν).2.issued ≤ limit) :
    (b.infer Γ).exec ν = ((Expr.lambdas b.params b.body).infer Γ).exec ν := by
  obtain ⟨μ, hμ, hΓ⟩ := hΓ.exists_avoids
  exact (b.local_infer Γ).exec_eq (Expr.local_infer _ Γ) hμ (b.advances_infer Γ ν)
    (Expr.exec_function b.body.tidy b.params hΓ) hl

/-- Written `f x x = k x`, where the second parameter hides the first. -/
theorem exec_infer_hidden_parameter :
    (Binding.infer
        ⟨⟨"f", none⟩, [.var ⟨"x", none⟩, .var ⟨"x", none⟩],
          .app (.var ⟨"k", none⟩) (.var ⟨"x", none⟩)⟩
        (.singleton "k" (.mono (.var "a")))).exec (.avoiding (.ofNames ["a"])) =
      ((Expr.abs (.var ⟨"x", none⟩) (.abs (.var ⟨"x", none⟩)
        (.app (.var ⟨"k", none⟩) (.var ⟨"x", none⟩)))).infer
          (.singleton "k" (.mono (.var "a")))).exec (.avoiding (.ofNames ["a"])) :=
  Binding.exec_infer_eq_lambdas _
    ((Context.avoids_supply (.singleton "k" (.mono (.var "a")))).upTo 18446744073709551615) (by cbv)

/-- A `let` of several bindings and the nest of single ones have one outcome. -/
theorem Expr.exec_letIn_eq_nestLets (bs : Bindings) (b : Expr) {Γ : Context} {ν : NameSupply}
    {limit : Nat} (hΓ : ν.AvoidsUpTo limit Γ)
    (hl : (((Expr.letIn bs b).infer Γ).exec ν).2.issued ≤ limit) :
    ((Expr.letIn bs b).infer Γ).exec ν = ((Expr.nestLets bs b).infer Γ).exec ν := by
  obtain ⟨μ, hμ, hΓ⟩ := hΓ.exists_avoids
  exact (Expr.local_infer _ Γ).exec_eq (Expr.local_infer _ Γ) hμ (Expr.advances_infer _ Γ ν)
    (Expr.exec_nestLets bs b hΓ) hl

/-- In `let f = k; f y = f y in f` both bindings have one name, under two keys. -/
theorem exec_rebound_nested :
    ((Expr.letIn
        (.cons "f" ⟨"f", none⟩ [] (.var ⟨"k", none⟩)
          (.cons "g" ⟨"f", none⟩ [.var ⟨"y", none⟩] (.app (.var ⟨"f", none⟩) (.var ⟨"y", none⟩))
            .nil))
        (.var ⟨"f", none⟩)).infer (.singleton "k" (.mono (.var "a")))).exec
          (.avoiding (.ofNames ["a"])) =
      ((Expr.letIn (.cons "f" ⟨"f", none⟩ [] (.var ⟨"k", none⟩) .nil)
        (.letIn
          (.cons "g" ⟨"f", none⟩ [.var ⟨"y", none⟩] (.app (.var ⟨"f", none⟩) (.var ⟨"y", none⟩))
            .nil)
          (.var ⟨"f", none⟩))).infer (.singleton "k" (.mono (.var "a")))).exec
            (.avoiding (.ofNames ["a"])) :=
  Expr.exec_letIn_eq_nestLets _ _
    ((Context.avoids_supply (.singleton "k" (.mono (.var "a")))).upTo 18446744073709551615) (by cbv)

theorem Context.InPlay.sameUpTo {Γ : Context} {limit : Nat} {ν ν' μ : NameSupply} {v : String}
    (hμ : ν.SameUpTo limit μ) (hl : ν'.issued ≤ limit)
    (h : Γ.InPlay μ ⟨ν'.issued, μ.reserved⟩ v) : Γ.InPlay ν ν' v := by
  refine h.imp_right fun ⟨hp, hn⟩ => ?_
  obtain ⟨hv, k, hk, rfl⟩ := hp
  have hk' : k ≤ ν'.issued := Nat.le_of_not_lt fun hlt => hn ⟨hv, k, hlt, rfl⟩
  have hpending : ν.PendingUpTo limit (letters k) :=
    (hμ.pending _).1 ⟨hv, k, hk, Nat.le_trans hk' hl, rfl⟩
  refine ⟨hpending.pending, fun ⟨_, j, hj, he⟩ => ?_⟩
  have : j = k := letters_injective he
  omega

theorem Outcome.sameUpTo {Γ : Context} {limit : Nat} {ν ν' μ : NameSupply} {s : Subst} {t : Ty}
    (hμ : ν.SameUpTo limit μ) (hr : ν.Reaches ν') (hl : ν'.issued ≤ limit)
    (o : Outcome Γ μ s t ⟨ν'.issued, μ.reserved⟩) : Outcome Γ ν s t ν' :=
  ⟨hr, o.subst.mono fun _ hv => hv.sameUpTo hμ hl,
    fun v hv => ⟨(o.type v hv).1.sameUpTo hμ hl, (o.type v hv).2⟩⟩

theorem TidyRun.of_local {Γ : Context} {limit : Nat} {ν μ : NameSupply} {A : NameSupply → Prop}
    {run : {m : Type → Type} → [Monad m] → (Subst → Subst → m Unit) → CheckT m (Subst × Ty)}
    (hlocal : Noting.Local (run Notes.write))
    (hfollows : ∀ ν, Noting.Follows (A ν) (run Notes.write) (run unnoted) ν)
    (hμ : ν.SameUpTo limit μ) (hA : A μ)
    (ho : ∀ s t μ', Check.exec (run unnoted) μ = (.ok (s, t), μ') → Outcome Γ μ s t μ')
    (hl : (Check.exec (run unnoted) ν).2.issued ≤ limit) : TidyRun Γ ν run := by
  obtain ⟨ns, hν, -⟩ := (hfollows ν).exists_notes
  obtain ⟨ns', hμ', hlawful⟩ := (hfollows μ).exists_notes
  have hr := hlocal.advances ν []
  have h := hlocal.agrees [] hμ (by rwa [hν])
  rw [hν] at hr h
  rw [hμ'] at h
  obtain ⟨hexec, rfl⟩ := Prod.mk.inj h
  have hout : ∀ s t ν', Check.exec (run unnoted) ν = (.ok (s, t), ν') → Outcome Γ ν s t ν' := by
    intro s t ν' he
    rw [he] at hexec hr hl
    exact (ho s t _ hexec).sameUpTo hμ hr hl
  exact ⟨hout, fun s t ν' he => (hout s t ν' he).apply_type,
    fun s t ν' he => (hout s t ν' he).subst.apply_apply, ns', hν, hlawful hA⟩

/-- Every run is tidy, of an expression and of a binding, as long as no name that is still to be
drawn up to the limit is free in the context and the run does not pass the limit. -/
theorem tidyRun_of_avoids {Γ : Context} {ν : NameSupply} {limit : Nat}
    (hΓ : ν.AvoidsUpTo limit Γ) :
    (∀ e : Expr, ((e.infer Γ).exec ν).2.issued ≤ limit →
      TidyRun Γ ν fun note => e.inferNoting note Γ) ∧
    ∀ b : Binding, ((b.infer Γ).exec ν).2.issued ≤ limit →
      TidyRun Γ ν fun note => b.inferNoting note Γ := by
  obtain ⟨μ, hμ, hΓ⟩ := hΓ.exists_avoids
  refine ⟨fun e hl => ?_, fun b hl => ?_⟩
  · exact .of_local (e.local_inferNoting Γ) (e.follows_inferNoting Γ) hμ hΓ
      (fun s t μ' h => e.tidy hΓ h) hl
  · exact .of_local (b.local_inferNoting Γ) (b.follows_inferNoting Γ) hμ hΓ
      (fun s t μ' h => b.outcome hΓ h) hl

/-- `(\x -> x) n` with `n : 'z`: the parameter and `'z` are tied to the result. -/
theorem tidyRun_apply_identity :
    ((Expr.app (.lambda ⟨"x", none⟩ (.var ⟨"x", none⟩)) (.var ⟨"n", none⟩)).infer
        (.singleton "n" (.mono (.var "z")))).exec (.avoiding (.ofNames ["z"])) =
      (.ok (.ofList [("b", .var "a"), ("z", .var "a")], .var "a"), ⟨2, .ofNames ["z"]⟩) ∧
    TidyRun (.singleton "n" (.mono (.var "z"))) (.avoiding (.ofNames ["z"]))
      fun note => (Expr.app (.lambda ⟨"x", none⟩ (.var ⟨"x", none⟩)) (.var ⟨"n", none⟩)).inferNoting
        note (.singleton "n" (.mono (.var "z"))) := by
  have hΓ := (Context.avoids_supply (.singleton "n" (.mono (.var "z")))).upTo 18446744073709551615
  exact ⟨by cbv, (tidyRun_of_avoids hΓ).1 _ (by cbv)⟩

end LetPoly
