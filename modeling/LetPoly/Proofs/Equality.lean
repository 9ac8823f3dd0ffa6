import LetPoly.Proofs.Alpha
import LetPoly.Proofs.Keys

set_option autoImplicit false

namespace LetPoly

mutual
/-- Wherever both have a `let`, the keys of the two stand in the same order. -/
def Expr.sameOrder : Expr → Expr → Bool
  | .app f a, .app g b => f.sameOrder g && a.sameOrder b
  | .abs _ e, .abs _ f => e.sameOrder f
  | .group e, .group f => e.sameOrder f
  | .letIn bs e, .letIn cs f => bs.sameOrder cs && e.sameOrder f
  | _, _ => true

def Bindings.sameOrder : Bindings → Bindings → Bool
  | .nil, .nil => true
  | .cons k _ _ e rest, .cons j _ _ f others => k = j && e.sameOrder f && rest.sameOrder others
  | _, _ => false
end

/-- From every supply the same result, or errors with the same code. -/
def Check.InStep {α : Type} (x y : Check α) : Prop := ∀ ν, Check.Agree (fun _ => Eq) x y ν

namespace Check.InStep

variable {α β : Type} {x y : Check α}

theorem refl (x : Check α) : x.InStep x := by
  intro ν
  refine ⟨rfl, ?_⟩
  cases (x.exec ν).1 with
  | ok a => exact .ok rfl
  | error e => exact .error rfl

theorem bind {f g : α → Check β} (h : x.InStep y) (hfg : ∀ a, (f a).InStep (g a)) :
    (x >>= f).InStep (y >>= g) := by
  intro ν
  refine (h ν).bind fun a b ν₁ _ _ hab => ?_
  exact hab ▸ hfg a ν₁

theorem throw {e e' : TypeError} (h : e.code = e'.code) :
    (throw e : Check α).InStep (throw e') :=
  fun _ => ⟨rfl, .error h⟩

end Check.InStep

theorem Literal.ty_eq_of_same {l m : Literal} (h : l.same m = true) : l.ty = m.ty := by
  cases l <;> cases m <;> first | rfl | cases h

theorem Ident.name_eq_of_same {x y : Ident} (h : x.same y = true) : x.name = y.name :=
  of_decide_eq_true h

/-- The text of an error may differ, as `-0.0` and `0.0` are the same. -/
theorem Pattern.infer_inStep {p q : Pattern} (h : p.same q = true) (Γ : Context) :
    (p.infer Γ).InStep (q.infer Γ) := by
  cases p with
  | var x =>
    cases q with
    | var y =>
      have hn : x.name = y.name := Ident.name_eq_of_same (by simpa [same] using h)
      simp only [infer, hn]
      exact .refl _
    | _ => simp [same] at h
  | _ =>
    cases q with
    | var y => simp [same] at h
    | _ => exact .throw rfl

theorem Pattern.inferAll_inStep :
    (ps qs : List Pattern) → sameAll ps qs = true → (Γ : Context) →
      (inferAll ps Γ).InStep (inferAll qs Γ)
  | [], [], _, _ => .refl _
  | p :: ps, q :: qs, h, Γ => by
    simp only [sameAll, Bool.and_eq_true] at h
    refine (infer_inStep h.1 Γ).bind fun r => ?_
    refine (inferAll_inStep ps qs h.2 r.2).bind fun r' => ?_
    exact .refl _

theorem Check.function_inStep {ps qs : List Pattern} {body body' : Context → Check (Subst × Ty)}
    (hp : Pattern.sameAll ps qs = true) (hb : ∀ Γ, (body Γ).InStep (body' Γ)) (Γ : Context) :
    (Check.function ps body Γ).InStep (Check.function qs body' Γ) := by
  refine (Pattern.inferAll_inStep ps qs hp Γ).bind fun r => ?_
  exact (hb r.2).bind fun r' => .refl _

theorem Expr.sameWithin_cons {k : String} {x : Ident} {ps : List Pattern} {e : Expr}
    {cs : Bindings} : (bs : Bindings) → k ∉ bs.keys →
      sameWithin bs (.cons k x ps e cs) = sameWithin bs cs
  | .nil, _ => by simp [sameWithin]
  | .cons j y qs f rest, h => by
    simp only [Bindings.keys, List.mem_cons, not_or] at h
    simp only [sameWithin, Bindings.get?, if_neg h.1, sameWithin_cons rest h.2]

theorem Expr.sameWithin_cons_cons {k : String} {x y : Ident} {ps qs : List Pattern} {e f : Expr}
    {bs cs : Bindings} (hk : k ∉ bs.keys) :
    sameWithin (.cons k x ps e bs) (.cons k y qs f cs) = true ↔
      x.name = y.name ∧ Pattern.sameAll ps qs = true ∧ e.same f = true ∧
        sameWithin bs cs = true := by
  simp [sameWithin, Bindings.get?, sameWithin_cons bs hk, Ident.same, and_assoc]

mutual
theorem Expr.infer_inStep : (e f : Expr) → e.keysDistinct = true → e.same f = true →
    e.sameOrder f = true → (Γ : Context) → (e.infer Γ).InStep (f.infer Γ)
  | .lit l, .lit m, _, h, _, Γ => by
    have ht : l.ty = m.ty := Literal.ty_eq_of_same (by simpa [Expr.same] using h)
    rw [Expr.infer_lit, Expr.infer_lit, ht]
    exact .refl _
  | .var x, .var y, _, h, _, Γ => by
    have hn : x.name = y.name := Ident.name_eq_of_same (by simpa [Expr.same] using h)
    rw [Expr.infer_var, Expr.infer_var, hn]
    exact .refl _
  | .app f a, .app g b, hk, h, ho, Γ => by
    simp only [Expr.keysDistinct, Expr.same, Expr.sameOrder, Bool.and_eq_true] at hk h ho
    rw [Expr.infer_app, Expr.infer_app]
    refine (Check.InStep.refl _).bind fun v => ?_
    refine (Expr.infer_inStep f g hk.1 h.1 ho.1 Γ).bind fun r₁ => ?_
    refine (Expr.infer_inStep a b hk.2 h.2 ho.2 _).bind fun r₂ => ?_
    exact .refl _
  | .abs p e, .abs q f, hk, h, ho, Γ => by
    simp only [Expr.keysDistinct, Expr.same, Expr.sameOrder, Bool.and_eq_true] at hk h ho
    rw [Expr.infer_abs, Expr.infer_abs]
    refine (Pattern.infer_inStep h.1 Γ).bind fun r => ?_
    refine (Expr.infer_inStep e f hk h.2 ho _).bind fun r' => ?_
    exact .refl _
  | .group e, .group f, hk, h, ho, Γ => by
    simp only [Expr.keysDistinct, Expr.same, Expr.sameOrder] at hk h ho
    rw [Expr.infer_group, Expr.infer_group]
    exact Expr.infer_inStep e f hk h ho Γ
  | .letIn bs e, .letIn cs f, hk, h, ho, Γ => by
    simp only [Expr.keysDistinct, Expr.same, Expr.sameOrder, Bool.and_eq_true] at hk h ho
    rw [Expr.infer_let, Expr.infer_let]
    refine (Bindings.infer_inStep bs cs hk.1 h.1.2 ho.1 ∅ Γ).bind fun r => ?_
    refine (Expr.infer_inStep e f hk.2 h.2 ho.2 _).bind fun r' => ?_
    exact .refl _

theorem Bindings.infer_inStep : (bs cs : Bindings) → bs.keysDistinct = true →
    Expr.sameWithin bs cs = true → bs.sameOrder cs = true → (s : Subst) → (Γ : Context) →
      (bs.infer s Γ).InStep (cs.infer s Γ)
  | .nil, .nil, _, _, _, _, _ => .refl _
  | .cons k x ps e rest, .cons j y qs f others, hk, h, ho, s, Γ => by
    simp only [Bindings.sameOrder, Bool.and_eq_true, decide_eq_true_eq] at ho
    obtain ⟨⟨rfl, hef⟩, hrest⟩ := ho
    obtain ⟨hnot, he, hd⟩ := Bindings.keysDistinct_cons.1 hk
    obtain ⟨hx, hps, hs, hw⟩ := (Expr.sameWithin_cons_cons hnot).1 h
    rw [Bindings.infer_cons, Bindings.infer_cons, hx]
    refine (Check.function_inStep hps (Expr.infer_inStep e f he hs hef) Γ).bind fun r => ?_
    exact Bindings.infer_inStep rest others hd hw hrest _ _
end

/-- Expressions that are the same have the same type, or are rejected with one code, if their keys
stand in the same order. -/
theorem inferType_alike_of_same {e f : Expr} (hk : e.keysDistinct = true) (h : e.same f = true)
    (ho : e.sameOrder f = true) (Γ : Context) : Alike Eq (inferType e Γ) (inferType f Γ) := by
  obtain ⟨-, ha⟩ := Expr.infer_inStep e f hk h ho Γ Γ.supply
  exact ha.map fun r r' hr => congrArg Prod.snd hr

/-- Written `let x = 1; y = x in y`, with `x` at a place. -/
def forward (place : Option Span) : Expr :=
  .letIn
    (.cons "x" ⟨"x", place⟩ [] (.lit (.int 1))
      (.cons "y" ⟨"y", none⟩ [] (.var ⟨"x", none⟩) .nil))
    (.var ⟨"y", none⟩)

/-- The same bindings the other way round: `let y = x; x = 1 in y`. -/
def backward : Expr :=
  .letIn
    (.cons "y" ⟨"y", none⟩ [] (.var ⟨"x", none⟩)
      (.cons "x" ⟨"x", none⟩ [] (.lit (.int 1)) .nil))
    (.var ⟨"y", none⟩)

theorem forward_alike :
    Alike Eq (inferType (forward none) ∅) (inferType (forward (some ⟨4, 5⟩)) ∅) :=
  inferType_alike_of_same (by decide) (by decide) (by decide) ∅

/-- The first has type `Int`; in the second `x` is not bound yet. -/
theorem forward_not_alike_backward :
    (forward none).same backward = true ∧
      ¬ Alike Eq (inferType (forward none) ∅) (inferType backward ∅) := by
  refine ⟨by decide, fun h => ?_⟩
  have hf : inferType (forward none) ∅ = .ok .int := by cbv
  have hb : inferType backward ∅ = .error (.unbound "x") := by cbv
  rw [hf, hb] at h
  cases h

end LetPoly
