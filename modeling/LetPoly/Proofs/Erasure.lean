import LetPoly.Proofs.Run

set_option autoImplicit false

namespace LetPoly

def Ident.bare (x : Ident) : Ident := ⟨x.name, none⟩

mutual
def Pattern.bare : Pattern → Pattern
  | .var x => .var x.bare
  | .wildcard => .wildcard
  | .lit l => .lit l
  | .named x p => .named x.bare p.bare
  | .con c args => .con c.bare (bareAll args)

def Pattern.bareAll : List Pattern → List Pattern
  | [] => []
  | p :: ps => p.bare :: bareAll ps
end

mutual
/-- Without parentheses and places. All keys become one, so of the bindings of a `let` only their
order is left. -/
def Expr.bare : Expr → Expr
  | .lit l => .lit l
  | .var x => .var x.bare
  | .app f a => .app f.bare a.bare
  | .abs p b => .abs p.bare b.bare
  | .group e => e.bare
  | .letIn bs b => .letIn bs.bare b.bare

def Bindings.bare : Bindings → Bindings
  | .nil => .nil
  | .cons _ x ps e rest => .cons "" x.bare (Pattern.bareAll ps) e.bare rest.bare
end

namespace Pattern

theorem kind_bare (p : Pattern) : p.bare.kind = p.kind := by
  cases p <;> simp [bare, kind]

theorem isAtomic_bare (p : Pattern) : p.bare.isAtomic = p.isAtomic := by
  cases p with
  | con c args => cases args <;> simp [bare, bareAll, isAtomic]
  | _ => simp [bare, isAtomic]

mutual
theorem text_bare : (p : Pattern) → p.bare.text = p.text
  | .var x => by simp [bare, text, Ident.bare]
  | .wildcard => by simp [bare]
  | .lit l => by simp [bare]
  | .named x p => by simp [bare, text, Ident.bare, isAtomic_bare, text_bare p]
  | .con c args => by simp [bare, text, Ident.bare, argsText_bareAll args]

theorem argsText_bareAll : (ps : List Pattern) → argsText (bareAll ps) = argsText ps
  | [] => by simp [bareAll]
  | p :: ps => by simp [bareAll, argsText, isAtomic_bare, text_bare p, argsText_bareAll ps]
end

theorem infer_bare (p : Pattern) (Γ : Context) : p.bare.infer Γ = p.infer Γ := by
  have hk := p.kind_bare
  have ht := p.text_bare
  cases p with
  | var x => simp only [bare, infer, Ident.bare]
  | _ =>
    simp only [bare] at hk ht
    simp only [bare, infer, hk, ht]

theorem inferAll_bareAll (ps : List Pattern) (Γ : Context) :
    inferAll (bareAll ps) Γ = inferAll ps Γ := by
  induction ps generalizing Γ with
  | nil => rfl
  | cons p ps ih => simp only [bareAll, inferAll, infer_bare, ih]

end Pattern

theorem Check.function_bareAll (ps : List Pattern) (body : Context → Check (Subst × Ty))
    (Γ : Context) : Check.function (Pattern.bareAll ps) body Γ = Check.function ps body Γ := by
  simp only [Check.function_eq, Pattern.inferAll_bareAll]

mutual
theorem Expr.infer_bare : (e : Expr) → (Γ : Context) → e.bare.infer Γ = e.infer Γ
  | .lit l, Γ => by rw [Expr.bare]
  | .var x, Γ => by rw [Expr.bare, Expr.infer_var, Expr.infer_var]; rfl
  | .app f a, Γ => by
    simp only [Expr.bare, Expr.infer_app, f.infer_bare, a.infer_bare]
  | .abs p b, Γ => by
    simp only [Expr.bare, Expr.infer_abs, p.infer_bare, b.infer_bare]
  | .group e, Γ => by
    rw [Expr.bare, Expr.infer_group, e.infer_bare]
  | .letIn bs b, Γ => by
    simp only [Expr.bare, Expr.infer_let, bs.infer_bare, b.infer_bare]

theorem Bindings.infer_bare :
    (bs : Bindings) → (s : Subst) → (Γ : Context) → bs.bare.infer s Γ = bs.infer s Γ
  | .nil, s, Γ => by rw [Bindings.bare]
  | .cons k x ps e rest, s, Γ => by
    simp only [Bindings.bare, Bindings.infer_cons, Check.function_bareAll, e.infer_bare,
      rest.infer_bare, Ident.bare]
end

/-- Expressions with one bare form have one outcome in every context and from every supply: the same
substitution and type or the same error, and the same supply left. -/
theorem Expr.exec_infer_eq_of_bare_eq {e f : Expr} (h : e.bare = f.bare) (Γ : Context)
    (ν : NameSupply) : (e.infer Γ).exec ν = (f.infer Γ).exec ν := by
  rw [← e.infer_bare, h, f.infer_bare]

/-- Written `let f x = (x); g y@(C _) = y in (g)`, under other keys than the names. -/
def annotatedLet : Expr :=
  .letIn
    (.cons "first" ⟨"f", some ⟨4, 5⟩⟩ [.var ⟨"x", some ⟨6, 7⟩⟩] (.group (.var ⟨"x", some ⟨11, 12⟩⟩))
      (.cons "second" ⟨"g", some ⟨15, 16⟩⟩
        [.named ⟨"y", some ⟨17, 18⟩⟩ (.con ⟨"C", some ⟨20, 21⟩⟩ [.wildcard])] (.var ⟨"y", none⟩)
        .nil))
    (.group (.var ⟨"g", none⟩))

/-- Written `let f x = x; g y@(C _) = y in g`. -/
def plainLet : Expr :=
  .letIn
    (.cons "f" ⟨"f", none⟩ [.var ⟨"x", none⟩] (.var ⟨"x", none⟩)
      (.cons "g" ⟨"g", none⟩ [.named ⟨"y", none⟩ (.con ⟨"C", none⟩ [.wildcard])] (.var ⟨"y", none⟩)
        .nil))
    (.var ⟨"g", none⟩)

theorem exec_infer_annotatedLet :
    annotatedLet.bare = plainLet.bare ∧
    (annotatedLet.infer ∅).exec .new =
      (.error (.unsupported "as pattern `y@(C _)`"), ⟨1, ∅⟩) ∧
    (annotatedLet.infer ∅).exec .new = (plainLet.infer ∅).exec .new :=
  ⟨rfl, by cbv, Expr.exec_infer_eq_of_bare_eq rfl ∅ .new⟩

end LetPoly
