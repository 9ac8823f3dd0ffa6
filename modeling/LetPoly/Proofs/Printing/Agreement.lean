import LetPoly.Expr.Basic

set_option autoImplicit false

namespace LetPoly

open Text (parens)

theorem Text.length_parens (b : Bool) (s : String) :
    (parens b s).length = s.length + if b then 2 else 0 := by
  cases b with
  | false => rfl
  | true =>
    have hbrackets : "(".length = 1 ∧ ")".length = 1 := by decide
    simp only [parens, if_true, String.length_append]
    omega

namespace Expr

def argsText : List Expr → String
  | [] => ""
  | a :: as => " " ++ parens (!a.isAtomic) a.text ++ argsText as

theorem text_applyTo {f : Expr} (hf : f.isOpen = false) (as : List Expr) :
    (f.applyTo as).text = f.text ++ argsText as := by
  induction as generalizing f with
  | nil => simp [applyTo, argsText]
  | cons a as ih =>
    have happ : (f.applyTo (a :: as)) = (Expr.app f a).applyTo as := rfl
    rw [happ, ih rfl]
    simp [text, argsText, hf, parens, String.append_assoc]

theorem isAtomic_applyTo_cons (f a : Expr) (as : List Expr) :
    (f.applyTo (a :: as)).isAtomic = false := by
  induction as generalizing f a with
  | nil => rfl
  | cons b as ih => exact ih (.app f a) b

end Expr

namespace Pattern

mutual
/-- The expression that is built alike. Wildcards and patterns with a name have none. -/
def toExpr? : Pattern → Option Expr
  | .var x => some (.var x)
  | .lit l => some (.lit l)
  | .con c args => (toExprs? args).map (Expr.var c).applyTo
  | .wildcard | .named _ _ => none

def toExprs? : List Pattern → Option (List Expr)
  | [] => some []
  | p :: ps => do return (← p.toExpr?) :: (← toExprs? ps)
end

def isSignedFloat : Pattern → Bool
  | .lit (.float x) => x.negative
  | _ => false

mutual
/-- How many signed floats stand as arguments, at any depth. -/
def signedArgs : Pattern → Nat
  | .con _ args => signedAmong args
  | _ => 0

def signedAmong : List Pattern → Nat
  | [] => 0
  | p :: ps => (if p.isSignedFloat then 1 else 0) + p.signedArgs + signedAmong ps
end

variable {p : Pattern} {ps : List Pattern} {e : Expr} {es : List Expr}

theorem toExprs?_cons (h : toExprs? (p :: ps) = some es) :
    ∃ e es', p.toExpr? = some e ∧ toExprs? ps = some es' ∧ es = e :: es' := by
  simp only [toExprs?, Option.bind_eq_bind, Option.bind_eq_some_iff, Option.pure_def,
    Option.some.injEq] at h
  obtain ⟨e, he, es', hes, rfl⟩ := h
  exact ⟨e, es', he, hes, rfl⟩

theorem toExpr?_con {c : Ident} (h : (con c ps).toExpr? = some e) :
    ∃ es, toExprs? ps = some es ∧ e = (Expr.var c).applyTo es := by
  rw [toExpr?] at h
  obtain ⟨es, hes, rfl⟩ := Option.map_eq_some_iff.1 h
  exact ⟨es, hes, rfl⟩

theorem isAtomic_of_toExpr? (h : p.toExpr? = some e) :
    e.isAtomic = (p.isAtomic && !p.isSignedFloat) := by
  cases p with
  | var x =>
    cases h
    rfl
  | wildcard => cases h
  | lit l =>
    cases h
    cases l <;> simp [Expr.isAtomic, isAtomic, isSignedFloat]
  | named x p => cases h
  | con c args =>
    obtain ⟨es, hes, rfl⟩ := toExpr?_con h
    cases args with
    | nil =>
      cases hes
      rfl
    | cons p ps =>
      obtain ⟨a, as, -, -, rfl⟩ := toExprs?_cons hes
      rw [Expr.isAtomic_applyTo_cons]
      rfl

theorem isAtomic_of_isSignedFloat (h : p.isSignedFloat = true) : p.isAtomic = true := by
  cases p with
  | lit l =>
    cases l with
    | float x => rfl
    | _ => cases h
  | _ => cases h

mutual
theorem text_eq_of_signedArgs : (p : Pattern) → {e : Expr} → p.toExpr? = some e →
    p.signedArgs = 0 → p.text = e.text
  | .var x, _, h, _ => by
    cases h
    rfl
  | .wildcard, _, h, _ => by cases h
  | .lit l, _, h, _ => by
    cases h
    rfl
  | .named x p, _, h, _ => by cases h
  | .con c args, _, h, hz => by
    obtain ⟨es, hes, rfl⟩ := toExpr?_con h
    rw [signedArgs] at hz
    rw [Expr.text_applyTo rfl, text, argsText_eq_of_signedAmong args hes hz]
    rfl

theorem argsText_eq_of_signedAmong : (ps : List Pattern) → {es : List Expr} →
    toExprs? ps = some es → signedAmong ps = 0 → argsText ps = Expr.argsText es
  | [], _, h, _ => by
    cases h
    rfl
  | p :: ps, _, h, hz => by
    obtain ⟨e, es, he, hes, rfl⟩ := toExprs?_cons h
    simp only [signedAmong, Nat.add_eq_zero_iff, ite_eq_right_iff, Nat.one_ne_zero, imp_false,
      Bool.not_eq_true] at hz
    have ht := text_eq_of_signedArgs p he hz.1.2
    have hts := argsText_eq_of_signedAmong ps hes hz.2
    rw [argsText, Expr.argsText, isAtomic_of_toExpr? he, hz.1.1, ht, hts]
    simp
end

mutual
/-- The expression has two characters more for each signed float that is an argument. -/
theorem length_text_of_toExpr? : (p : Pattern) → {e : Expr} → p.toExpr? = some e →
    e.text.length = p.text.length + 2 * p.signedArgs
  | .var x, _, h => by
    cases h
    rfl
  | .wildcard, _, h => by cases h
  | .lit l, _, h => by
    cases h
    rfl
  | .named x p, _, h => by cases h
  | .con c args, _, h => by
    obtain ⟨es, hes, rfl⟩ := toExpr?_con h
    have hargs := length_argsText_of_toExprs? args hes
    rw [Expr.text_applyTo rfl, text, signedArgs, String.length_append, String.length_append, hargs,
      Expr.text, Nat.add_assoc]

theorem length_argsText_of_toExprs? : (ps : List Pattern) → {es : List Expr} →
    toExprs? ps = some es → (Expr.argsText es).length = (argsText ps).length + 2 * signedAmong ps
  | [], _, h => by
    cases h
    rfl
  | p :: ps, _, h => by
    obtain ⟨e, es, he, hes, rfl⟩ := toExprs?_cons h
    have ht := length_text_of_toExpr? p he
    have hts := length_argsText_of_toExprs? ps hes
    simp only [Expr.argsText, argsText, signedAmong, String.length_append, Text.length_parens,
      isAtomic_of_toExpr? he, ht, hts]
    cases hs : p.isSignedFloat with
    | true =>
      simp [isAtomic_of_isSignedFloat hs]
      omega
    | false =>
      simp
      omega
end

/-- On the common language both are written alike exactly where no signed float is an argument. -/
theorem text_eq_toExpr_iff (h : p.toExpr? = some e) :
    (p.text = e.text ↔ p.signedArgs = 0) ∧ e.text.length = p.text.length + 2 * p.signedArgs := by
  have hlength := length_text_of_toExpr? p h
  refine ⟨⟨fun ht => ?_, text_eq_of_signedArgs p h⟩, hlength⟩
  rw [ht] at hlength
  omega

/-- Written `Pair (Just (-1)) x` in both ways. -/
theorem text_eq_nestedPair :
    (con ⟨"Pair", none⟩ [.con ⟨"Just", none⟩ [.lit (.int (-1))], .var ⟨"x", none⟩]).text =
      (Expr.app (.app (.var ⟨"Pair", none⟩)
        (.app (.var ⟨"Just", none⟩) (.lit (.int (-1))))) (.var ⟨"x", none⟩)).text :=
  (text_eq_toExpr_iff rfl).1.2 (by decide)

/-- Written `C -1.5` as a pattern and `C (-1.5)` as an expression. -/
theorem text_ne_signedFloat :
    (con ⟨"C", none⟩ [.lit (.float ⟨0xBFF8000000000000⟩)]).toExpr? =
      some (.app (.var ⟨"C", none⟩) (.lit (.float ⟨0xBFF8000000000000⟩))) ∧
    (con ⟨"C", none⟩ [.lit (.float ⟨0xBFF8000000000000⟩)]).text ≠
      (Expr.app (.var ⟨"C", none⟩) (.lit (.float ⟨0xBFF8000000000000⟩))).text := by
  have hp : (con ⟨"C", none⟩ [.lit (.float ⟨0xBFF8000000000000⟩)]).text = "C -1.5" := by
    decide +kernel
  have he : (Expr.app (.var ⟨"C", none⟩) (.lit (.float ⟨0xBFF8000000000000⟩))).text =
      "C (-1.5)" := by decide +kernel
  refine ⟨rfl, ?_⟩
  rw [hp, he]
  decide

end Pattern

end LetPoly
