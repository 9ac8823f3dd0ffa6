import LetPoly.Proofs.Erasure
import LetPoly.Proofs.Printing.Syntax

/-!
The text of an expression shows all of it but its parentheses, the places of its names and the keys
of its bindings (`Expr.bare_eq_of_text_eq`). Every expression has a concrete form whose characters
are its text, and from the concrete form its bare form is read off.
-/

set_option autoImplicit false

namespace LetPoly

open Text (parens)

namespace Phrase

/-- Applied to one more argument. What is no application gets parentheses first. -/
def snoc : Phrase → Atom → Phrase
  | .spine a as, b => .spine a (as ++ [b])
  | p, b => .spine (.paren p) [b]

/-- In the place of an argument. Only a single atom can do without parentheses. -/
def argument (bare : Bool) : Phrase → Atom
  | .spine a [] => if bare then a else .paren (.spine a [])
  | p => .paren p

end Phrase

mutual
def Pattern.phrase : Pattern → Phrase
  | .var x => .spine (.word x.name) []
  | .wildcard => .spine .wildcard []
  | .lit l => .spine (.lit l) []
  | .named x p => .spine (.named x.name (p.phrase.argument p.isAtomic)) []
  | .con c args => .spine (.word c.name) (Pattern.atoms args)

def Pattern.atoms : List Pattern → List Atom
  | [] => []
  | p :: ps => p.phrase.argument p.isAtomic :: Pattern.atoms ps
end

mutual
def Expr.phrase : Expr → Phrase
  | .lit l => .spine (.lit l) []
  | .var x => .spine (.word x.name) []
  | .app f a => f.phrase.snoc (a.phrase.argument a.isAtomic)
  | .abs p b => .abs (p.phrase.argument p.isAtomic) b.phrase
  | .group e => .spine (.paren e.phrase) []
  | .letIn bs b => .letIn bs.clauses b.phrase

def Bindings.clauses : Bindings → Clauses
  | .nil => .nil
  | .cons _ x ps e rest => .cons x.name (Pattern.atoms ps) e.phrase rest.clauses
end

theorem Atom.argsChars_append (as bs : List Atom) :
    Atom.argsChars (as ++ bs) = Atom.argsChars as ++ Atom.argsChars bs := by
  induction as with
  | nil => rfl
  | cons a as ih => simp [Atom.argsChars, ih]

namespace Phrase

def isSpine : Phrase → Bool
  | .spine _ _ => true
  | _ => false

theorem isSpine_snoc (p : Phrase) (a : Atom) : (p.snoc a).isSpine = true := by
  cases p <;> rfl

variable {p : Phrase} {s : String}

theorem chars_snoc (hp : p.chars = s.toList) (a : Atom) :
    (p.snoc a).chars = (parens (!p.isSpine) s).toList ++ ' ' :: a.chars := by
  cases p with
  | spine b bs =>
    rw [chars] at hp
    simp [snoc, chars, isSpine, parens, Atom.argsChars_append, Atom.argsChars, ← hp]
  | _ => simp [snoc, chars, isSpine, parens, Atom.argsChars, Atom.chars, ← hp]

theorem chars_argument {bare : Bool} (hb : bare = true → ∃ a, p = .spine a [])
    (hp : p.chars = s.toList) : (p.argument bare).chars = (parens (!bare) s).toList := by
  cases bare with
  | true =>
    obtain ⟨a, rfl⟩ := hb rfl
    simpa [argument, parens, chars, Atom.argsChars] using hp
  | false =>
    unfold argument
    split <;> simp [parens, Atom.chars, hp]

end Phrase

namespace Pattern

theorem exists_atom {p : Pattern} (h : p.isAtomic = true) : ∃ a, p.phrase = .spine a [] := by
  cases p with
  | con c args =>
    cases args with
    | nil => exact ⟨_, by rw [phrase, atoms]⟩
    | cons p ps => cases h
  | _ => exact ⟨_, by rw [phrase]⟩

mutual
theorem chars_phrase : (p : Pattern) → p.phrase.chars = p.text.toList
  | .var x => by simp [phrase, text, Phrase.chars, Atom.chars, Atom.argsChars]
  | .wildcard => by simp [phrase, text, Phrase.chars, Atom.chars, Atom.argsChars]
  | .lit l => by simp [phrase, text, Phrase.chars, Atom.chars, Atom.argsChars]
  | .named x p => by
    have hp := Phrase.chars_argument exists_atom (chars_phrase p)
    simp [phrase, text, Phrase.chars, Atom.chars, Atom.argsChars, hp]
  | .con c args => by
    simp [phrase, text, Phrase.chars, Atom.chars, argsChars_atoms args]

theorem argsChars_atoms : (ps : List Pattern) → Atom.argsChars (atoms ps) = (argsText ps).toList
  | [] => by simp [atoms, argsText, Atom.argsChars]
  | p :: ps => by
    have hp := Phrase.chars_argument exists_atom (chars_phrase p)
    simp [atoms, argsText, Atom.argsChars, hp, argsChars_atoms ps]
end

end Pattern

namespace Expr

theorem exists_atom {e : Expr} (h : e.isAtomic = true) : ∃ a, e.phrase = .spine a [] := by
  cases e with
  | lit l => exact ⟨_, by rw [phrase]⟩
  | var x => exact ⟨_, by rw [phrase]⟩
  | group e => exact ⟨_, by rw [phrase]⟩
  | _ => cases h

theorem isSpine_phrase (e : Expr) : e.phrase.isSpine = !e.isOpen := by
  cases e with
  | app f a => rw [phrase, Phrase.isSpine_snoc]; rfl
  | _ => rw [phrase]; rfl

mutual
theorem chars_phrase : (e : Expr) → e.phrase.chars = e.text.toList
  | .lit l => by simp [phrase, text, Phrase.chars, Atom.chars, Atom.argsChars]
  | .var x => by simp [phrase, text, Phrase.chars, Atom.chars, Atom.argsChars]
  | .app f a => by
    have ha := Phrase.chars_argument exists_atom (chars_phrase a)
    simp [phrase, text, Phrase.chars_snoc (chars_phrase f), isSpine_phrase, ha]
  | .abs p b => by
    have hp := Phrase.chars_argument Pattern.exists_atom p.chars_phrase
    simp [phrase, text, Phrase.chars, hp, chars_phrase b]
  | .group e => by
    simp [phrase, text, Phrase.chars, Atom.chars, Atom.argsChars, chars_phrase e]
  | .letIn .nil b => by
    simp [phrase, text, bindingsText, Bindings.clauses, Phrase.chars, Clauses.chars, chars_phrase b]
  | .letIn (.cons k x ps e rest) b => by
    have hbs := chars_clauses (.cons k x ps e rest) nofun []
    simp [phrase, text, Phrase.chars, hbs, chars_phrase b]

theorem chars_clauses : (bs : Bindings) → bs ≠ .nil → (lead : List Char) →
    bs.clauses.chars lead = lead ++ (bindingsText bs).toList
  | .nil, h, _ => absurd rfl h
  | .cons k x ps e .nil, _, lead => by
    simp [Bindings.clauses, Clauses.chars, bindingsText, bindingHead, Pattern.argsChars_atoms,
      chars_phrase e]
  | .cons k x ps e (.cons l y qs f rest), _, lead => by
    have hrest := chars_clauses (.cons l y qs f rest) nofun [';', ' ']
    rw [Bindings.clauses, Clauses.chars, hrest, Pattern.argsChars_atoms, chars_phrase e]
    simp [bindingsText, bindingHead]
end

end Expr

/-- A word with a capital letter is a constructor. -/
def isCapitalized (x : String) : Bool := x.toList.head?.any Char.isUpper

mutual
def Atom.pattern : Atom → Pattern
  | .lit l => .lit l
  | .word x => if isCapitalized x then .con ⟨x, none⟩ [] else .var ⟨x, none⟩
  | .wildcard => .wildcard
  | .named x a => .named ⟨x, none⟩ a.pattern
  | .paren p => p.pattern

def Atom.patterns : List Atom → List Pattern
  | [] => []
  | a :: as => a.pattern :: Atom.patterns as

/-- Wildcards stand for what is no pattern. -/
def Phrase.pattern : Phrase → Pattern
  | .spine a [] => a.pattern
  | .spine (.word c) as => .con ⟨c, none⟩ (Atom.patterns as)
  | _ => .wildcard
end

mutual
/-- Units stand for what is no expression. -/
def Atom.expr : Atom → Expr
  | .lit l => .lit l
  | .word x => .var ⟨x, none⟩
  | .paren p => p.expr
  | .wildcard | .named _ _ => .lit .unit

def Atom.exprs : List Atom → List Expr
  | [] => []
  | a :: as => a.expr :: Atom.exprs as

def Phrase.expr : Phrase → Expr
  | .spine a as => a.expr.applyTo (Atom.exprs as)
  | .abs a p => .abs a.pattern p.expr
  | .letIn cs p => .letIn cs.bindings p.expr

def Clauses.bindings : Clauses → Bindings
  | .nil => .nil
  | .cons x ps p rest => .cons "" ⟨x, none⟩ (Atom.patterns ps) p.expr rest.bindings
end

theorem Atom.exprs_append (as bs : List Atom) :
    Atom.exprs (as ++ bs) = Atom.exprs as ++ Atom.exprs bs := by
  induction as with
  | nil => rfl
  | cons a as ih => simp [Atom.exprs, ih]

namespace Phrase

theorem pattern_argument (p : Phrase) (bare : Bool) : (p.argument bare).pattern = p.pattern := by
  unfold argument
  split
  · cases bare <;> simp [pattern, Atom.pattern]
  · rw [Atom.pattern]

theorem expr_argument (p : Phrase) (bare : Bool) : (p.argument bare).expr = p.expr := by
  unfold argument
  split
  · cases bare <;> simp [expr, Atom.expr, Atom.exprs, Expr.applyTo]
  · rw [Atom.expr]

theorem expr_snoc (p : Phrase) (a : Atom) : (p.snoc a).expr = .app p.expr a.expr := by
  cases p <;> simp [snoc, expr, Atom.exprs_append, Expr.applyTo, Atom.exprs, Atom.expr]

end Phrase

def Ident.isSmall (x : Ident) : Bool := isName x.name && x.name.toList.head?.any Char.isLower

def Ident.isCapital (x : Ident) : Bool := isName x.name && isCapitalized x.name

mutual
def Pattern.isPlain : Pattern → Bool
  | .var x => x.isSmall
  | .wildcard => true
  | .lit l => l.isPlain
  | .named x p => x.isSmall && p.isPlain
  | .con c args => c.isCapital && Pattern.allPlain args

def Pattern.allPlain : List Pattern → Bool
  | [] => true
  | p :: ps => p.isPlain && Pattern.allPlain ps
end

mutual
/-- Names are words other than keywords, capitals tell variables from constructors, and floats are
finite. -/
def Expr.isPlain : Expr → Bool
  | .lit l => l.isPlain
  | .var x => isName x.name
  | .app f a => f.isPlain && a.isPlain
  | .abs p b => p.isPlain && b.isPlain
  | .group e => e.isPlain
  | .letIn bs b => bs.isPlain && b.isPlain

def Bindings.isPlain : Bindings → Bool
  | .nil => true
  | .cons _ x ps e rest => x.isSmall && Pattern.allPlain ps && e.isPlain && rest.isPlain
end

theorem Ident.isCapitalized_of_isSmall {x : Ident} (h : x.isSmall = true) :
    isCapitalized x.name = false := by
  have hlower : ∀ c : Char, c.isLower = true → c.isUpper = false := by
    intro c hc
    have hcode : 97 ≤ c.toNat ∧ c.toNat ≤ 122 := by
      simpa [Char.isLower, UInt32.le_iff_toNat_le] using hc
    simp [Char.isUpper, UInt32.le_iff_toNat_le]
    omega
  rw [isSmall, Bool.and_eq_true] at h
  unfold isCapitalized
  cases hx : x.name.toList.head? with
  | none => rfl
  | some c =>
    rw [hx] at h
    exact hlower c h.2

theorem Atom.allPlain_append {as bs : List Atom} (has : Atom.AllPlain as) (hbs : Atom.AllPlain bs) :
    Atom.AllPlain (as ++ bs) := by
  induction as with
  | nil => exact hbs
  | cons a as ih => exact ⟨has.1, ih has.2⟩

namespace Phrase

variable {p : Phrase} {a : Atom}

theorem Plain.argument (hp : p.Plain) (bare : Bool) : (p.argument bare).Plain := by
  unfold Phrase.argument
  split
  · cases bare with
    | true => exact hp.1
    | false => exact hp
  · exact hp

theorem Plain.snoc (hp : p.Plain) (ha : a.Plain) : (p.snoc a).Plain := by
  cases p with
  | spine b bs => exact ⟨hp.1, Atom.allPlain_append hp.2 ⟨ha, trivial⟩⟩
  | _ => exact ⟨hp, ha, trivial⟩

end Phrase

namespace Pattern

mutual
theorem plain_phrase : (p : Pattern) → p.isPlain = true → p.phrase.Plain
  | .var x, h => by
    rw [isPlain, Ident.isSmall, Bool.and_eq_true] at h
    exact ⟨h.1, trivial⟩
  | .wildcard, _ => ⟨trivial, trivial⟩
  | .lit l, h => ⟨h, trivial⟩
  | .named x p, h => by
    rw [isPlain, Ident.isSmall, Bool.and_eq_true, Bool.and_eq_true] at h
    exact ⟨⟨h.1.1, (plain_phrase p h.2).argument _⟩, trivial⟩
  | .con c args, h => by
    rw [isPlain, Ident.isCapital, Bool.and_eq_true, Bool.and_eq_true] at h
    exact ⟨h.1.1, allPlain_atoms args h.2⟩

theorem allPlain_atoms : (ps : List Pattern) → allPlain ps = true → Atom.AllPlain (atoms ps)
  | [], _ => trivial
  | p :: ps, h => by
    rw [allPlain, Bool.and_eq_true] at h
    exact ⟨(plain_phrase p h.1).argument _, allPlain_atoms ps h.2⟩
end

mutual
theorem pattern_phrase : (p : Pattern) → p.isPlain = true → p.phrase.pattern = p.bare
  | .var x, h => by
    rw [isPlain] at h
    simp [phrase, Phrase.pattern, Atom.pattern, bare, Ident.bare,
      Ident.isCapitalized_of_isSmall h]
  | .wildcard, _ => by rw [phrase, Phrase.pattern, Atom.pattern, bare]
  | .lit l, _ => by rw [phrase, Phrase.pattern, Atom.pattern, bare]
  | .named x p, h => by
    rw [isPlain, Bool.and_eq_true] at h
    simp [phrase, Phrase.pattern, Atom.pattern, bare, Ident.bare, Phrase.pattern_argument,
      pattern_phrase p h.2]
  | .con c [], h => by
    rw [isPlain, Ident.isCapital, Bool.and_eq_true, Bool.and_eq_true] at h
    simp [phrase, atoms, Phrase.pattern, Atom.pattern, bare, bareAll, Ident.bare, h.1.2]
  | .con c (p :: ps), h => by
    rw [isPlain, Bool.and_eq_true] at h
    have hargs := patterns_atoms (p :: ps) h.2
    rw [atoms] at hargs
    simp [phrase, atoms, Phrase.pattern, bare, Ident.bare, hargs]

theorem patterns_atoms : (ps : List Pattern) → allPlain ps = true →
    Atom.patterns (atoms ps) = bareAll ps
  | [], _ => by rw [atoms, Atom.patterns, bareAll]
  | p :: ps, h => by
    rw [allPlain, Bool.and_eq_true] at h
    rw [atoms, Atom.patterns, bareAll, Phrase.pattern_argument, pattern_phrase p h.1,
      patterns_atoms ps h.2]
end

end Pattern

namespace Expr

mutual
theorem plain_phrase : (e : Expr) → e.isPlain = true → e.phrase.Plain
  | .lit l, h => ⟨h, trivial⟩
  | .var x, h => ⟨h, trivial⟩
  | .app f a, h => by
    rw [isPlain, Bool.and_eq_true] at h
    exact (plain_phrase f h.1).snoc ((plain_phrase a h.2).argument _)
  | .abs p b, h => by
    rw [isPlain, Bool.and_eq_true] at h
    exact ⟨(p.plain_phrase h.1).argument _, plain_phrase b h.2⟩
  | .group e, h => ⟨plain_phrase e h, trivial⟩
  | .letIn bs b, h => by
    rw [isPlain, Bool.and_eq_true] at h
    exact ⟨plain_clauses bs h.1, plain_phrase b h.2⟩

theorem plain_clauses : (bs : Bindings) → bs.isPlain = true → bs.clauses.Plain
  | .nil, _ => trivial
  | .cons k x ps e rest, h => by
    simp only [Bindings.isPlain, Ident.isSmall, Bool.and_eq_true] at h
    exact ⟨h.1.1.1.1, Pattern.allPlain_atoms ps h.1.1.2, plain_phrase e h.1.2,
      plain_clauses rest h.2⟩
end

mutual
theorem expr_phrase : (e : Expr) → e.isPlain = true → e.phrase.expr = e.bare
  | .lit l, _ => by simp [phrase, Phrase.expr, Atom.expr, Atom.exprs, applyTo, bare]
  | .var x, _ => by simp [phrase, Phrase.expr, Atom.expr, Atom.exprs, applyTo, bare, Ident.bare]
  | .app f a, h => by
    rw [isPlain, Bool.and_eq_true] at h
    rw [phrase, Phrase.expr_snoc, Phrase.expr_argument, expr_phrase f h.1, expr_phrase a h.2, bare]
  | .abs p b, h => by
    rw [isPlain, Bool.and_eq_true] at h
    rw [phrase, Phrase.expr, Phrase.pattern_argument, p.pattern_phrase h.1, expr_phrase b h.2, bare]
  | .group e, h => by
    rw [isPlain] at h
    simp [phrase, Phrase.expr, Atom.expr, Atom.exprs, applyTo, bare, expr_phrase e h]
  | .letIn bs b, h => by
    rw [isPlain, Bool.and_eq_true] at h
    rw [phrase, Phrase.expr, bindings_clauses bs h.1, expr_phrase b h.2, bare]

theorem bindings_clauses : (bs : Bindings) → bs.isPlain = true → bs.clauses.bindings = bs.bare
  | .nil, _ => by rw [Bindings.clauses, Clauses.bindings, Bindings.bare]
  | .cons k x ps e rest, h => by
    simp only [Bindings.isPlain, Bool.and_eq_true] at h
    rw [Bindings.clauses, Clauses.bindings, Pattern.patterns_atoms ps h.1.1.2, expr_phrase e h.1.2,
      bindings_clauses rest h.2, Bindings.bare, Ident.bare]
end

/-- Plain expressions with one text have one bare form. -/
theorem bare_eq_of_text_eq {e f : Expr} (he : e.isPlain = true) (hf : f.isPlain = true)
    (h : e.text = f.text) : e.bare = f.bare := by
  have hchars : e.phrase.chars ++ [] = f.phrase.chars ++ [] := by
    rw [chars_phrase, chars_phrase, h]
  obtain ⟨hphrase, -⟩ :=
    Phrase.cancel _ _ (plain_phrase e he) (plain_phrase f hf) .text .text hchars
  rw [← expr_phrase e he, hphrase, expr_phrase f hf]

/-- Written `let f x@(C -1.5 _) = let g = x; h y = "in" in (\z -> g z) (-2) in f ()`, the
parentheses of the call being its own. -/
def groupedCall : Expr :=
  .letIn
    (.cons "outer" ⟨"f", some ⟨4, 5⟩⟩
      [.named ⟨"x", none⟩ (.con ⟨"C", none⟩ [.lit (.float ⟨0xBFF8000000000000⟩), .wildcard])]
      (.letIn
        (.cons "1" ⟨"g", none⟩ [] (.var ⟨"x", none⟩)
          (.cons "2" ⟨"h", none⟩ [.var ⟨"y", none⟩] (.lit (.string "in")) .nil))
        (.app
          (.group (.abs (.var ⟨"z", none⟩) (.app (.var ⟨"g", none⟩) (.var ⟨"z", none⟩))))
          (.group (.lit (.int (-2))))))
      .nil)
    (.app (.var ⟨"f", none⟩) (.lit .unit))

/-- The same text, the parentheses of the call being those it needs. -/
def plainCall : Expr :=
  .letIn
    (.cons "f" ⟨"f", none⟩
      [.named ⟨"x", none⟩ (.con ⟨"C", none⟩ [.lit (.float ⟨0xBFF8000000000000⟩), .wildcard])]
      (.letIn
        (.cons "g" ⟨"g", none⟩ [] (.var ⟨"x", none⟩)
          (.cons "h" ⟨"h", none⟩ [.var ⟨"y", some ⟨26, 27⟩⟩] (.lit (.string "in")) .nil))
        (.app (.abs (.var ⟨"z", none⟩) (.app (.var ⟨"g", none⟩) (.var ⟨"z", none⟩)))
          (.lit (.int (-2)))))
      .nil)
    (.app (.var ⟨"f", none⟩) (.lit .unit))

theorem bare_groupedCall :
    groupedCall.isPlain = true ∧ plainCall.isPlain = true ∧
    groupedCall.text = "let f x@(C -1.5 _) = let g = x; h y = \"in\" in (\\z -> g z) (-2) in f ()" ∧
    groupedCall.text = plainCall.text ∧ groupedCall.bare = plainCall.bare :=
  have hgrouped : groupedCall.isPlain = true := by decide +kernel
  have hplain : plainCall.isPlain = true := by decide +kernel
  have htext : groupedCall.text = plainCall.text := by decide +kernel
  ⟨hgrouped, hplain, by decide +kernel, htext, bare_eq_of_text_eq hgrouped hplain htext⟩

end Expr

end LetPoly
