import LetPoly.Proofs.Printing.Literal

/-!
Concrete syntax: expressions and patterns as trees in which every pair of parentheses is a node and
names have no places. The text of such a tree is known to belong to it alone, and so is the place
where it ends (`Phrase.cancel`). Three things decide where a tree ends: a word goes on as long as
its characters do, arguments go on until something follows that is none, and the body of a `let`
starts at the `in` that belongs to it.
-/

set_option autoImplicit false

namespace LetPoly

open Json (isWordChar Breaks)

mutual
inductive Atom where
  | lit (l : Literal)
  | word (x : String)
  | wildcard
  | named (x : String) (a : Atom)
  | paren (p : Phrase)

inductive Phrase where
  | spine (head : Atom) (args : List Atom)
  | abs (param : Atom) (body : Phrase)
  | letIn (clauses : Clauses) (body : Phrase)

inductive Clauses where
  | nil
  | cons (name : String) (params : List Atom) (body : Phrase) (rest : Clauses)
end

mutual
def Atom.chars : Atom → List Char
  | .lit l => l.text.toList
  | .word x => x.toList
  | .wildcard => ['_']
  | .named x a => x.toList ++ '@' :: a.chars
  | .paren p => '(' :: (p.chars ++ [')'])

def Atom.argsChars : List Atom → List Char
  | [] => []
  | a :: as => ' ' :: (a.chars ++ Atom.argsChars as)

def Phrase.chars : Phrase → List Char
  | .spine a as => a.chars ++ Atom.argsChars as
  | .abs a p => '\\' :: (a.chars ++ ' ' :: '-' :: '>' :: ' ' :: p.chars)
  | .letIn cs p =>
    'l' :: 'e' :: 't' :: ' ' :: (cs.chars [] ++ ' ' :: 'i' :: 'n' :: ' ' :: p.chars)

/-- The first clause has `lead` before it, the others a semicolon and a blank. -/
def Clauses.chars (lead : List Char) : Clauses → List Char
  | .nil => []
  | .cons x ps p rest =>
    lead ++ (x.toList ++ (Atom.argsChars ps ++
      ' ' :: '=' :: ' ' :: (p.chars ++ rest.chars [';', ' '])))
end

/-- A word of letters and digits that starts with a letter and is no keyword. -/
def isName (x : String) : Bool :=
  x.toList.head?.any Char.isAlpha && x.toList.all Char.isAlphanum && x != "let" && x != "in"

section Names

variable {x y : String} {r s : List Char}

theorem isWordChar_of_mem_name (hx : isName x = true) : ∀ c ∈ x.toList, isWordChar c = true := by
  simp only [isName, Bool.and_eq_true, List.all_eq_true] at hx
  intro c hc
  simp [isWordChar, hx.1.1.2 c hc]

theorem exists_lead_name (hx : isName x = true) :
    ∃ c cs, x.toList = c :: cs ∧ c.isAlpha = true := by
  simp only [isName, Bool.and_eq_true] at hx
  cases hc : x.toList with
  | nil => simp [hc] at hx
  | cons c cs => exact ⟨c, cs, rfl, by simpa [hc] using hx.1.1.1⟩

theorem name_cancel (hx : isName x = true) (hy : isName y = true) (hr : Breaks r) (hs : Breaks s)
    (h : x.toList ++ r = y.toList ++ s) : x = y ∧ r = s := by
  obtain ⟨hc, hrest⟩ :=
    Text.run_cancel (isWordChar_of_mem_name hx) (isWordChar_of_mem_name hy) hr hs h
  exact ⟨String.toList_injective hc, hrest⟩

def isKeyword (k : List Char) : Bool := k = ['l', 'e', 't'] || k = ['i', 'n']

theorem name_ne_keyword (hx : isName x = true) {k : List Char} (hk : isKeyword k = true)
    (hr : Breaks r) : x.toList ++ r ≠ k ++ ' ' :: s := by
  intro h
  have hword : ∀ c ∈ k, isWordChar c = true := by
    simp only [isKeyword, Bool.or_eq_true, decide_eq_true_eq] at hk
    obtain rfl | rfl := hk <;> exact List.all_eq_true.1 rfl
  have hs : Breaks (' ' :: s) := Json.breaks_cons (by decide) s
  obtain ⟨hc, -⟩ := Text.run_cancel (isWordChar_of_mem_name hx) hword hr hs h
  have hne : x ≠ "let" ∧ x ≠ "in" := by
    simp only [isName, Bool.and_eq_true, bne_iff_ne] at hx
    exact ⟨hx.1.2, hx.2⟩
  simp only [isKeyword, ← hc, Bool.or_eq_true, decide_eq_true_eq] at hk
  exact hk.elim (fun h => hne.1 (String.toList_injective h))
    (fun h => hne.2 (String.toList_injective h))

end Names

mutual
def Atom.Plain : Atom → Prop
  | .lit l => l.isPlain = true
  | .word x => isName x = true
  | .wildcard => True
  | .named x a => isName x = true ∧ a.Plain
  | .paren p => p.Plain

def Atom.AllPlain : List Atom → Prop
  | [] => True
  | a :: as => a.Plain ∧ Atom.AllPlain as

def Phrase.Plain : Phrase → Prop
  | .spine a as => a.Plain ∧ Atom.AllPlain as
  | .abs a p => a.Plain ∧ p.Plain
  | .letIn cs p => cs.Plain ∧ p.Plain

def Clauses.Plain : Clauses → Prop
  | .nil => True
  | .cons x ps p rest => isName x = true ∧ Atom.AllPlain ps ∧ p.Plain ∧ rest.Plain
end

/-- What the first character of an atom shows. -/
inductive Lead where
  | letter
  | numeralOrQuote
  | underscore
  | bracket

def Lead.of? (c : Char) : Option Lead :=
  if c.isAlpha then some .letter
  else if c.isDigit || c = '-' || c = '"' then some .numeralOrQuote
  else if c = '_' then some .underscore
  else if c = '(' then some .bracket
  else none

def Atom.lead : Atom → Lead
  | .lit l => if l = .unit then .bracket else .numeralOrQuote
  | .paren _ => .bracket
  | .word _ | .named _ _ => .letter
  | .wildcard => .underscore

theorem Lead.of?_letter {c : Char} (h : c.isAlpha = true) : of? c = some .letter := if_pos h

theorem Lead.of?_numeral {c : Char} (h : c = '-' ∨ c.isDigit = true) :
    of? c = some .numeralOrQuote := by
  obtain rfl | h := h
  · rfl
  · have hd : 48 ≤ c.toNat ∧ c.toNat ≤ 57 := by
      simpa [Char.isDigit, UInt32.le_iff_toNat_le] using h
    have ha : c.isAlpha = false := by
      simp [Char.isAlpha, Char.isUpper, Char.isLower, UInt32.le_iff_toNat_le]
      omega
    simp [of?, ha, h]

theorem exists_lead_keyword {k : List Char} (hk : isKeyword k = true) :
    ∃ c cs, k = c :: cs ∧ Lead.of? c = some .letter := by
  simp only [isKeyword, Bool.or_eq_true, decide_eq_true_eq] at hk
  obtain rfl | rfl := hk <;> exact ⟨_, _, rfl, rfl⟩

theorem Atom.exists_lead {a : Atom} (ha : a.Plain) :
    ∃ c cs, a.chars = c :: cs ∧ Lead.of? c = some a.lead := by
  cases a with
  | lit l =>
    rw [Plain] at ha
    obtain ⟨n, hn, hc, hl⟩ | ⟨s, rfl⟩ | rfl := Literal.forms ha
    · obtain ⟨c, w, he, hlead⟩ := Json.exists_lead_chars hn false
      refine ⟨c, w, by rw [chars, hc, he], ?_⟩
      rw [lead, if_neg (Literal.ne_unit_of_ofNumeral? hl), Lead.of?_numeral hlead]
    · exact ⟨_, _, by rw [chars, Literal.text, Text.toList_quoted], rfl⟩
    · exact ⟨'(', [')'], rfl, rfl⟩
  | word x =>
    rw [Plain] at ha
    obtain ⟨c, cs, he, hc⟩ := exists_lead_name ha
    exact ⟨c, cs, by rw [chars, he], Lead.of?_letter hc⟩
  | wildcard => exact ⟨'_', [], by rw [chars], rfl⟩
  | named x a =>
    rw [Plain] at ha
    obtain ⟨c, cs, he, hc⟩ := exists_lead_name ha.1
    exact ⟨c, _, by rw [chars, he, List.cons_append], Lead.of?_letter hc⟩
  | paren p => exact ⟨'(', _, by rw [chars], rfl⟩

section Heads

variable {a b : Atom} {p : Phrase} {r s : List Char}

theorem Atom.ne_cons (ha : a.Plain) {c : Char} (hc : Lead.of? c = none) (r s : List Char) :
    a.chars ++ r ≠ c :: s := by
  obtain ⟨d, ds, he, hd⟩ := a.exists_lead ha
  intro h
  rw [he, List.cons_append, List.cons.injEq] at h
  rw [h.1, hc] at hd
  cases hd

theorem Atom.lead_eq (ha : a.Plain) (hb : b.Plain) (h : a.chars ++ r = b.chars ++ s) :
    a.lead = b.lead := by
  obtain ⟨c, cs, hac, hc⟩ := a.exists_lead ha
  obtain ⟨d, ds, hbd, hd⟩ := b.exists_lead hb
  rw [hac, hbd, List.cons_append, List.cons_append, List.cons.injEq] at h
  rw [h.1, hd] at hc
  exact (Option.some.inj hc).symm

theorem Phrase.ne_close (hp : p.Plain) : p.chars ++ r ≠ ')' :: s := by
  cases p with
  | spine a as =>
    rw [Plain] at hp
    rw [chars, List.append_assoc]
    exact a.ne_cons hp.1 rfl _ _
  | abs a p => simp [chars]
  | letIn cs p => simp [chars]

end Heads

def Stops (r : List Char) : Prop := ∀ c ∈ r.head?, c = ' ' ∨ c = ')' ∨ c = ';'

/-- What may follow arguments: the end of the text, a mark, or a blank and something that is no
argument. -/
inductive Ends : List Char → Prop where
  | text : Ends []
  | paren (r : List Char) : Ends (')' :: r)
  | clause (r : List Char) : Ends (';' :: r)
  | clauses (r : List Char) : Ends (' ' :: 'i' :: 'n' :: ' ' :: r)
  | params (r : List Char) : Ends (' ' :: '=' :: ' ' :: r)

theorem stops_blank (r : List Char) : Stops (' ' :: r) := by simp [Stops]

theorem Stops.breaks {r : List Char} (h : Stops r) : Breaks r := by
  intro c hc
  obtain rfl | rfl | rfl := h c hc <;> decide

theorem Stops.ne_at {r : List Char} (h : Stops r) (s : List Char) : r ≠ '@' :: s := by
  rintro rfl
  simp [Stops] at h

theorem Ends.stops {r : List Char} (h : Ends r) : Stops r := by
  cases h <;> simp [Stops]

theorem Ends.stops_args {r : List Char} (h : Ends r) (as : List Atom) :
    Stops (Atom.argsChars as ++ r) := by
  cases as with
  | nil => exact h.stops
  | cons a as => exact stops_blank _

theorem Clauses.ends (cs : Clauses) (r : List Char) :
    Ends (cs.chars [';', ' '] ++ ' ' :: 'i' :: 'n' :: ' ' :: r) := by
  cases cs with
  | nil => exact .clauses r
  | cons x ps p rest => exact .clause _

theorem Atom.ne_keyword {a : Atom} (ha : a.Plain) {k r : List Char} (hk : isKeyword k = true)
    (hr : Stops r) (s : List Char) : a.chars ++ r ≠ k ++ ' ' :: s := by
  intro h
  have hletter : a.lead = .letter := by
    obtain ⟨c, cs, he, hc⟩ := exists_lead ha
    obtain ⟨d, ds, rfl, hd⟩ := exists_lead_keyword hk
    rw [he, List.cons_append, List.cons_append, List.cons.injEq] at h
    rw [h.1, hd] at hc
    exact (Option.some.inj hc).symm
  cases a with
  | lit l =>
    rw [lead] at hletter
    split at hletter <;> cases hletter
  | word x => exact name_ne_keyword ha hk hr.breaks h
  | named x a =>
    rw [chars, List.append_assoc] at h
    exact name_ne_keyword ha.1 hk (Json.breaks_cons (by decide) _) h
  | wildcard => cases hletter
  | paren p => cases hletter

theorem Ends.ne_arg {a : Atom} (ha : a.Plain) {r s : List Char} (hr : Ends r) (hs : Stops s) :
    r ≠ ' ' :: (a.chars ++ s) := by
  intro h
  cases hr with
  | text => cases h
  | paren r => simp at h
  | clause r => simp at h
  | clauses r => exact a.ne_keyword (k := ['i', 'n']) ha rfl hs r (List.cons.inj h).2.symm
  | params r => exact a.ne_cons ha rfl _ _ (List.cons.inj h).2.symm

theorem Atom.unit_ne_paren {p : Phrase} (hp : p.Plain) (r s : List Char) :
    (lit .unit).chars ++ r ≠ (paren p).chars ++ s := by
  intro h
  have hclose : ')' :: r = p.chars ++ (')' :: s) := by
    simpa [chars, Literal.toList_text_unit] using h
  exact p.ne_close hp hclose.symm

theorem Atom.word_ne_named {x y : String} {a : Atom} (hx : isName x = true) (hy : isName y = true)
    {r : List Char} (hr : Stops r) (s : List Char) :
    (word x).chars ++ r ≠ (named y a).chars ++ s := by
  intro h
  rw [chars, chars, List.append_assoc] at h
  obtain ⟨-, hrest⟩ := name_cancel hx hy hr.breaks (Json.breaks_cons (by decide) _) h
  exact hr.ne_at _ hrest

theorem Phrase.spine_ne_abs {a : Atom} (ha : a.Plain) (as : List Atom) (b : Atom) (q : Phrase)
    (r s : List Char) : (spine a as).chars ++ r ≠ (abs b q).chars ++ s := by
  rw [chars, chars, List.append_assoc, List.cons_append]
  exact a.ne_cons ha rfl _ _

theorem Phrase.spine_ne_letIn {a : Atom} (ha : a.Plain) (as : List Atom) (ds : Clauses) (q : Phrase)
    {r : List Char} (hr : Ends r) (s : List Char) :
    (spine a as).chars ++ r ≠ (letIn ds q).chars ++ s := by
  rw [chars, chars, List.append_assoc]
  exact a.ne_keyword (k := ['l', 'e', 't']) ha rfl (hr.stops_args as) _

theorem Clauses.cons_ne_blank {lead : List Char} (hl : lead = [] ∨ lead = [';', ' ']) {x : String}
    (hx : isName x = true) (ps : List Atom) (p : Phrase) (cs : Clauses) (r s : List Char) :
    (cons x ps p cs).chars lead ++ r ≠ ' ' :: s := by
  obtain rfl | rfl := hl
  · obtain ⟨c, w, he, hc⟩ := exists_lead_name hx
    have hblank : c ≠ ' ' := by
      rintro rfl
      simp at hc
    simp [chars, he, hblank]
  · simp [chars]

theorem Atom.of_lead (a : Atom) : match a.lead with
    | .letter => (∃ x, a = .word x) ∨ ∃ x b, a = .named x b
    | .numeralOrQuote => ∃ l, a = .lit l
    | .underscore => a = .wildcard
    | .bracket => a = .lit .unit ∨ ∃ p, a = .paren p := by
  cases a with
  | lit l => by_cases hl : l = .unit <;> simp [lead, hl]
  | _ => simp [lead]

mutual
/-- Two trees that begin one text are the same tree, if neither can go on with what follows it. -/
theorem Atom.cancel : (a b : Atom) → {r s : List Char} → a.Plain → b.Plain → Stops r → Stops s →
    a.chars ++ r = b.chars ++ s → a = b ∧ r = s
  | .lit l, b, r, s, ha, hb, hr, hs, h => by
    have hkind := b.of_lead
    rw [← Atom.lead_eq ha hb h, Atom.lead] at hkind
    by_cases hl : l = .unit
    · subst hl
      obtain rfl | ⟨q, rfl⟩ := hkind
      · exact ⟨rfl, List.append_cancel_left h⟩
      · exact absurd h (Atom.unit_ne_paren hb r s)
    · rw [if_neg hl] at hkind
      obtain ⟨m, rfl⟩ := hkind
      obtain ⟨rfl, rfl⟩ := Literal.cancel ha hb hr.breaks hs.breaks h
      exact ⟨rfl, rfl⟩
  | .word x, b, r, s, ha, hb, hr, hs, h => by
    have hkind := b.of_lead
    rw [← Atom.lead_eq ha hb h] at hkind
    obtain ⟨y, rfl⟩ | ⟨y, b, rfl⟩ := hkind
    · obtain ⟨rfl, rfl⟩ := name_cancel ha hb hr.breaks hs.breaks h
      exact ⟨rfl, rfl⟩
    · exact absurd h (Atom.word_ne_named ha hb.1 hr s)
  | .wildcard, b, r, s, ha, hb, hr, hs, h => by
    have hkind := b.of_lead
    rw [← Atom.lead_eq ha hb h] at hkind
    obtain rfl := hkind
    exact ⟨rfl, List.append_cancel_left h⟩
  | .named x a, b, r, s, ha, hb, hr, hs, h => by
    have hkind := b.of_lead
    rw [← Atom.lead_eq ha hb h] at hkind
    obtain ⟨y, rfl⟩ | ⟨y, b, rfl⟩ := hkind
    · exact absurd h.symm (Atom.word_ne_named hb ha.1 hs r)
    · have hat : ∀ cs, Breaks ('@' :: cs) := Json.breaks_cons (by decide)
      rw [Atom.chars, Atom.chars, List.append_assoc, List.append_assoc] at h
      obtain ⟨rfl, hrest⟩ := name_cancel ha.1 hb.1 (hat _) (hat _) h
      obtain ⟨rfl, rfl⟩ := Atom.cancel a b ha.2 hb.2 hr hs (List.cons.inj hrest).2
      exact ⟨rfl, rfl⟩
  | .paren p, b, r, s, ha, hb, hr, hs, h => by
    have hkind := b.of_lead
    rw [← Atom.lead_eq ha hb h] at hkind
    obtain rfl | ⟨q, rfl⟩ := hkind
    · exact absurd h.symm (Atom.unit_ne_paren ha s r)
    · have hbody : p.chars ++ ')' :: r = q.chars ++ ')' :: s := by
        simpa [Atom.chars] using h
      obtain ⟨rfl, hrest⟩ := Phrase.cancel p q ha hb (.paren r) (.paren s) hbody
      exact ⟨rfl, (List.cons.inj hrest).2⟩

theorem Atom.args_cancel : (as bs : List Atom) → {r s : List Char} → Atom.AllPlain as →
    Atom.AllPlain bs → Ends r → Ends s → Atom.argsChars as ++ r = Atom.argsChars bs ++ s →
    as = bs ∧ r = s
  | [], [], r, s, _, _, _, _, h => ⟨rfl, h⟩
  | [], b :: bs, r, s, _, hb, hr, hs, h => by
    rw [Atom.argsChars, Atom.argsChars, List.cons_append, List.append_assoc] at h
    exact absurd h (hr.ne_arg hb.1 (hs.stops_args bs))
  | a :: as, [], r, s, ha, _, hr, hs, h => by
    rw [Atom.argsChars, Atom.argsChars, List.cons_append, List.append_assoc] at h
    exact absurd h.symm (hs.ne_arg ha.1 (hr.stops_args as))
  | a :: as, b :: bs, r, s, ha, hb, hr, hs, h => by
    rw [Atom.argsChars, Atom.argsChars, List.cons_append, List.cons_append, List.append_assoc,
      List.append_assoc] at h
    obtain ⟨rfl, hrest⟩ :=
      Atom.cancel a b ha.1 hb.1 (hr.stops_args as) (hs.stops_args bs) (List.cons.inj h).2
    obtain ⟨rfl, rfl⟩ := Atom.args_cancel as bs ha.2 hb.2 hr hs hrest
    exact ⟨rfl, rfl⟩

theorem Phrase.cancel : (p q : Phrase) → {r s : List Char} → p.Plain → q.Plain → Ends r → Ends s →
    p.chars ++ r = q.chars ++ s → p = q ∧ r = s
  | .spine a as, .spine b bs, r, s, hp, hq, hr, hs, h => by
    rw [Phrase.chars, Phrase.chars, List.append_assoc, List.append_assoc] at h
    obtain ⟨rfl, hrest⟩ :=
      Atom.cancel a b hp.1 hq.1 (hr.stops_args as) (hs.stops_args bs) h
    obtain ⟨rfl, rfl⟩ := Atom.args_cancel as bs hp.2 hq.2 hr hs hrest
    exact ⟨rfl, rfl⟩
  | .abs a p, .abs b q, r, s, hp, hq, hr, hs, h => by
    simp only [Phrase.chars, List.cons_append, List.append_assoc, List.cons.injEq, true_and] at h
    obtain ⟨rfl, hrest⟩ := Atom.cancel a b hp.1 hq.1 (stops_blank _) (stops_blank _) h
    simp only [List.cons.injEq, true_and] at hrest
    obtain ⟨rfl, rfl⟩ := Phrase.cancel p q hp.2 hq.2 hr hs hrest
    exact ⟨rfl, rfl⟩
  | .letIn cs p, .letIn ds q, r, s, hp, hq, hr, hs, h => by
    simp only [Phrase.chars, List.cons_append, List.append_assoc, List.cons.injEq, true_and] at h
    obtain ⟨rfl, hrest⟩ := Clauses.cancel cs ds (.inl rfl) hp.1 hq.1 h
    obtain ⟨rfl, rfl⟩ := Phrase.cancel p q hp.2 hq.2 hr hs hrest
    exact ⟨rfl, rfl⟩
  | .spine a as, .abs b q, r, s, hp, _, _, _, h => absurd h (Phrase.spine_ne_abs hp.1 as b q r s)
  | .abs a p, .spine b bs, r, s, _, hq, _, _, h =>
    absurd h.symm (Phrase.spine_ne_abs hq.1 bs a p s r)
  | .spine a as, .letIn ds q, r, s, hp, _, hr, _, h =>
    absurd h (Phrase.spine_ne_letIn hp.1 as ds q hr s)
  | .letIn cs p, .spine b bs, r, s, _, hq, _, hs, h =>
    absurd h.symm (Phrase.spine_ne_letIn hq.1 bs cs p hs r)
  | .abs a p, .letIn ds q, r, s, _, _, _, _, h => by simp [Phrase.chars] at h
  | .letIn cs p, .abs b q, r, s, _, _, _, _, h => by simp [Phrase.chars] at h

theorem Clauses.cancel : (cs ds : Clauses) → {lead r s : List Char} →
    lead = [] ∨ lead = [';', ' '] → cs.Plain → ds.Plain →
    cs.chars lead ++ ' ' :: 'i' :: 'n' :: ' ' :: r =
      ds.chars lead ++ ' ' :: 'i' :: 'n' :: ' ' :: s → cs = ds ∧ r = s
  | .nil, .nil, _, r, s, _, _, _, h => ⟨rfl, by simpa [Clauses.chars] using h⟩
  | .nil, .cons y qs q ds, lead, r, s, hl, _, hd, h =>
    absurd h.symm (Clauses.cons_ne_blank hl hd.1 qs q ds _ _)
  | .cons x ps p cs, .nil, lead, r, s, hl, hc, _, h =>
    absurd h (Clauses.cons_ne_blank hl hc.1 ps p cs _ _)
  | .cons x ps p cs, .cons y qs q ds, lead, r, s, hl, hc, hd, h => by
    simp only [Clauses.chars, List.append_assoc, List.cons_append] at h
    replace h := List.append_cancel_left h
    have hparams : ∀ as cs, Stops (Atom.argsChars as ++ ' ' :: '=' :: ' ' :: cs) :=
      fun as cs => (Ends.params cs).stops_args as
    obtain ⟨rfl, h₁⟩ := name_cancel hc.1 hd.1 (hparams ps _).breaks (hparams qs _).breaks h
    obtain ⟨rfl, h₂⟩ := Atom.args_cancel ps qs hc.2.1 hd.2.1 (.params _) (.params _) h₁
    simp only [List.cons.injEq, true_and] at h₂
    obtain ⟨rfl, h₃⟩ := Phrase.cancel p q hc.2.2.1 hd.2.2.1 (cs.ends r) (ds.ends s) h₂
    obtain ⟨rfl, rfl⟩ := Clauses.cancel cs ds (.inr rfl) hc.2.2.2 hd.2.2.2 h₃
    exact ⟨rfl, rfl⟩
end

end LetPoly
