import LetPoly.Proofs.Signature.Grammar

set_option autoImplicit false

namespace LetPoly.Signature

def isConWord (c : String) : Bool := c.toList.all isWordChar && c.toList.head?.any Text.isUppercase

/-- A word that starts with a letter. After its quote it is never taken for `forall`. -/
def isVarWord (v : String) : Bool := v.toList.all isWordChar && v.toList.head?.any Text.isAlphabetic

def WritableType : Ty → Prop
  | .con c => c = "->" ∨ isConWord c = true
  | .var v => isVarWord v = true
  | .app f a => WritableType f ∧ WritableType a

theorem WritableType.vars {t : Ty} (h : WritableType t) : ∀ v ∈ t.vars, isVarWord v = true := by
  induction t with
  | con c => simp [Ty.vars]
  | var w =>
    intro v hv
    rw [Ty.mem_vars_var.1 hv]
    exact h
  | app f a ihf iha =>
    intro v hv
    rcases List.mem_append.1 hv with hv | hv
    · exact ihf h.1 v hv
    · exact iha h.2 v hv

structure WritableScheme (σ : Scheme) : Prop where
  body : WritableType σ.body
  vars : ∀ v ∈ σ.vars, isVarWord v = true
  quantified : ∀ v ∈ σ.body.vars, v ∈ σ.vars

/-- The text falls into these tokens, wherever it starts. -/
def Lexes (cs : List Char) (ts : List Token) : Prop :=
  ∀ n, ∃ us, tokensFrom n (lexemes cs) = .ok us ∧ us.map Prod.fst = ts

def Breaks (cs : List Char) : Prop := ∀ c ∈ cs.head?, isWordChar c = false

theorem lexes_nil : Lexes [] [] := fun _ => ⟨[], rfl, rfl⟩

theorem breaks_nil : Breaks [] := by simp [Breaks]

theorem breaks_cons {c : Char} (h : isWordChar c = false) (cs : List Char) : Breaks (c :: cs) := by
  simpa [Breaks] using h

theorem lexemes_mark {c : Char} (h : isWordChar c = false) (cs : List Char) :
    lexemes (c :: cs) = .mark c :: lexemes cs := by
  rw [lexemes, h]
  rfl

theorem lexemes_word {w cs : List Char} (hne : w ≠ []) (hw : w.all isWordChar = true)
    (hcs : Breaks cs) : lexemes (w ++ cs) = .word w :: lexemes cs := by
  induction w with
  | nil => exact absurd rfl hne
  | cons c w ih =>
    simp only [List.all_cons, Bool.and_eq_true] at hw
    rw [List.cons_append, lexemes, if_pos hw.1]
    cases w with
    | cons d w => rw [ih (by simp) hw.2]
    | nil =>
      cases cs with
      | nil => rfl
      | cons d cs =>
        have hd : isWordChar d = false := hcs d rfl
        rw [List.nil_append, lexemes_mark hd]

section Steps

variable {cs w : List Char} {ts : List Token}

theorem Lexes.word {t : Token} (h : Lexes cs ts) (hne : w ≠ []) (hw : w.all isWordChar = true)
    (hcs : Breaks cs) (ht : ∀ n, wordToken n w = .ok t) : Lexes (w ++ cs) (t :: ts) := by
  intro n
  obtain ⟨us, hus, rfl⟩ := h (n + byteLength w)
  refine ⟨(t, n) :: us, ?_, rfl⟩
  rw [lexemes_word hne hw hcs, tokensFrom, ht, hus]
  rfl

theorem Lexes.blank (h : Lexes cs ts) : Lexes (' ' :: cs) ts := by
  intro n
  obtain ⟨us, hus, rfl⟩ := h (n + ' '.utf8Size)
  exact ⟨us, hus, rfl⟩

theorem Lexes.arrow (h : Lexes cs ts) : Lexes ('-' :: '>' :: cs) (.arrow :: ts) := by
  intro n
  obtain ⟨us, hus, rfl⟩ := h (n + 2)
  refine ⟨(.arrow, n) :: us, ?_, rfl⟩
  rw [lexemes_mark (by decide), lexemes_mark (by decide), tokensFrom, hus]
  rfl

theorem markToken?_char {c : Char} {t : Token} (h : markToken? c = some t) :
    isWordChar c = false ∧ Text.isBlank c = false ∧ c ≠ '-' := by
  unfold markToken? at h
  split at h
  · decide
  · decide
  · decide
  · decide +kernel
  · cases h

theorem Lexes.mark {c : Char} {t : Token} (h : Lexes cs ts) (ht : markToken? c = some t) :
    Lexes (c :: cs) (t :: ts) := by
  obtain ⟨hw, hb, hne⟩ := markToken?_char ht
  intro n
  obtain ⟨us, hus, rfl⟩ := h (n + c.utf8Size)
  refine ⟨(t, n) :: us, ?_, rfl⟩
  rw [lexemes_mark hw, tokensFrom, hb, ht, hus]
  · rfl
  · exact fun _ _ hc => hne hc

end Steps

/-- The text, before a break, is read as these tokens. -/
def Spells (s : String) (ts : List Token) : Prop :=
  ∀ cs us, Breaks cs → Lexes cs us → Lexes (s.toList ++ cs) (ts ++ us)

theorem wordToken_con (n : Nat) {c : Char} (h : Text.isUppercase c = true) (w : List Char) :
    wordToken n (c :: w) = .ok (.con (String.ofList (c :: w))) := by
  have hf : c ≠ 'f' := fun hf => absurd (hf ▸ h) (by decide)
  have hq : c ≠ '\x27' := fun hq => absurd (hq ▸ h) (by decide)
  rw [wordToken, if_neg (by simp [hf])]
  · exact if_pos h
  · exact fun hc _ => hq hc
  · exact fun _ _ hc _ => hq hc

theorem wordToken_quoted (n : Nat) {c : Char} (h : Text.isAlphabetic c = true) (w : List Char) :
    wordToken n ('\x27' :: c :: w) = .ok (.var (String.ofList (c :: w))) := by
  rw [wordToken, if_neg (by simp)]
  exact if_pos h

theorem exists_toList_cons {s : String} {p : Char → Bool} (h : s.toList.head?.any p = true) :
    ∃ c w, s.toList = c :: w ∧ p c = true := by
  cases hl : s.toList with
  | nil => simp [hl] at h
  | cons c w => exact ⟨c, w, rfl, by simpa [hl] using h⟩

theorem spells_con {c : String} (h : isConWord c = true) : Spells c [.con c] := by
  intro cs us hcs hus
  simp only [isConWord, Bool.and_eq_true] at h
  obtain ⟨d, w, hd, hu⟩ := exists_toList_cons h.2
  refine hus.word (by simp [hd]) h.1 hcs fun n => ?_
  rw [hd, wordToken_con n hu w, ← hd, String.ofList_toList]

theorem spells_var {v : String} (h : isVarWord v = true) : Spells ("'" ++ v) [.var v] := by
  intro cs us hcs hus
  simp only [isVarWord, Bool.and_eq_true] at h
  obtain ⟨d, w, hd, ha⟩ := exists_toList_cons h.2
  have hq : ("'" ++ v).toList = '\x27' :: d :: w := by simp [hd]
  have hw : ("'" ++ v).toList.all isWordChar = true := by
    have hquote : isWordChar '\x27' = true := by decide
    simp only [hq, List.all_cons, hquote, Bool.true_and]
    simpa [hd] using h.1
  refine hus.word (by simp [hq]) hw hcs fun n => ?_
  rw [hq, wordToken_quoted n ha w, ← hd, String.ofList_toList]

def inParens (b : Bool) (ts : List Token) : List Token :=
  if b then .openParen :: ts ++ [.closeParen] else ts

namespace Spells

variable {s s' : String} {ts ts' : List Token}

theorem parens (h : Spells s ts) (b : Bool) : Spells (Text.parens b s) (inParens b ts) := by
  cases b with
  | false => exact h
  | true =>
    intro cs us hcs hus
    have hclose : Lexes (')' :: cs) (.closeParen :: us) := hus.mark rfl
    have hs := h _ _ (breaks_cons (by decide) cs) hclose
    simpa [Text.parens, inParens] using (Lexes.mark hs rfl : Lexes ('(' :: _) _)

theorem blank (h : Spells s ts) (h' : Spells s' ts') : Spells (s ++ " " ++ s') (ts ++ ts') := by
  intro cs us hcs hus
  have hs := h _ _ (breaks_cons (by decide) _) (h' cs us hcs hus).blank
  simpa using hs

theorem arrow (h : Spells s ts) (h' : Spells s' ts') :
    Spells (s ++ " -> " ++ s') (ts ++ .arrow :: ts') := by
  intro cs us hcs hus
  have hs := h _ _ (breaks_cons (by decide) _) (h' cs us hcs hus).blank.arrow.blank
  simpa using hs

end Spells

def typeTokens : Ty → List Token
  | .con c => if c = "->" then [.openParen, .arrow, .closeParen] else [.con c]
  | .var v => [.var v]
  | .app (.app (.con "->") a) b => inParens a.isFn (typeTokens a) ++ .arrow :: typeTokens b
  | .app f a => inParens f.isFn (typeTokens f) ++ inParens a.isApp (typeTokens a)

theorem spells_text {t : Ty} (h : WritableType t) : Spells t.text (typeTokens t) := by
  fun_induction typeTokens t with
  | case1 =>
    intro cs us _ hus
    have hclose : Lexes (')' :: cs) (.closeParen :: us) := hus.mark rfl
    have hopen : Lexes ('(' :: '-' :: '>' :: ')' :: cs) _ := hclose.arrow.mark rfl
    simpa [Ty.text] using hopen
  | case2 c hc => simpa [Ty.text, hc] using spells_con (h.resolve_left hc)
  | case3 v => exact spells_var h
  | case4 a b iha ihb =>
    obtain ⟨⟨-, ha⟩, hb⟩ := h
    exact ((iha ha).parens a.isFn).arrow (ihb hb)
  | case5 f a hf ihf iha =>
    rw [Ty.text]
    · exact ((ihf h.1).parens f.isFn).blank ((iha h.2).parens a.isApp)
    · exact hf

theorem derivesAtom_typeTokens {t : Ty} (h : t.isApp = false) : DerivesAtom (typeTokens t) t := by
  cases t with
  | con c =>
    by_cases hc : c = "->"
    · subst hc
      exact .arrow
    · simpa [typeTokens, hc] using .con c
  | var v => exact .var v
  | app f a => cases h

theorem DerivesType.inParens_atom {t : Ty} (h : DerivesType (typeTokens t) t) :
    DerivesAtom (inParens t.isApp (typeTokens t)) t := by
  cases ht : t.isApp with
  | true => exact .parens h
  | false => exact derivesAtom_typeTokens ht

/-- A full arrow is no application: it needs parentheses where one is expected. -/
theorem inParens_application {t : Ty} (h : DerivesType (typeTokens t) t)
    (ha : t.isFn = false → DerivesApplication (typeTokens t) t) :
    DerivesApplication (inParens t.isFn (typeTokens t)) t := by
  cases ht : t.isFn with
  | true => exact .atom (.parens h)
  | false => exact ha ht

theorem derives_typeTokens (t : Ty) :
    DerivesType (typeTokens t) t ∧ (t.isFn = false → DerivesApplication (typeTokens t) t) := by
  fun_induction typeTokens t with
  | case1 => exact ⟨.application (.atom .arrow), fun _ => .atom .arrow⟩
  | case2 c => exact ⟨.application (.atom (.con c)), fun _ => .atom (.con c)⟩
  | case3 v => exact ⟨.application (.atom (.var v)), fun _ => .atom (.var v)⟩
  | case4 a b iha ihb =>
    exact ⟨.arrow (inParens_application iha.1 iha.2) ihb.1, fun h => by cases h⟩
  | case5 f a _ ihf iha =>
    have happ := DerivesApplication.apply (inParens_application ihf.1 ihf.2) iha.1.inParens_atom
    exact ⟨.application happ, fun _ => happ⟩

theorem lexes_vars {vs : List String} (h : ∀ v ∈ vs, isVarWord v = true) {cs : List Char}
    {us : List Token} (hcs : Breaks cs) (hus : Lexes cs us) :
    Breaks ((String.join (vs.map (" '" ++ ·))).toList ++ cs) ∧
      Lexes ((String.join (vs.map (" '" ++ ·))).toList ++ cs) (vs.map .var ++ us) := by
  induction vs with
  | nil => simpa using ⟨hcs, hus⟩
  | cons v vs ih =>
    obtain ⟨hb, hl⟩ := ih fun w hw => h w (by simp [hw])
    have hv := (spells_var (h v (by simp)) _ _ hb hl).blank
    exact ⟨by simpa using breaks_cons (by decide) _, by simpa using hv⟩

def schemeTokens (σ : Scheme) : List Token :=
  if σ.isMono then typeTokens σ.body
  else .quantifier :: σ.vars.keys.map .var ++ .dot :: typeTokens σ.body

theorem lexes_text {σ : Scheme} (h : WritableScheme σ) : Lexes σ.text.toList (schemeTokens σ) := by
  have hbody := spells_text h.body [] [] breaks_nil lexes_nil
  rw [Scheme.text, schemeTokens]
  split
  · simpa using hbody
  · have hdot : Lexes ('.' :: ' ' :: (σ.body.text.toList ++ [])) _ := hbody.blank.mark rfl
    have hvars := (lexes_vars (fun v hv => h.vars v (NameMap.mem_keys.1 hv))
      (breaks_cons (by decide) _) hdot).2
    have hall : Lexes ('∀' :: _) _ := hvars.mark rfl
    simpa using hall

theorem derives_schemeTokens {σ : Scheme} (h : ∀ v ∈ σ.body.vars, v ∈ σ.vars) :
    DerivesScheme (schemeTokens σ) σ := by
  have hbody := (derives_typeTokens σ.body).1
  rw [schemeTokens]
  split
  · rename_i hm
    have he : ∀ v, v ∉ σ.vars := by
      intro v hv
      have hnil : σ.vars.keys = [] := by
        simpa [NameMap.keys, Scheme.isMono, NameMap.isEmpty] using hm
      simpa [hnil] using NameMap.mem_keys.2 hv
    have hv : σ.body.freeVars = σ.vars := NameSet.ext_mem fun v => by
      rw [Ty.mem_freeVars]
      exact ⟨h v, fun hv => absurd hv (he v)⟩
    have hd := DerivesScheme.implicit hbody
    rwa [Scheme.closed, hv] at hd
  · rename_i hm
    have hne : σ.vars.keys ≠ [] := by
      simpa [NameMap.keys, Scheme.isMono, NameMap.isEmpty] using hm
    have hσ : NameSet.ofNames σ.vars.keys = σ.vars := NameSet.ext_mem fun v => by
      rw [NameSet.mem_ofNames, NameMap.mem_keys]
    have hd := DerivesScheme.quantified hne hbody fun v hv => NameMap.mem_keys.2 (h v hv)
    rwa [Scheme.poly, hσ] at hd

def WritableToken : Token → Prop
  | .con c => isConWord c = true
  | .var v => isVarWord v = true
  | _ => True

theorem all_isWordChar_of_mem_lexemes {cs w : List Char} (h : .word w ∈ lexemes cs) :
    w.all isWordChar = true := by
  fun_induction lexemes cs generalizing w with
  | case1 => simp at h
  | case2 c cs hc w' ls hls ih =>
    rw [hls] at ih
    rcases List.mem_cons.1 h with h | h
    · cases h
      simpa [hc] using ih List.mem_cons_self
    · exact ih (List.mem_cons_of_mem _ h)
  | case3 c cs hc _ ih =>
    rcases List.mem_cons.1 h with h | h
    · cases h
      simpa using hc
    · exact ih h
  | case4 c cs _ ih => exact ih (by simpa using h)

theorem writableToken_of_wordToken {n : Nat} {w : List Char} {t : Token}
    (hw : w.all isWordChar = true) (h : wordToken n w = .ok t) : WritableToken t := by
  unfold wordToken at h
  split at h
  · cases h
    trivial
  split at h
  · cases h
  · cases h
  · split at h
    · rename_i c cs ha
      cases h
      simp only [List.all_cons, Bool.and_eq_true] at hw
      simp [WritableToken, isVarWord, hw.2.1, hw.2.2, ha]
    · cases h
  · simp only [List.all_cons, Bool.and_eq_true] at hw
    split at h
    · rename_i hu
      cases h
      simp [WritableToken, isConWord, hw.1, hw.2, hu]
    · split at h
      · rename_i ha
        cases h
        simp [WritableToken, isVarWord, hw.1, hw.2, ha]
      · cases h

theorem writableToken_of_tokensFrom {n : Nat} {ls : List Lexeme} {us : List (Token × Nat)}
    (hls : ∀ w, .word w ∈ ls → w.all isWordChar = true) (h : tokensFrom n ls = .ok us) :
    ∀ u ∈ us, WritableToken u.1 := by
  fun_induction tokensFrom n ls generalizing us with
  | case1 =>
    cases h
    simp
  | case2 n ls ih =>
    obtain ⟨us, hus, h⟩ := bind_eq_ok.1 h
    cases h
    simpa [WritableToken] using ih (fun w hw => hls w (by simp [hw])) hus
  | case3 n w ls ih =>
    obtain ⟨t, ht, h⟩ := bind_eq_ok.1 h
    obtain ⟨us, hus, h⟩ := bind_eq_ok.1 h
    cases h
    have htok := writableToken_of_wordToken (hls w (by simp)) ht
    simpa [htok] using ih (fun w hw => hls w (by simp [hw])) hus
  | case4 n c ls _ _ ih => exact ih (fun w hw => hls w (by simp [hw])) h
  | case5 n c ls _ _ t ht ih =>
    obtain ⟨us, hus, h⟩ := bind_eq_ok.1 h
    cases h
    have htok : WritableToken t := by
      unfold markToken? at ht
      split at ht <;> cases ht <;> trivial
    simpa [htok] using ih (fun w hw => hls w (by simp [hw])) hus
  | case6 => cases h

theorem DerivesType.writable {ts : List Token} {t : Ty} (h : DerivesType ts t)
    (hts : ∀ a ∈ ts, WritableToken a) : WritableType t := by
  revert hts
  refine @DerivesType.rec (fun ts t _ => (∀ a ∈ ts, WritableToken a) → WritableType t)
    (fun ts t _ => (∀ a ∈ ts, WritableToken a) → WritableType t)
    (fun ts t _ => (∀ a ∈ ts, WritableToken a) → WritableType t) ?_ ?_ ?_ ?_ ?_ ?_ ?_ ?_ ?_ ts t h
  · exact fun _ ih => ih
  · intro ts us a b _ _ iha ihb hts
    simp only [List.mem_append, List.mem_cons] at hts
    exact ⟨⟨.inl rfl, iha fun x hx => hts x (.inl hx)⟩, ihb fun x hx => hts x (.inr (.inr hx))⟩
  · exact fun _ ih => ih
  · intro ts us f a _ _ ihf iha hts
    simp only [List.mem_append] at hts
    exact ⟨ihf fun x hx => hts x (.inl hx), iha fun x hx => hts x (.inr hx)⟩
  · exact fun c hts => .inr (hts (.con c) (by simp))
  · exact fun v hts => hts (.var v) (by simp)
  · exact fun _ => .inr (by decide)
  · exact fun _ => .inl rfl
  · intro ts t _ ih hts
    exact ih fun x hx => hts x (by simp [hx])

theorem DerivesScheme.writable {ts : List Token} {σ : Scheme} (h : DerivesScheme ts σ)
    (hts : ∀ a ∈ ts, WritableToken a) : WritableScheme σ := by
  cases h with
  | @quantified vs ts t _ ht hbound =>
    have hbody := ht.writable fun a ha => hts a (by simp [ha])
    refine ⟨hbody, fun v hv => ?_, fun v hv => NameSet.mem_ofNames.2 (hbound v hv)⟩
    exact hts (.var v) (by simp [NameSet.mem_ofNames.1 hv])
  | implicit ht =>
    have hbody := ht.writable hts
    exact ⟨hbody, fun v hv => hbody.vars v (Ty.mem_freeVars.1 hv), fun v => Ty.mem_freeVars.2⟩

theorem parseScheme_writable {src : String} {σ : Scheme} (h : parseScheme src = .ok σ) :
    WritableScheme σ := by
  obtain ⟨us, hus, hd⟩ := parseScheme_eq_ok.1 h
  have htok := writableToken_of_tokensFrom (fun w => all_isWordChar_of_mem_lexemes) hus
  refine hd.writable fun a ha => ?_
  obtain ⟨u, hu, rfl⟩ := List.mem_map.1 ha
  exact htok u hu

theorem parseScheme_of_writable {σ : Scheme} (h : WritableScheme σ) :
    parseScheme σ.text = .ok σ := by
  obtain ⟨us, hus, hts⟩ := lexes_text h 0
  exact parseScheme_eq_ok.2 ⟨us, hus, hts ▸ derives_schemeTokens h.quantified⟩

/-- A scheme that can be written is read back from its text, and nothing else is ever read: so every
signature that is accepted means the same as the text of its scheme. -/
theorem parseScheme_text :
    (∀ σ, WritableScheme σ → parseScheme σ.text = .ok σ) ∧
    ∀ src σ, parseScheme src = .ok σ → WritableScheme σ ∧ parseScheme σ.text = .ok σ :=
  ⟨fun _ => parseScheme_of_writable, fun _ _ h =>
    ⟨parseScheme_writable h, parseScheme_of_writable (parseScheme_writable h)⟩⟩

/-- Written `∀ 'b 'forall. F ((->) 'forall) Unit`. -/
def partialArrow : Scheme :=
  .poly ["forall", "b"] (.app (.app (.con "F") (.app .arrow (.var "forall"))) .unit)

theorem parseScheme_text_partialArrow :
    WritableScheme partialArrow ∧ parseScheme partialArrow.text = .ok partialArrow := by
  have hbody : WritableType partialArrow.body :=
    ⟨⟨.inr (by decide), .inl rfl, (by decide : isVarWord "forall" = true)⟩, .inr (by decide)⟩
  have hvars : ∀ v ∈ ["forall", "b"], isVarWord v = true := by decide
  have h : WritableScheme partialArrow :=
    ⟨hbody, fun v hv => hvars v (NameSet.mem_ofNames.1 hv), by decide⟩
  exact ⟨h, parseScheme_text.1 partialArrow h⟩

end LetPoly.Signature
