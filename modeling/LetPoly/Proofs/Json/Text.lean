import LetPoly.Proofs.Json.Numeral
import Mathlib.Data.List.Chain

set_option autoImplicit false

namespace LetPoly.Json

open Text (hexDigit hexValue?_hexDigit)

theorem readPieces?_control {c : Char} (h : c < ' ') (cs : List Char) :
    readPieces? ('\\' :: 'u' :: '0' :: '0' :: hexDigit (c.toNat / 16) :: hexDigit (c.toNat % 16) ::
      cs) = (readPieces? cs).map (pushPiece (.char c)) := by
  have hlt : c.toNat < 32 := h
  have h₀ : Text.hexValue? '0' = some 0 := by decide
  have h₁ := hexValue?_hexDigit (n := c.toNat / 16) (by omega)
  have h₂ := hexValue?_hexDigit (n := c.toNat % 16) (by omega)
  have hn : 16 * (c.toNat / 16) + c.toNat % 16 = c.toNat := Nat.div_add_mod _ _
  have hp : unicodePiece? '0' '0' (hexDigit (c.toNat / 16)) (hexDigit (c.toNat % 16)) =
      some (.char c) := by
    have hh : isHigh c.toNat = false ∧ isLow c.toNat = false := by
      simp only [isHigh, isLow, Bool.and_eq_false_iff, decide_eq_false_iff_not]
      omega
    simp [unicodePiece?, h₀, h₁, h₂, hn, hh, Char.ofNat_toNat]
  rw [readPieces?, hp]
  rfl

theorem readPieces?_simple {e c : Char} (h : simpleEscape? e = some c) (cs : List Char) :
    readPieces? ('\\' :: e :: cs) = (readPieces? cs).map (pushPiece (.char c)) := by
  have hu : e ≠ 'u' := by
    rintro rfl
    simp [simpleEscape?] at h
  simp [readPieces?, hu, h]

theorem readPieces?_escaped (c : Char) (cs : List Char) :
    readPieces? (escaped c ++ cs) = (readPieces? cs).map (pushPiece (.char c)) := by
  unfold escaped
  split
  · rename_i h
    obtain rfl | rfl := h <;> exact readPieces?_simple rfl cs
  iterate 5
    split
    · subst_vars
      exact readPieces?_simple rfl cs
  split
  · exact readPieces?_control ‹_› cs
  · rename_i hq _ _ _ _ _ hc
    rw [not_or] at hq
    simp [readPieces?, hq, hc]

theorem readPieces?_chars (s rest : List Char) :
    readPieces? (s.flatMap escaped ++ '"' :: rest) = some (s.map .char, rest) := by
  induction s with
  | nil => simp [readPieces?]
  | cons c s ih =>
    rw [List.flatMap_cons, List.append_assoc, readPieces?_escaped, ih]
    rfl

theorem joinHalves?_chars (s : List Char) : joinHalves? (s.map .char) = some s := by
  induction s with
  | nil => rfl
  | cons c s ih => simp [joinHalves?, ih]

def Token.Proper : Token → Prop
  | .number n => n.Proper
  | .string s => s.isSome
  | _ => True

def Token.isWord : Token → Bool
  | .null | .bool _ | .number _ => true
  | _ => false

def Breaks (cs : List Char) : Prop := ∀ c ∈ cs.head?, isWordChar c = false

theorem breaks_cons {c : Char} (h : isWordChar c = false) (cs : List Char) : Breaks (c :: cs) := by
  simpa [Breaks] using h

theorem isWordChar_of_isDigit {c : Char} (h : c.isDigit = true) : isWordChar c = true := by
  simp [isWordChar, Char.isAlphanum, h]

theorem lex?_word {c : Char} {w rest : List Char} {t : Token} {ts : List Token}
    (hw : ∀ d ∈ c :: w, isWordChar d = true) (ht : word? (c :: w) = some t) (hr : Breaks rest)
    (h : lex? rest = some ts) : lex? (c :: w ++ rest) = some (t :: ts) := by
  have hc := hw c List.mem_cons_self
  have hspace : isSpace c = false := by
    by_contra hs
    simp only [isSpace, Bool.not_eq_false, Bool.or_eq_true, decide_eq_true_eq] at hs
    obtain ((rfl | rfl) | rfl) | rfl := hs <;> simp [isWordChar] at hc
  have hquote : c ≠ '"' := by
    rintro rfl
    simp [isWordChar] at hc
  have hmark : punctuation? c = none := by
    unfold punctuation?
    split <;> first | rfl | simp [isWordChar] at hc
  have hw := fun d hd => hw d (List.mem_cons_of_mem _ hd)
  rw [List.cons_append, lex?, hspace, if_neg Bool.false_ne_true, if_neg hquote, hmark]
  simp only [Text.takeWhile_append hw hr, Text.dropWhile_append hw hr, ht, h, Option.map_some]

theorem lex?_mark {c : Char} {cs : List Char} {t : Token} {ts : List Token}
    (ht : punctuation? c = some t) (h : lex? cs = some ts) :
    lex? (c :: cs) = some (t :: ts) := by
  have hc : isSpace c = false ∧ c ≠ '"' := by
    unfold punctuation? at ht
    split at ht <;> first | decide | cases ht
  rw [lex?, hc.1, if_neg Bool.false_ne_true, if_neg hc.2, ht, h]
  rfl

theorem lex?_string {rest : List Char} {ts : List Token} (s : String) (h : lex? rest = some ts) :
    lex? ('"' :: (s.toList.flatMap escaped ++ '"' :: rest)) = some (.string (some s) :: ts) := by
  have hp := readPieces?_chars s.toList rest
  rw [lex?, if_neg (by decide), if_pos rfl]
  split
  · rename_i hn
    rw [hp] at hn
    cases hn
  · rename_i ps rest' hs
    rw [hp] at hs
    cases hs
    rw [joinHalves?_chars, h]
    simp

theorem isWordChar_of_mem_tail {plus : Bool} {e : Option Int} {c : Char}
    (h : c ∈ Numeral.tail plus e) : isWordChar c = true := by
  cases e with
  | none => cases h
  | some e =>
    simp only [Numeral.tail, Numeral.intText, List.mem_cons, List.mem_append] at h
    obtain rfl | h | h := h
    · decide
    · split at h
      · exact List.mem_singleton.1 h ▸ by decide
      · split at h
        · exact List.mem_singleton.1 h ▸ by decide
        · cases h
    · exact isWordChar_of_isDigit (Text.isDigit_of_mem_decimalDigits h)

theorem isWordChar_of_mem_chars {n : Numeral} (hn : n.Proper) {plus : Bool} {c : Char}
    (h : c ∈ n.chars plus) : isWordChar c = true := by
  simp only [Numeral.chars_eq, Numeral.afterWhole, List.mem_append] at h
  obtain h | h | h | h := h
  · split at h
    · exact List.mem_singleton.1 h ▸ by decide
    · cases h
  · exact isWordChar_of_isDigit (hn.whole c h)
  · split at h
    · cases h
    · obtain rfl | h := List.mem_cons.1 h
      · decide
      · exact isWordChar_of_isDigit (hn.fraction c h)
  · exact isWordChar_of_mem_tail h

theorem exists_lead_chars {n : Numeral} (hn : n.Proper) (plus : Bool) :
    ∃ c w, n.chars plus = c :: w ∧ (c = '-' ∨ c.isDigit = true) := by
  obtain ⟨d, ds, hw, hd⟩ := hn.exists_digit
  rw [Numeral.chars_eq, hw]
  cases n.negative with
  | true => exact ⟨_, _, rfl, .inl rfl⟩
  | false => exact ⟨_, _, rfl, .inr hd⟩

theorem word?_chars {n : Numeral} (hn : n.Proper) :
    ∃ c w, n.chars true = c :: w ∧ word? (c :: w) = some (.number n) := by
  have hr := Numeral.read?_chars true hn
  obtain ⟨c, w, he, hc⟩ := exists_lead_chars hn true
  have hletter : c ≠ 'n' ∧ c ≠ 't' ∧ c ≠ 'f' := by
    refine ⟨?_, ?_, ?_⟩ <;> rintro rfl <;> simp at hc
  refine ⟨c, w, he, ?_⟩
  rw [he] at hr
  simp [word?, hletter, hr]

theorem lex?_token {t : Token} {rest : List Char} {ts : List Token} (ht : t.Proper)
    (hr : t.isWord = true → Breaks rest) (h : lex? rest = some ts) :
    lex? (t.chars ++ rest) = some (t :: ts) := by
  cases t with
  | null => exact lex?_word (List.all_eq_true.1 rfl) rfl (hr rfl) h
  | bool b => cases b <;> exact lex?_word (List.all_eq_true.1 rfl) rfl (hr rfl) h
  | number n =>
    obtain ⟨c, w, he, hw⟩ := word?_chars ht
    have hall : ∀ d ∈ n.chars true, isWordChar d = true := fun _ => isWordChar_of_mem_chars ht
    rw [he] at hall
    rw [Token.chars, he]
    exact lex?_word hall hw (hr rfl) h
  | string s =>
    obtain ⟨s, rfl⟩ := Option.isSome_iff_exists.1 ht
    simpa [Token.chars] using lex?_string s h
  | _ => exact lex?_mark rfl h

def Token.Apart (t u : Token) : Prop := t.isWord = true → u.isWord = false

theorem breaks_chars {t : Token} (h : t.isWord = false) (cs : List Char) :
    Breaks (t.chars ++ cs) := by
  cases t <;> first | exact breaks_cons (by decide) _ | cases h

/-- Tokens that are proper and apart are read back from their characters. -/
theorem lex?_flatMap_chars (ts : List Token) (hp : ∀ t ∈ ts, t.Proper)
    (ha : ts.IsChain Token.Apart) : lex? (ts.flatMap Token.chars) = some ts := by
  induction ts with
  | nil =>
    rw [List.flatMap_nil, lex?]
  | cons t ts ih =>
    rw [List.isChain_cons] at ha
    rw [List.flatMap_cons]
    refine lex?_token (hp t List.mem_cons_self) (fun ht => ?_)
      (ih (fun u hu => hp u (List.mem_cons_of_mem _ hu)) ha.2)
    cases ts with
    | nil => simp [Breaks]
    | cons u us =>
      rw [List.flatMap_cons]
      exact breaks_chars (ha.1 u rfl ht) _

theorem isChain_mark {t : Token} {ts : List Token} (ht : t.isWord = false)
    (h : ts.IsChain Token.Apart) : (t :: ts).IsChain Token.Apart := by
  refine List.isChain_cons.2 ⟨fun u _ hw => ?_, h⟩
  rw [ht] at hw
  cases hw

structure MayFollow (ts : List Token) : Prop where
  chain : ts.IsChain Token.Apart
  head : ∀ t ∈ ts.head?, t.isWord = false

theorem MayFollow.mark {t : Token} {ts : List Token} (h : ts.IsChain Token.Apart)
    (ht : t.isWord = false) : MayFollow (t :: ts) :=
  ⟨isChain_mark ht h, by simpa using ht⟩

theorem MayFollow.isChain_cons {ts : List Token} (h : MayFollow ts) (t : Token) :
    (t :: ts).IsChain Token.Apart :=
  List.isChain_cons.2 ⟨fun u hu _ => h.head u hu, h.chain⟩

mutual
theorem isChain_tokens : (j : Json) → {ts : List Token} → MayFollow ts →
    (j.tokens ++ ts).IsChain Token.Apart
  | .null, _, h => by simpa [tokens] using h.isChain_cons .null
  | .bool b, _, h => by simpa [tokens] using h.isChain_cons (.bool b)
  | .number n, _, h => by simpa [tokens] using h.isChain_cons (.number n)
  | .string s, _, h => by simpa [tokens] using h.isChain_cons (.string (some s))
  | .unreadable, _, h => by simpa [tokens] using h.isChain_cons (.string none)
  | .array [], _, h => by
    simp only [tokens]
    exact isChain_mark rfl (isChain_mark rfl h.chain)
  | .array (j :: js), _, h => by
    simp only [tokens, List.cons_append, List.append_assoc]
    exact isChain_mark rfl (isChain_tokens j (mayFollow_itemTokens js h))
  | .object [], _, h => by
    simp only [tokens]
    exact isChain_mark rfl (isChain_mark rfl h.chain)
  | .object ((k, j) :: fs), _, h => by
    simp only [tokens, List.cons_append, List.append_assoc]
    refine isChain_mark rfl (isChain_mark rfl (isChain_mark rfl ?_))
    exact isChain_tokens j (mayFollow_fieldTokens fs h)

theorem mayFollow_itemTokens : (js : List Json) → {ts : List Token} → MayFollow ts →
    MayFollow (itemTokens js ++ ts)
  | [], _, h => by
    simp only [itemTokens]
    exact .mark h.chain rfl
  | j :: js, _, h => by
    simp only [itemTokens, List.cons_append, List.append_assoc]
    exact .mark (isChain_tokens j (mayFollow_itemTokens js h)) rfl

theorem mayFollow_fieldTokens : (fs : List (Option String × Json)) → {ts : List Token} →
    MayFollow ts → MayFollow (fieldTokens fs ++ ts)
  | [], _, h => by
    simp only [fieldTokens]
    exact .mark h.chain rfl
  | (k, j) :: fs, _, h => by
    simp only [fieldTokens, List.cons_append, List.append_assoc]
    refine .mark (isChain_mark rfl (isChain_mark rfl ?_)) rfl
    exact isChain_tokens j (mayFollow_fieldTokens fs h)
end

theorem readValue?_openArray (j : Json) (stack : List Frame) (ts : List Token) :
    readValue? stack (.openArray :: (j.tokens ++ ts)) =
      readValue? (.array [] :: stack) (j.tokens ++ ts) := by
  rw [readValue?]
  intro us h
  cases j with
  | array js => cases js <;> simp [tokens] at h
  | object fs => cases fs <;> simp [tokens] at h
  | _ => simp [tokens] at h

mutual
theorem readValue?_tokens : (j : Json) → (stack : List Frame) → (ts : List Token) →
    readValue? stack (j.tokens ++ ts) = resume? j stack ts
  | .null, _, _ => by simp [tokens, readValue?]
  | .bool b, _, _ => by simp [tokens, readValue?]
  | .number n, _, _ => by simp [tokens, readValue?]
  | .string s, _, _ => by simp [tokens, readValue?]
  | .unreadable, _, _ => by simp [tokens, readValue?]
  | .array [], _, _ => by simp [tokens, readValue?]
  | .array (j :: js), stack, ts => by
    simp only [tokens, List.cons_append, List.append_assoc]
    rw [readValue?_openArray, readValue?_tokens j, resume?_itemTokens js]
    rfl
  | .object [], _, _ => by simp [tokens, readValue?]
  | .object ((k, j) :: fs), stack, ts => by
    simp only [tokens, List.cons_append, List.append_assoc]
    rw [readValue?, readValue?_tokens j, resume?_fieldTokens fs]
    rfl

theorem resume?_itemTokens : (js : List Json) → (j : Json) → (before : List Json) →
    (stack : List Frame) → (ts : List Token) →
      resume? j (.array before :: stack) (itemTokens js ++ ts) =
        resume? (.array (before.reverse ++ j :: js)) stack ts
  | [], j, before, stack, ts => by simp [itemTokens, resume?]
  | i :: js, j, before, stack, ts => by
    simp only [itemTokens, List.cons_append, List.append_assoc]
    rw [resume?, readValue?_tokens i, resume?_itemTokens js]
    simp

theorem resume?_fieldTokens : (fs : List (Option String × Json)) → (k : Option String) →
    (j : Json) → (before : List (Option String × Json)) → (stack : List Frame) →
      (ts : List Token) →
        resume? j (.object before k :: stack) (fieldTokens fs ++ ts) =
          resume? (.object (before.reverse ++ (k, j) :: fs)) stack ts
  | [], k, j, before, stack, ts => by simp [fieldTokens, resume?]
  | (k', i) :: fs, k, j, before, stack, ts => by
    simp only [fieldTokens, List.cons_append, List.append_assoc]
    rw [resume?, readValue?_tokens i, resume?_fieldTokens fs]
    simp
end

def Proper (j : Json) : Prop := ∀ t ∈ j.tokens, t.Proper

section Parts

variable {js : List Json} {fs : List (Option String × Json)}

theorem proper_itemTokens : (∀ t ∈ itemTokens js, t.Proper) ↔ ∀ j ∈ js, j.Proper := by
  induction js with
  | nil => simp [itemTokens, Token.Proper]
  | cons j js ih =>
    simp only [itemTokens, List.cons_append, List.forall_mem_cons, List.forall_mem_append, ih]
    simp [Token.Proper, Proper]

theorem proper_fieldTokens :
    (∀ t ∈ fieldTokens fs, t.Proper) ↔ ∀ f ∈ fs, f.1.isSome = true ∧ f.2.Proper := by
  induction fs with
  | nil => simp [fieldTokens, Token.Proper]
  | cons f fs ih =>
    obtain ⟨k, j⟩ := f
    simp only [fieldTokens, List.cons_append, List.forall_mem_cons, List.forall_mem_append, ih]
    simp [Token.Proper, Proper, and_assoc]

@[simp] theorem proper_array : (array js).Proper ↔ ∀ j ∈ js, j.Proper := by
  cases js with
  | nil => simp [Proper, tokens, Token.Proper]
  | cons j js =>
    simp only [Proper, tokens, List.cons_append, List.forall_mem_cons, List.forall_mem_append,
      proper_itemTokens]
    simp [Token.Proper]

@[simp] theorem proper_object :
    (object fs).Proper ↔ ∀ f ∈ fs, f.1.isSome = true ∧ f.2.Proper := by
  cases fs with
  | nil => simp [Proper, tokens, Token.Proper]
  | cons f fs =>
    obtain ⟨k, j⟩ := f
    simp only [Proper, tokens, List.cons_append, List.forall_mem_cons, List.forall_mem_append,
      proper_fieldTokens]
    simp [Token.Proper, and_assoc]

@[simp] theorem proper_null : null.Proper := by simp [Proper, tokens, Token.Proper]

@[simp] theorem proper_string (s : String) : (string s).Proper := by
  simp [Proper, tokens, Token.Proper]

@[simp] theorem proper_number {n : Numeral} : (number n).Proper ↔ n.Proper := by
  simp [Proper, tokens, Token.Proper]

@[simp] theorem proper_tagged {tag : String} {j : Json} : (tagged tag j).Proper ↔ j.Proper := by
  simp [tagged]

@[simp] theorem proper_fields {gs : List (String × Json)} :
    (fields gs).Proper ↔ ∀ g ∈ gs, g.2.Proper := by
  rw [fields, proper_object, List.forall_mem_map]
  simp

end Parts

theorem read?_compact {j : Json} (h : j.Proper) : read? j.compact = some (j.cut maxDepth) := by
  have ha : (j.tokens ++ []).IsChain Token.Apart := isChain_tokens j ⟨.nil, by simp⟩
  have hv := readValue?_tokens j [] []
  rw [List.append_nil] at ha hv
  rw [read?, compact, String.toList_ofList, lex?_flatMap_chars j.tokens h ha]
  simp [hv, resume?]

end LetPoly.Json
