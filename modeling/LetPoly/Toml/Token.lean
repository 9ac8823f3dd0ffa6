import LetPoly.Toml.Moment

set_option autoImplicit false

namespace LetPoly.Toml

inductive Style where
  | bare
  /-- In one pair of quotes, on one line. -/
  | line
  /-- In triple quotes, over any number of lines. -/
  | block
  deriving DecidableEq

def Style.isKey (s : Style) : Bool := s ≠ .block
def Style.isValue (s : Style) : Bool := s ≠ .bare

inductive Token where
  | openBracket
  | closeBracket
  | openBrace
  | closeBrace
  | comma
  | dot
  | equals
  | lineEnd
  | text (style : Style) (s : String)
  | moment (m : Moment)
  deriving DecidableEq

def isBlank (c : Char) : Bool := c = ' ' || c = '\t'

def isPlain (c : Char) : Bool := c = '\t' || ' ' ≤ c && c ≠ '\x7f'

def isBare (c : Char) : Bool := c.isAlphanum || c = '_' || c = '-'

def startsLineEnd : List Char → Bool
  | '\n' :: _ => true
  | '\r' :: '\n' :: _ => true
  | _ => false

def dropLineEnd : List Char → List Char
  | '\n' :: cs => cs
  | '\r' :: '\n' :: cs => cs
  | cs => cs

def scalar? (ds : List Char) : Option Char := do
  let vs ← ds.mapM Text.hexValue?
  let n := vs.foldl (16 * · + ·) 0
  if n.isValidChar then some (Char.ofNat n) else none

def simpleEscape? : Char → Option Char
  | 'b' => some '\x08'
  | 't' => some '\t'
  | 'n' => some '\n'
  | 'f' => some '\x0c'
  | 'r' => some '\r'
  | '"' => some '"'
  | '\\' => some '\\'
  | _ => none

abbrev Reading := List Char × List Char

def Reading.push (c : Char) (r : Reading) : Reading := (c :: r.1, r.2)

theorem eq_some_of_map_push {c : Char} {r : Option Reading} {s rest : List Char}
    (h : r.map (Reading.push c) = some (s, rest)) : ∃ s', r = some (s', rest) := by
  cases r with
  | none => simp at h
  | some r =>
    simp only [Option.map_some, Option.some.injEq, Reading.push, Prod.mk.injEq] at h
    exact ⟨r.1, by rw [← h.2]⟩

def readLiteral? : List Char → Option Reading
  | [] => none
  | '\x27' :: cs => some ([], cs)
  | c :: cs => if isPlain c then (readLiteral? cs).map (Reading.push c) else none

def readBasic? : List Char → Option Reading
  | [] => none
  | '"' :: cs => some ([], cs)
  | '\\' :: 'u' :: a :: b :: c :: d :: cs =>
    (scalar? [a, b, c, d]).bind fun x => (readBasic? cs).map (Reading.push x)
  | '\\' :: 'U' :: a :: b :: c :: d :: e :: f :: g :: h :: cs =>
    (scalar? [a, b, c, d, e, f, g, h]).bind fun x => (readBasic? cs).map (Reading.push x)
  | '\\' :: c :: cs => (simpleEscape? c).bind fun x => (readBasic? cs).map (Reading.push x)
  | c :: cs => if isPlain c ∧ c ≠ '\\' then (readBasic? cs).map (Reading.push c) else none

/-- Up to two quotes may stand right before the closing three. -/
def readLiteralBlock? : List Char → Option Reading
  | [] => none
  | '\x27' :: '\x27' :: '\x27' :: '\x27' :: '\x27' :: cs => some (['\x27', '\x27'], cs)
  | '\x27' :: '\x27' :: '\x27' :: '\x27' :: cs => some (['\x27'], cs)
  | '\x27' :: '\x27' :: '\x27' :: cs => some ([], cs)
  | '\r' :: '\n' :: cs => (readLiteralBlock? cs).map (Reading.push '\n')
  | c :: cs =>
    if isPlain c ∨ c = '\n' then (readLiteralBlock? cs).map (Reading.push c) else none

/-- A backslash at the end of a line drops it with all blanks and line ends after it, which is
what `skipping` stands for. -/
def readBasicBlock? (skipping : Bool) : List Char → Option Reading
  | [] => none
  | '"' :: '"' :: '"' :: '"' :: '"' :: cs => some (['"', '"'], cs)
  | '"' :: '"' :: '"' :: '"' :: cs => some (['"'], cs)
  | '"' :: '"' :: '"' :: cs => some ([], cs)
  | '\r' :: '\n' :: cs =>
    if skipping then readBasicBlock? true cs
    else (readBasicBlock? false cs).map (Reading.push '\n')
  | '\\' :: 'u' :: a :: b :: c :: d :: cs =>
    (scalar? [a, b, c, d]).bind fun x => (readBasicBlock? false cs).map (Reading.push x)
  | '\\' :: 'U' :: a :: b :: c :: d :: e :: f :: g :: h :: cs =>
    (scalar? [a, b, c, d, e, f, g, h]).bind fun x =>
      (readBasicBlock? false cs).map (Reading.push x)
  | '\\' :: c :: cs =>
    if startsLineEnd ((c :: cs).dropWhile isBlank) then readBasicBlock? true (c :: cs)
    else (simpleEscape? c).bind fun x => (readBasicBlock? false cs).map (Reading.push x)
  | c :: cs =>
    if skipping ∧ (isBlank c ∨ c = '\n') then readBasicBlock? true cs
    else if (isPlain c ∨ c = '\n') ∧ c ≠ '\\' then
      (readBasicBlock? false cs).map (Reading.push c)
    else none

theorem eq_some_of_bind_push {o : Option Char} {r : Option Reading} {s rest : List Char}
    (h : (o.bind fun c => r.map (Reading.push c)) = some (s, rest)) :
    ∃ s', r = some (s', rest) := by
  obtain ⟨c, -, h⟩ := Option.bind_eq_some_iff.1 h
  exact eq_some_of_map_push h

theorem readLiteral?_length {cs s rest : List Char} (h : readLiteral? cs = some (s, rest)) :
    rest.length < cs.length := by
  fun_induction readLiteral? cs generalizing s with
  | case1 => simp at h
  | case2 => simp at h; simp [h.2]
  | case3 c cs _ _ ih =>
    obtain ⟨s', h⟩ := eq_some_of_map_push h
    exact Nat.lt_succ_of_lt (ih h)
  | case4 => simp at h

theorem readBasic?_length {cs s rest : List Char} (h : readBasic? cs = some (s, rest)) :
    rest.length < cs.length := by
  fun_induction readBasic? cs generalizing s with
  | case1 => simp at h
  | case2 => simp at h; simp [h.2]
  | case3 a b c d cs ih | case4 a b c d e f g i cs ih | case5 c cs _ _ ih =>
    obtain ⟨s', h⟩ := eq_some_of_bind_push h
    exact Nat.lt_trans (ih h) (by simp only [List.length_cons]; omega)
  | case6 c cs _ _ _ _ _ ih =>
    obtain ⟨s', h⟩ := eq_some_of_map_push h
    exact Nat.lt_succ_of_lt (ih h)
  | case7 => simp at h

theorem readLiteralBlock?_length {cs s rest : List Char}
    (h : readLiteralBlock? cs = some (s, rest)) : rest.length < cs.length := by
  fun_induction readLiteralBlock? cs generalizing s with
  | case1 => simp at h
  | case2 | case3 | case4 => simp at h; simp [h.2]; omega
  | case5 cs ih =>
    obtain ⟨s', h⟩ := eq_some_of_map_push h
    exact Nat.lt_trans (ih h) (by simp only [List.length_cons]; omega)
  | case6 c cs _ _ _ _ _ ih =>
    obtain ⟨s', h⟩ := eq_some_of_map_push h
    exact Nat.lt_succ_of_lt (ih h)
  | case7 => simp at h

theorem readBasicBlock?_length {skipping : Bool} {cs s rest : List Char}
    (h : readBasicBlock? skipping cs = some (s, rest)) : rest.length < cs.length := by
  fun_induction readBasicBlock? skipping cs generalizing s with
  | case1 => simp at h
  | case2 | case3 | case4 => simp at h; simp [h.2]; omega
  | case5 cs ih => exact Nat.lt_trans (ih h) (by simp only [List.length_cons]; omega)
  | case6 _ cs _ ih =>
    obtain ⟨s', h⟩ := eq_some_of_map_push h
    exact Nat.lt_trans (ih h) (by simp only [List.length_cons]; omega)
  | case7 _ a b c d cs ih | case8 _ a b c d e f g i cs ih | case10 _ c cs _ _ _ ih =>
    obtain ⟨s', h⟩ := eq_some_of_bind_push h
    exact Nat.lt_trans (ih h) (by simp only [List.length_cons]; omega)
  | case9 _ c cs _ _ _ ih => exact Nat.lt_succ_of_lt (ih h)
  | case11 _ c cs _ _ _ _ _ _ _ _ ih => exact Nat.lt_succ_of_lt (ih h)
  | case12 _ c cs _ _ _ _ _ _ _ _ _ ih =>
    obtain ⟨s', h⟩ := eq_some_of_map_push h
    exact Nat.lt_succ_of_lt (ih h)
  | case13 => simp at h

def punctuation? : Char → Option Token
  | '[' => some .openBracket
  | ']' => some .closeBracket
  | '\x7b' => some .openBrace
  | '\x7d' => some .closeBrace
  | ',' => some .comma
  | '.' => some .dot
  | '\n' => some .lineEnd
  | _ => none

def readQuoted? (quote : Char) (cs : List Char) : Option (Style × Reading) :=
  match quote, cs with
  | '"', '"' :: '"' :: cs => (readBasicBlock? false (dropLineEnd cs)).map (.block, ·)
  | '\x27', '\x27' :: '\x27' :: cs => (readLiteralBlock? (dropLineEnd cs)).map (.block, ·)
  | '"', cs => (readBasic? cs).map (.line, ·)
  | _, cs => (readLiteral? cs).map (.line, ·)

theorem length_dropLineEnd (cs : List Char) : (dropLineEnd cs).length ≤ cs.length := by
  fun_cases dropLineEnd cs <;> simp
  omega

theorem readQuoted?_length {quote : Char} {cs s rest : List Char} {t : Style}
    (h : readQuoted? quote cs = some (t, s, rest)) : rest.length < cs.length := by
  unfold readQuoted? at h
  split at h
  · obtain ⟨r, hr, he⟩ := Option.map_eq_some_iff.1 h
    cases he
    have := readBasicBlock?_length hr
    have := length_dropLineEnd ‹_›
    simp only [List.length_cons]
    omega
  · obtain ⟨r, hr, he⟩ := Option.map_eq_some_iff.1 h
    cases he
    have := readLiteralBlock?_length hr
    have := length_dropLineEnd ‹_›
    simp only [List.length_cons]
    omega
  · obtain ⟨r, hr, he⟩ := Option.map_eq_some_iff.1 h
    cases he
    exact readBasic?_length hr
  · obtain ⟨r, hr, he⟩ := Option.map_eq_some_iff.1 h
    cases he
    exact readLiteral?_length hr

def inField (c : Char) : Bool := c ≠ '#' && c ≠ '\r' && c ≠ '\n'

def trimBlanks (cs : List Char) : List Char :=
  ((cs.dropWhile isBlank).reverse.dropWhile isBlank).reverse

/-- Dates and times are looked for after an equals sign only, as elsewhere their characters may
belong to bare keys, and they take up the rest of the line. -/
def lex? (cs : List Char) : Option (List Token) :=
  match cs with
  | [] => some []
  | c :: cs =>
    if isBlank c then lex? cs
    else if c = '#' then lex? (cs.dropWhile isPlain)
    else if c = '\r' then if startsLineEnd (c :: cs) then lex? cs else none
    else if c = '"' ∨ c = '\x27' then
      match _h : readQuoted? c cs with
      | none => none
      | some (t, s, rest) => (lex? rest).map (.text t (String.ofList s) :: ·)
    else if c = '=' then
      match Moment.parse? (trimBlanks (cs.takeWhile inField)) with
      | some m => (lex? (cs.dropWhile inField)).map ([.equals, .moment m] ++ ·)
      | none => (lex? cs).map (.equals :: ·)
    else
      match punctuation? c with
      | some t => (lex? cs).map (t :: ·)
      | none =>
        if isBare c then
          (lex? (cs.dropWhile isBare)).map
            (.text .bare (String.ofList (c :: cs.takeWhile isBare)) :: ·)
        else none
termination_by cs.length
decreasing_by
  · simp
  · exact Nat.lt_succ_of_le (List.dropWhile_sublist _).length_le
  · simp
  · exact Nat.lt_succ_of_lt (readQuoted?_length ‹_›)
  · exact Nat.lt_succ_of_le (List.dropWhile_sublist _).length_le
  · simp
  · simp
  · exact Nat.lt_succ_of_le (List.dropWhile_sublist _).length_le

/-- The tokens of a document, which may start with a byte order mark. The end of the document ends
its last line. -/
def tokens? (src : String) : Option (List Token) :=
  let cs := match src.toList with
    | '\uFEFF' :: cs => cs
    | cs => cs
  (lex? cs).map (· ++ [.lineEnd])

end LetPoly.Toml
