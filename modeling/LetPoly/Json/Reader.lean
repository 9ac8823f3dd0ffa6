import LetPoly.Json.Basic

set_option autoImplicit false

namespace LetPoly

namespace Numeral

def isWhole : List Char → Bool
  | [] => false
  | ['0'] => true
  | c :: _ => c != '0'

def readExponent? (cs : List Char) : Option Int :=
  let (negative, ds) : Bool × List Char := match cs with
    | '-' :: ds => (true, ds)
    | '+' :: ds => (false, ds)
    | ds => (false, ds)
  if ds = [] ∨ !ds.all Char.isDigit then none
  else some (if negative then -Text.decimalValue ds else Text.decimalValue ds)

def readTail? (negative : Bool) (whole fraction : List Char) : List Char → Option Numeral
  | [] => some ⟨negative, whole, fraction, none⟩
  | c :: cs =>
    if c = 'e' ∨ c = 'E' then (readExponent? cs).map fun e => ⟨negative, whole, fraction, some e⟩
    else none

def readUnsigned? (negative : Bool) (cs : List Char) : Option Numeral :=
  let whole := cs.takeWhile Char.isDigit
  if isWhole whole then
    match cs.dropWhile Char.isDigit with
    | '.' :: cs =>
      let fraction := cs.takeWhile Char.isDigit
      if fraction = [] then none else readTail? negative whole fraction (cs.dropWhile Char.isDigit)
    | cs => readTail? negative whole [] cs
  else none

def read? : List Char → Option Numeral
  | '-' :: cs => readUnsigned? true cs
  | cs => readUnsigned? false cs

end Numeral

namespace Json

open Text (hexValue?)

inductive Piece where
  | char (c : Char)
  | half (n : Nat)

def isHigh (n : Nat) : Bool := 0xD800 ≤ n && n < 0xDC00
def isLow (n : Nat) : Bool := 0xDC00 ≤ n && n < 0xE000

def unicodePiece? (a b c d : Char) : Option Piece := do
  let n := 4096 * (← hexValue? a) + 256 * (← hexValue? b) + 16 * (← hexValue? c) + (← hexValue? d)
  return if isHigh n || isLow n then .half n else .char (Char.ofNat n)

def simpleEscape? : Char → Option Char
  | '"' => some '"'
  | '\\' => some '\\'
  | '/' => some '/'
  | 'b' => some '\x08'
  | 'f' => some '\x0c'
  | 'n' => some '\n'
  | 'r' => some '\r'
  | 't' => some '\t'
  | _ => none

def pushPiece (p : Piece) (r : List Piece × List Char) : List Piece × List Char := (p :: r.1, r.2)

def readPieces? : List Char → Option (List Piece × List Char)
  | [] => none
  | '"' :: cs => some ([], cs)
  | '\\' :: 'u' :: a :: b :: c :: d :: cs =>
    (unicodePiece? a b c d).bind fun p => (readPieces? cs).map (pushPiece p)
  | '\\' :: e :: cs => (simpleEscape? e).bind fun c => (readPieces? cs).map (pushPiece (.char c))
  | c :: cs => if c < ' ' ∨ c = '\\' then none else (readPieces? cs).map (pushPiece (.char c))

/-- Each high half must be followed by a low one. -/
def joinHalves? : List Piece → Option (List Char)
  | [] => some []
  | .char c :: ps => (joinHalves? ps).map (c :: ·)
  | .half h :: .half l :: ps =>
    if isHigh h && isLow l then
      (joinHalves? ps).map (Char.ofNat (0x10000 + (h - 0xD800) * 1024 + (l - 0xDC00)) :: ·)
    else none
  | .half _ :: _ => none

theorem eq_some_of_map_pushPiece {p : Piece} {r : Option (List Piece × List Char)}
    {ps : List Piece} {rest : List Char} (h : r.map (pushPiece p) = some (ps, rest)) :
    ∃ qs, r = some (qs, rest) := by
  cases r with
  | none => simp at h
  | some r =>
    simp only [Option.map_some, Option.some.injEq, pushPiece, Prod.mk.injEq] at h
    exact ⟨r.1, by rw [← h.2]⟩

theorem readPieces?_length {cs rest : List Char} {ps : List Piece}
    (h : readPieces? cs = some (ps, rest)) : rest.length < cs.length := by
  fun_induction readPieces? cs generalizing ps with
  | case1 => simp at h
  | case2 cs => simp at h; simp [h.2]
  | case3 a b c d cs ih =>
    obtain ⟨p, -, h⟩ := Option.bind_eq_some_iff.1 h
    obtain ⟨qs, h⟩ := eq_some_of_map_pushPiece h
    exact Nat.lt_trans (ih h) (by simp only [List.length_cons]; omega)
  | case4 e cs _ ih =>
    obtain ⟨p, -, h⟩ := Option.bind_eq_some_iff.1 h
    obtain ⟨qs, h⟩ := eq_some_of_map_pushPiece h
    exact Nat.lt_trans (ih h) (by simp only [List.length_cons]; omega)
  | case5 => simp at h
  | case6 c cs _ _ _ _ ih =>
    obtain ⟨qs, h⟩ := eq_some_of_map_pushPiece h
    exact Nat.lt_trans (ih h) (Nat.lt_succ_self _)

def isSpace (c : Char) : Bool := c = ' ' || c = '\n' || c = '\t' || c = '\r'

def punctuation? : Char → Option Token
  | '[' => some .openArray
  | ']' => some .closeArray
  | '\x7b' => some .openObject
  | '\x7d' => some .closeObject
  | ',' => some .comma
  | ':' => some .colon
  | _ => none

def isWordChar (c : Char) : Bool := c.isAlphanum || c = '.' || c = '+' || c = '-'

def word? (cs : List Char) : Option Token :=
  if cs = ['n', 'u', 'l', 'l'] then some .null
  else if cs = ['t', 'r', 'u', 'e'] then some (.bool true)
  else if cs = ['f', 'a', 'l', 's', 'e'] then some (.bool false)
  else (Numeral.read? cs).map .number

def lex? (cs : List Char) : Option (List Token) :=
  match cs with
  | [] => some []
  | c :: cs =>
    if isSpace c then lex? cs
    else if c = '"' then
      match _h : readPieces? cs with
      | none => none
      | some (ps, rest) => (lex? rest).map (.string ((joinHalves? ps).map String.ofList) :: ·)
    else
      match punctuation? c with
      | some t => (lex? cs).map (t :: ·)
      | none =>
        match word? (c :: cs.takeWhile isWordChar) with
        | none => none
        | some t => (lex? (cs.dropWhile isWordChar)).map (t :: ·)
termination_by cs.length
decreasing_by
  · simp
  · exact Nat.lt_succ_of_lt (readPieces?_length ‹_›)
  · simp
  · exact Nat.lt_succ_of_le (List.dropWhile_sublist _).length_le

/-- An array or object that is still open, with what it holds so far, the last first. -/
inductive Frame where
  | array (items : List Json)
  | object (fields : List (Option String × Json)) (key : Option String)

mutual
def readValue? (stack : List Frame) : List Token → Option Json
  | .null :: ts => resume? .null stack ts
  | .bool b :: ts => resume? (.bool b) stack ts
  | .number n :: ts => resume? (.number n) stack ts
  | .string (some s) :: ts => resume? (.string s) stack ts
  | .string none :: ts => resume? .unreadable stack ts
  | .openArray :: .closeArray :: ts => resume? (.array []) stack ts
  | .openArray :: ts => readValue? (.array [] :: stack) ts
  | .openObject :: .closeObject :: ts => resume? (.object []) stack ts
  | .openObject :: .string k :: .colon :: ts => readValue? (.object [] k :: stack) ts
  | _ => none

/-- The value `j` has just been read. -/
def resume? (j : Json) : List Frame → List Token → Option Json
  | [], [] => some j
  | .array js :: stack, .comma :: ts => readValue? (.array (j :: js) :: stack) ts
  | .array js :: stack, .closeArray :: ts => resume? (.array (j :: js).reverse) stack ts
  | .object fs k :: stack, .comma :: .string k' :: .colon :: ts =>
    readValue? (.object ((k, j) :: fs) k' :: stack) ts
  | .object fs k :: stack, .closeObject :: ts => resume? (.object ((k, j) :: fs).reverse) stack ts
  | _, _ => none
end

mutual
/-- What lies below `n` levels of arrays and objects is lost. -/
def cut (n : Nat) : Json → Json
  | .array js => match n with
    | 0 => .unreadable
    | n + 1 => .array (cutItems n js)
  | .object fs => match n with
    | 0 => .unreadable
    | n + 1 => .object (cutFields n fs)
  | j => j

def cutItems (n : Nat) : List Json → List Json
  | [] => []
  | j :: js => j.cut n :: cutItems n js

def cutFields (n : Nat) : List (Option String × Json) → List (Option String × Json)
  | [] => []
  | (k, j) :: fs => (k, j.cut n) :: cutFields n fs
end

/-- Levels that are read. What lies deeper need only be well formed, and can only be passed by. -/
def maxDepth : Nat := 127

def read? (s : String) : Option Json := do
  let j ← readValue? [] (← lex? s.toList)
  return j.cut maxDepth

end Json

end LetPoly
