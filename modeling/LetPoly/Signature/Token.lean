import LetPoly.Text.Alphabetic
import LetPoly.Text.Blank
import LetPoly.Text.Numeric
import LetPoly.Text.Quoted
import LetPoly.Text.Uppercase

set_option autoImplicit false

namespace LetPoly.Signature

inductive Token where
  /-- The word `forall` or the sign `∀`. -/
  | quantifier
  | con (name : String)
  | var (name : String)
  | arrow
  | openParen
  | closeParen
  | dot
  deriving DecidableEq

def Token.text : Token → String
  | .quantifier => "`forall`"
  | .con c => "`" ++ c ++ "`"
  | .var v => "`'" ++ v ++ "`"
  | .arrow => "`->`"
  | .openParen => "`(`"
  | .closeParen => "`)`"
  | .dot => "`.`"

inductive Expectation where
  | type
  | closeParen
  | variable
  | variableOrDot
  | finish
  deriving DecidableEq

def Expectation.text : Expectation → String
  | .type => "a type"
  | .closeParen => "`)`"
  | .variable => "a type variable"
  | .variableOrDot => "a type variable or `.`"
  | .finish => "end of signature"

inductive Error where
  | unexpectedChar (c : Char) (offset : Nat)
  | expected (what : Expectation) (found : String) (offset : Nat)
  | unexpectedEnd (what : Expectation)
  | unboundVariable (name : String)
  deriving DecidableEq

def offsetText (n : Nat) : String := String.ofList (Text.decimalDigits n)

def Error.message : Error → String
  | .unexpectedChar c n =>
    "unexpected character " ++ Text.quoted '\x27' [c] ++ " at offset " ++ offsetText n
  | .expected w found n =>
    "expected " ++ w.text ++ " at offset " ++ offsetText n ++ ", found " ++ found
  | .unexpectedEnd w => "unexpected end of signature, expected " ++ w.text
  | .unboundVariable v => "type variable `'" ++ v ++ "` is not bound by the `forall`"

def isAlphanumeric (c : Char) : Bool := Text.isAlphabetic c || Text.isNumeric c

def isWordChar (c : Char) : Bool := isAlphanumeric c || c = '_' || c = '\x27'

inductive Lexeme where
  | word (cs : List Char)
  | mark (c : Char)
  deriving DecidableEq

def Lexeme.chars : Lexeme → List Char
  | .word cs => cs
  | .mark c => [c]

def lexemes : List Char → List Lexeme
  | [] => []
  | c :: cs =>
    if isWordChar c then
      match lexemes cs with
      | .word w :: ls => .word (c :: w) :: ls
      | ls => .word [c] :: ls
    else .mark c :: lexemes cs

theorem flatMap_lexemes (cs : List Char) : (lexemes cs).flatMap Lexeme.chars = cs := by
  fun_induction lexemes cs <;> simp_all [Lexeme.chars]

def byteLength : List Char → Nat
  | [] => 0
  | c :: cs => c.utf8Size + byteLength cs

/-- A word at offset `n`. Capitals start constructors, other letters variables; a variable may
carry a quote in front. -/
def wordToken (n : Nat) (w : List Char) : Except Error Token :=
  if w = ['f', 'o', 'r', 'a', 'l', 'l'] then .ok .quantifier
  else
    match w with
    | [] => .error (.unexpectedChar '\x27' n)
    | '\x27' :: [] => .error (.unexpectedChar '\x27' n)
    | '\x27' :: c :: cs =>
      if Text.isAlphabetic c then .ok (.var (String.ofList (c :: cs)))
      else .error (.unexpectedChar c (n + 1))
    | c :: cs =>
      if Text.isUppercase c then .ok (.con (String.ofList (c :: cs)))
      else if Text.isAlphabetic c then .ok (.var (String.ofList (c :: cs)))
      else .error (.unexpectedChar c n)

def markToken? : Char → Option Token
  | '(' => some .openParen
  | ')' => some .closeParen
  | '.' => some .dot
  | '∀' => some .quantifier
  | _ => none

def tokensFrom (n : Nat) : List Lexeme → Except Error (List (Token × Nat))
  | [] => .ok []
  | .mark '-' :: .mark '>' :: ls => do return (.arrow, n) :: (← tokensFrom (n + 2) ls)
  | .word w :: ls => do
    let t ← wordToken n w
    return (t, n) :: (← tokensFrom (n + byteLength w) ls)
  | .mark c :: ls =>
    if Text.isBlank c then tokensFrom (n + c.utf8Size) ls
    else
      match markToken? c with
      | some t => do return (t, n) :: (← tokensFrom (n + c.utf8Size) ls)
      | none => .error (.unexpectedChar c n)

def tokens (src : String) : Except Error (List (Token × Nat)) := tokensFrom 0 (lexemes src.toList)

end LetPoly.Signature
