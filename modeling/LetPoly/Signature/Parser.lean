import LetPoly.Scheme
import LetPoly.Signature.Token

/-!
Reading type signatures:

    scheme := quantifier variable+ "." type | type
    type   := application ("->" type)?
    application := atom+
    atom   := constructor | variable | "()" | "(->)" | "(" type ")"

Without a quantifier every variable is quantified. The parser goes through the tokens once, with
one level for each parenthesis that is open.
-/

set_option autoImplicit false

namespace LetPoly.Signature

/-- What has been read of a type: its parameters, the last first, and the application at hand. -/
structure Level where
  params : List Ty
  head : Option Ty
  deriving DecidableEq

namespace Level

def start : Level := ⟨[], none⟩

def push (l : Level) (t : Ty) : Level :=
  { l with head := some (match l.head with | none => t | some f => .app f t) }

def close (l : Level) (t : Ty) : Ty := l.params.foldl (fun r p => .fn p r) t

def expectation (l : Level) (outer : List Level) : Expectation :=
  if l.head = none then .type else if outer = [] then .finish else .closeParen

end Level

def readType (l : Level) (outer : List Level) : List (Token × Nat) → Except Error Ty
  | [] =>
    match l.head, outer with
    | some t, [] => .ok (l.close t)
    | _, _ => .error (.unexpectedEnd (l.expectation outer))
  | (.con c, _) :: ts => readType (l.push (.con c)) outer ts
  | (.var v, _) :: ts => readType (l.push (.var v)) outer ts
  | (.openParen, _) :: (.closeParen, _) :: ts => readType (l.push .unit) outer ts
  | (.openParen, _) :: (.arrow, _) :: (.closeParen, _) :: ts => readType (l.push .arrow) outer ts
  | (.openParen, _) :: ts => readType .start (l :: outer) ts
  | (.arrow, n) :: ts =>
    match l.head with
    | some t => readType ⟨t :: l.params, none⟩ outer ts
    | none => .error (.expected .type Token.arrow.text n)
  | (.closeParen, n) :: ts =>
    match l.head, outer with
    | some t, up :: outer => readType (up.push (l.close t)) outer ts
    | _, _ => .error (.expected (l.expectation outer) Token.closeParen.text n)
  | (.quantifier, n) :: _ => .error (.expected (l.expectation outer) Token.quantifier.text n)
  | (.dot, n) :: _ => .error (.expected (l.expectation outer) Token.dot.text n)

def readVars (vars : List String) :
    List (Token × Nat) → Except Error (List String × List (Token × Nat))
  | [] => .error (.unexpectedEnd .variableOrDot)
  | (.var v, _) :: ts => readVars (v :: vars) ts
  | (.dot, n) :: ts =>
    if vars = [] then .error (.expected .variable Token.dot.text n) else .ok (vars, ts)
  | (t, n) :: _ => .error (.expected .variableOrDot t.text n)

def bindVars (vars : List String) (t : Ty) : Except Error Scheme :=
  match t.freeVars.keys.find? (· ∉ vars) with
  | some v => .error (.unboundVariable v)
  | none => .ok (.poly vars t)

def readScheme : List (Token × Nat) → Except Error Scheme
  | (.quantifier, _) :: ts => do
    let (vars, ts) ← readVars [] ts
    bindVars vars (← readType .start [] ts)
  | ts => do return .closed (← readType .start [] ts)

def parseScheme (src : String) : Except Error Scheme := do readScheme (← tokens src)

def parseType (src : String) : Except Error Ty := do
  let σ ← parseScheme src
  match σ.vars.keys with
  | v :: _ => .error (.unboundVariable v)
  | [] => .ok σ.body

end LetPoly.Signature
