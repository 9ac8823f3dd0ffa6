import LetPoly.Number.Numeral

set_option autoImplicit false

namespace LetPoly

/-- What is well formed and cannot be used is `unreadable`: a string with one half of a surrogate
pair, or an array or object that is nested too deep. A key with one half of a pair is `none`. -/
inductive Json where
  | null
  | bool (b : Bool)
  | number (n : Numeral)
  | string (s : String)
  | unreadable
  | array (items : List Json)
  | object (fields : List (Option String × Json))

namespace Json

def tagged (tag : String) (j : Json) : Json := .object [(some tag, j)]

def fields (fs : List (String × Json)) : Json := .object (fs.map fun (k, j) => (some k, j))

def nat (n : Nat) : Json := .number (.ofNat n)

inductive Token where
  | openArray
  | closeArray
  | openObject
  | closeObject
  | comma
  | colon
  | null
  | bool (b : Bool)
  | number (n : Numeral)
  | string (s : Option String)
  deriving DecidableEq

def escaped (c : Char) : List Char :=
  if c = '"' ∨ c = '\\' then ['\\', c]
  else if c = '\x08' then ['\\', 'b']
  else if c = '\x0c' then ['\\', 'f']
  else if c = '\n' then ['\\', 'n']
  else if c = '\r' then ['\\', 'r']
  else if c = '\t' then ['\\', 't']
  else if c < ' ' then
    ['\\', 'u', '0', '0', Text.hexDigit (c.toNat / 16), Text.hexDigit (c.toNat % 16)]
  else [c]

def Token.chars : Token → List Char
  | .openArray => ['[']
  | .closeArray => [']']
  | .openObject => ['\x7b']
  | .closeObject => ['\x7d']
  | .comma => [',']
  | .colon => [':']
  | .null => ['n', 'u', 'l', 'l']
  | .bool true => ['t', 'r', 'u', 'e']
  | .bool false => ['f', 'a', 'l', 's', 'e']
  | .number n => n.chars true
  | .string s => '"' :: (s.getD "").toList.flatMap escaped ++ ['"']

mutual
def tokens : Json → List Token
  | .null => [.null]
  | .bool b => [.bool b]
  | .number n => [.number n]
  | .string s => [.string (some s)]
  | .unreadable => [.string none]
  | .array [] => [.openArray, .closeArray]
  | .array (j :: js) => .openArray :: j.tokens ++ itemTokens js
  | .object [] => [.openObject, .closeObject]
  | .object ((k, j) :: fs) => .openObject :: .string k :: .colon :: j.tokens ++ fieldTokens fs

def itemTokens : List Json → List Token
  | [] => [.closeArray]
  | j :: js => .comma :: j.tokens ++ itemTokens js

def fieldTokens : List (Option String × Json) → List Token
  | [] => [.closeObject]
  | (k, j) :: fs => .comma :: .string k :: .colon :: j.tokens ++ fieldTokens fs
end

def compact (j : Json) : String := String.ofList (j.tokens.flatMap Token.chars)

end Json

end LetPoly
