import LetPoly.OrderedMap
import LetPoly.Toml.Token

/-!
TOML documents that hold nothing but one table of strings. The table may be opened by a header,
given as an inline table or a date, or built by dotted keys, and only in one of these ways.
-/

set_option autoImplicit false

namespace LetPoly.Toml

inductive Origin where
  | absent
  | header
  | inline
  | dotted
  deriving DecidableEq

def putNew? (m : OrderedMap String) (kStyle : Style) (k : String) (vStyle : Style) (v : String) :
    Option (OrderedMap String) :=
  if kStyle.isKey && vStyle.isValue && !m.contains k then some (m.put k v) else none

/-- A date or time is a table with one string, its text, at this key. -/
def momentKey : String := "$__toml_private_datetime"

mutual
/-- Reads the statements of a document whose only table is `name`; each ends with its line. -/
def readStatements? (name : String) (origin : Origin) (m : OrderedMap String) :
    List Token → Option (OrderedMap String)
  | [] => some m
  | .lineEnd :: ts => readStatements? name origin m ts
  | .openBracket :: .text s t :: .closeBracket :: .lineEnd :: ts =>
    if s.isKey ∧ t = name ∧ origin = .absent then readStatements? name .header m ts else none
  | .text ks k :: .equals :: .text vs v :: .lineEnd :: ts =>
    if origin = .header then
      (putNew? m ks k vs v).bind fun m => readStatements? name .header m ts
    else none
  | .text s t :: .dot :: .text ks k :: .equals :: .text vs v :: .lineEnd :: ts =>
    if s.isKey ∧ t = name ∧ (origin = .absent ∨ origin = .dotted) then
      (putNew? m ks k vs v).bind fun m => readStatements? name .dotted m ts
    else none
  | .text s t :: .equals :: .moment d :: .lineEnd :: ts =>
    if s.isKey ∧ t = name ∧ origin = .absent then
      readStatements? name .inline (m.put momentKey d.text) ts
    else none
  | .text s t :: .equals :: .openBrace :: .closeBrace :: .lineEnd :: ts =>
    if s.isKey ∧ t = name ∧ origin = .absent then readStatements? name .inline m ts else none
  | .text s t :: .equals :: .openBrace :: ts =>
    if s.isKey ∧ t = name ∧ origin = .absent then readInline? name m ts else none
  | _ => none

def readInline? (name : String) (m : OrderedMap String) :
    List Token → Option (OrderedMap String)
  | .text ks k :: .equals :: .text vs v :: .comma :: ts =>
    (putNew? m ks k vs v).bind fun m => readInline? name m ts
  | .text ks k :: .equals :: .text vs v :: .closeBrace :: .lineEnd :: ts =>
    (putNew? m ks k vs v).bind fun m => readStatements? name .inline m ts
  | _ => none
end

def stringTable? (name src : String) : Option (OrderedMap String) := do
  readStatements? name .absent ∅ (← tokens? src)

end LetPoly.Toml
