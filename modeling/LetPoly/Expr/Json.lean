import LetPoly.Expr.Basic
import LetPoly.Json.Reader

/-!
Syntax trees as JSON. A node is an object with one field named for its kind; identifiers, spans and
bindings are objects with fixed fields. Reading also takes these three as arrays of their fields,
takes fields in any order, and passes unknown fields by.
-/

set_option autoImplicit false

namespace LetPoly

/-- The value of the field `k`: an error if it stands twice. -/
def Json.field? (fs : List (Option String × Json)) (k : String) : Option (Option Json) :=
  match fs.filter (·.1 = some k) with
  | [] => some none
  | [(_, j)] => some (some j)
  | _ => none

def Json.keysReadable (fs : List (Option String × Json)) : Bool := fs.all (·.1.isSome)

def Json.toUInt32? : Json → Option UInt32
  | .number n => do
    let v ← n.toInt?
    if 0 ≤ v ∧ v.toNat < UInt32.size then some (UInt32.ofNat v.toNat) else none
  | _ => none

def Json.toText? : Json → Option String
  | .string s => some s
  | _ => none

namespace Span

def toJson (s : Span) : Json :=
  .fields [("start", .nat s.start.toNat), ("end", .nat s.stop.toNat)]

def ofJson? : Json → Option Span
  | .array [start, stop] => do return ⟨← start.toUInt32?, ← stop.toUInt32?⟩
  | .object fs =>
    if Json.keysReadable fs then do
      let start ← (← Json.field? fs "start")
      let stop ← (← Json.field? fs "end")
      return ⟨← start.toUInt32?, ← stop.toUInt32?⟩
    else none
  | _ => none

/-- No span may be written as `null`. -/
def optionOfJson? : Json → Option (Option Span)
  | .null => some none
  | j => (ofJson? j).map some

end Span

namespace Ident

def toJson (x : Ident) : Json :=
  .fields (("name", .string x.name) :: match x.span with
    | none => []
    | some s => [("span", s.toJson)])

def ofJson? : Json → Option Ident
  | .array [name] => do return ⟨← name.toText?, none⟩
  | .array [name, span] => do return ⟨← name.toText?, ← Span.optionOfJson? span⟩
  | .object fs =>
    if Json.keysReadable fs then do
      let name ← (← Json.field? fs "name")
      let span ← Json.field? fs "span"
      return ⟨← name.toText?, ← Span.optionOfJson? (span.getD .null)⟩
    else none
  | _ => none

end Ident

namespace Literal

/-- From 0.00001 up to below 10^16 with a point only; of two equally near decimals the even one. -/
def jsonFormat : FloatFormat := ⟨-5, 15, .even⟩

def floatJson (x : Binary64) : Json :=
  if x.isFinite then .number (jsonFormat.shortest x) else .null

def toJson : Literal → Json
  | .int n => .tagged "Int" (.number (.ofInt n.toInt))
  | .float x => .tagged "Float" (floatJson x)
  | .string s => .tagged "String" (.string s)
  | .unit => .string "Unit"

def ofJson? : Json → Option Literal
  | .object [(some "Int", .number n)] => do
    let v ← n.toInt?
    if Int64.minValue.toInt ≤ v ∧ v ≤ Int64.maxValue.toInt then some (.int (Int64.ofInt v))
    else none
  | .object [(some "Float", .number n)] => n.toBinary64?.map .float
  | .object [(some "String", .string s)] => some (.string s)
  | .object [(some "Unit", .null)] => some .unit
  | .string "Unit" => some .unit
  | _ => none

end Literal

namespace Pattern

mutual
def toJson : Pattern → Json
  | .var x => .tagged "Var" x.toJson
  | .wildcard => .string "Wildcard"
  | .lit l => .tagged "Lit" l.toJson
  | .named x p => .tagged "As" (.array [x.toJson, p.toJson])
  | .con c args => .tagged "Con" (.array [c.toJson, .array (toJsonAll args)])

def toJsonAll : List Pattern → List Json
  | [] => []
  | p :: ps => p.toJson :: toJsonAll ps
end

mutual
def ofJson? : Json → Option Pattern
  | .object [(some "Var", x)] => (Ident.ofJson? x).map .var
  | .object [(some "Wildcard", .null)] => some .wildcard
  | .string "Wildcard" => some .wildcard
  | .object [(some "Lit", l)] => (Literal.ofJson? l).map .lit
  | .object [(some "As", .array [x, p])] => do return .named (← Ident.ofJson? x) (← ofJson? p)
  | .object [(some "Con", .array [c, .array args])] => do
    return .con (← Ident.ofJson? c) (← ofJsonAll? args)
  | _ => none

def ofJsonAll? : List Json → Option (List Pattern)
  | [] => some []
  | j :: js => do return (← ofJson? j) :: (← ofJsonAll? js)
end

/-- A parameter list may be left out, not written as something else. -/
def paramsOfJson? : Option Json → Option (List Pattern)
  | none => some []
  | some (.array ps) => ofJsonAll? ps
  | some _ => none

end Pattern

def Binding.fieldsJson (x : Ident) (ps : List Pattern) (body : Json) : Json :=
  .fields [("name", x.toJson), ("params", .array (Pattern.toJsonAll ps)), ("body", body)]

namespace Expr

mutual
def toJson : Expr → Json
  | .lit l => .tagged "Lit" l.toJson
  | .var x => .tagged "Var" x.toJson
  | .app f a => .tagged "App" (.array [f.toJson, a.toJson])
  | .abs p b => .tagged "Abs" (.array [p.toJson, b.toJson])
  | .group e => .tagged "Group" e.toJson
  | .letIn bs b => .tagged "Let" (.array [.object (bindingsJson bs), b.toJson])

def bindingsJson : Bindings → List (Option String × Json)
  | .nil => []
  | .cons k x ps e rest => (some k, Binding.fieldsJson x ps e.toJson) :: bindingsJson rest
end

structure PartialBinding where
  name : Option Ident := none
  params : Option (List Pattern) := none
  body : Option Expr := none

def PartialBinding.finish? (b : PartialBinding) : Option Binding := do
  return ⟨← b.name, b.params.getD [], ← b.body⟩

mutual
def ofJson? : Json → Option Expr
  | .object [(some "Lit", l)] => (Literal.ofJson? l).map .lit
  | .object [(some "Var", x)] => (Ident.ofJson? x).map .var
  | .object [(some "App", .array [f, a])] => do return .app (← ofJson? f) (← ofJson? a)
  | .object [(some "Abs", .array [p, b])] => do return .abs (← Pattern.ofJson? p) (← ofJson? b)
  | .object [(some "Group", e)] => (ofJson? e).map .group
  | .object [(some "Let", .array [.object bs, b])] => do
    return .letIn (← bindingsOfJson? .nil bs) (← ofJson? b)
  | _ => none

/-- A later field of the same key replaces the binding. -/
def bindingsOfJson? (acc : Bindings) : List (Option String × Json) → Option Bindings
  | [] => some acc
  | (k, j) :: fs => do
    let k ← k
    let b ← bindingOfJson? j
    bindingsOfJson? (acc.put k b) fs

def bindingOfJson? : Json → Option Binding
  | .array [x, ps, b] => do
    return ⟨← Ident.ofJson? x, ← Pattern.paramsOfJson? (some ps), ← ofJson? b⟩
  | .object fs => do (← bindingFields? {} fs).finish?
  | _ => none

/-- A field that is met again is an error. -/
def bindingFields? (acc : PartialBinding) : List (Option String × Json) → Option PartialBinding
  | [] => some acc
  | (some "name", j) :: fs => do
    if acc.name.isSome then none
    else bindingFields? { acc with name := some (← Ident.ofJson? j) } fs
  | (some "params", j) :: fs => do
    if acc.params.isSome then none
    else bindingFields? { acc with params := some (← Pattern.paramsOfJson? (some j)) } fs
  | (some "body", j) :: fs => do
    let body ← ofJson? j
    if acc.body.isSome then none else bindingFields? { acc with body := some body } fs
  | (some _, _) :: fs => bindingFields? acc fs
  | (none, _) :: _ => none
end

end Expr

namespace Binding

def toJson (b : Binding) : Json := fieldsJson b.name b.params b.body.toJson

def ofJson? (j : Json) : Option Binding := Expr.bindingOfJson? j

end Binding

def Span.jsonText (s : Span) : String := s.toJson.compact
def Span.ofJsonText? (src : String) : Option Span := (Json.read? src).bind Span.ofJson?

def Ident.jsonText (x : Ident) : String := x.toJson.compact
def Ident.ofJsonText? (src : String) : Option Ident := (Json.read? src).bind Ident.ofJson?

def Literal.jsonText (l : Literal) : String := l.toJson.compact
def Literal.ofJsonText? (src : String) : Option Literal := (Json.read? src).bind Literal.ofJson?

def Pattern.jsonText (p : Pattern) : String := p.toJson.compact
def Pattern.ofJsonText? (src : String) : Option Pattern := (Json.read? src).bind Pattern.ofJson?

def Expr.jsonText (e : Expr) : String := e.toJson.compact
def Expr.ofJsonText? (src : String) : Option Expr := (Json.read? src).bind Expr.ofJson?

def Binding.jsonText (b : Binding) : String := b.toJson.compact
def Binding.ofJsonText? (src : String) : Option Binding := (Json.read? src).bind Binding.ofJson?

end LetPoly
