import LetPoly.Pattern

/-!
Expressions. The bindings of a `let` are keyed and stand in the order in which their keys were first
put; what a binding binds is its name, which may differ from its key.
-/

set_option autoImplicit false

namespace LetPoly

mutual
inductive Expr where
  | lit (l : Literal)
  | var (x : Ident)
  | app (fn arg : Expr)
  | abs (param : Pattern) (body : Expr)
  | group (e : Expr)
  | letIn (bindings : Bindings) (body : Expr)

inductive Bindings where
  | nil
  | cons (key : String) (name : Ident) (params : List Pattern) (body : Expr) (rest : Bindings)
end

instance : Inhabited Expr := ⟨.lit .unit⟩
instance : Inhabited Bindings := ⟨.nil⟩

structure Binding where
  name : Ident
  params : List Pattern
  body : Expr
  deriving Inhabited

namespace Bindings

def toList : Bindings → List (String × Binding)
  | .nil => []
  | .cons k x ps e rest => (k, ⟨x, ps, e⟩) :: rest.toList

def size : Bindings → Nat
  | .nil => 0
  | .cons _ _ _ _ rest => rest.size + 1

def get? (key : String) : Bindings → Option Binding
  | .nil => none
  | .cons k x ps e rest => if k = key then some ⟨x, ps, e⟩ else rest.get? key

/-- A key that is there keeps its place and gets the new binding. -/
def put (key : String) (b : Binding) : Bindings → Bindings
  | .nil => .cons key b.name b.params b.body .nil
  | .cons k x ps e rest =>
    if k = key then .cons k b.name b.params b.body rest else .cons k x ps e (rest.put key b)

def ofList (bs : List (String × Binding)) : Bindings :=
  bs.foldl (fun acc b => acc.put b.1 b.2) .nil

end Bindings

namespace Expr

def applyTo (f : Expr) (args : List Expr) : Expr := args.foldl .app f

def lambda (x : Ident) (body : Expr) : Expr := .abs (.var x) body

def lambdas (params : List Pattern) (body : Expr) : Expr := params.foldr .abs body

def letBindings (bs : List Binding) (body : Expr) : Expr :=
  .letIn (.ofList (bs.map fun b => (b.name.name, b))) body

def ungroup : Expr → Expr
  | .group e => e.ungroup
  | e => e

open Text (parens)

/-- Stands without parentheses as an argument. Every literal with a minus sign needs them, and so
does a NaN whose sign bit is set. -/
def isAtomic : Expr → Bool
  | .lit (.int n) => 0 ≤ n
  | .lit (.float x) => !x.negative
  | .lit _ | .var _ | .group _ => true
  | .app _ _ | .abs _ _ | .letIn _ _ => false

def isOpen : Expr → Bool
  | .abs _ _ | .letIn _ _ => true
  | _ => false

def bindingHead (x : Ident) (ps : List Pattern) : String := x.name ++ Pattern.argsText ps ++ " = "

mutual
def text : Expr → String
  | .lit l => l.text
  | .var x => x.name
  | .app f a => parens f.isOpen f.text ++ " " ++ parens (!a.isAtomic) a.text
  | .abs p b => "\\" ++ parens (!p.isAtomic) p.text ++ " -> " ++ b.text
  | .group e => "(" ++ e.text ++ ")"
  | .letIn bs b => "let " ++ bindingsText bs ++ " in " ++ b.text

def bindingsText : Bindings → String
  | .nil => ""
  | .cons _ x ps e .nil => bindingHead x ps ++ e.text
  | .cons _ x ps e rest => bindingHead x ps ++ e.text ++ "; " ++ bindingsText rest
end

end Expr

def Binding.text (b : Binding) : String := Expr.bindingHead b.name b.params ++ b.body.text

namespace Expr

mutual
/-- Equality that looks at names, not at places, and at floats by value. -/
def same : Expr → Expr → Bool
  | .lit l, .lit m => l.same m
  | .var x, .var y => x.same y
  | .app f a, .app g b => f.same g && a.same b
  | .abs p e, .abs q f => p.same q && e.same f
  | .group e, .group f => e.same f
  | .letIn bs e, .letIn cs f => bs.size = cs.size && sameWithin bs cs && e.same f
  | _, _ => false

/-- Every key on the left has the same binding on the right, wherever it stands. -/
def sameWithin : Bindings → Bindings → Bool
  | .nil, _ => true
  | .cons k x ps e rest, cs =>
    (match cs.get? k with
      | some c => x.same c.name && Pattern.sameAll ps c.params && e.same c.body
      | none => false) && sameWithin rest cs
end

end Expr

def Binding.same (b c : Binding) : Bool :=
  b.name.same c.name && Pattern.sameAll b.params c.params && b.body.same c.body

end LetPoly
