import LetPoly.Expr.Basic

set_option autoImplicit false

namespace LetPoly

mutual
def Pattern.names : Pattern → List String
  | .var x => [x.name]
  | .wildcard | .lit _ => []
  | .named x p => x.name :: p.names
  | .con _ args => namesAll args

def Pattern.namesAll : List Pattern → List String
  | [] => []
  | p :: ps => p.names ++ namesAll ps
end

mutual
/-- The identifiers that an expression takes from its context. -/
def Expr.freeIdents : Expr → List String
  | .lit _ => []
  | .var x => [x.name]
  | .app f a => f.freeIdents ++ a.freeIdents
  | .abs p b => b.freeIdents.filter (· ∉ p.names)
  | .group e => e.freeIdents
  | .letIn bs b => bs.freeIdentsBefore b.freeIdents

def Bindings.freeIdentsBefore : Bindings → List String → List String
  | .nil, after => after
  | .cons _ x ps e rest, after =>
    e.freeIdents.filter (· ∉ Pattern.namesAll ps) ++
      (rest.freeIdentsBefore after).filter (· ≠ x.name)
end

mutual
def Expr.boundNames : Expr → List String
  | .lit _ | .var _ => []
  | .app f a => f.boundNames ++ a.boundNames
  | .abs p b => p.names ++ b.boundNames
  | .group e => e.boundNames
  | .letIn bs b => bs.boundNames ++ b.boundNames

def Bindings.boundNames : Bindings → List String
  | .nil => []
  | .cons _ x ps e rest => x.name :: (Pattern.namesAll ps ++ e.boundNames ++ rest.boundNames)
end

def Bindings.names : Bindings → List String
  | .nil => []
  | .cons _ x _ _ rest => x.name :: rest.names

mutual
/-- `r` in the place of each free occurrence of `x`. Nothing is renamed. -/
def Expr.replace (e : Expr) (x : String) (r : Expr) : Expr :=
  match e with
  | .lit l => .lit l
  | .var y => if y.name = x then r else .var y
  | .app f a => .app (f.replace x r) (a.replace x r)
  | .abs p b => .abs p (if x ∈ p.names then b else b.replace x r)
  | .group e => .group (e.replace x r)
  | .letIn bs b => .letIn (bs.replace x r) (if x ∈ bs.names then b else b.replace x r)

def Bindings.replace (bs : Bindings) (x : String) (r : Expr) : Bindings :=
  match bs with
  | .nil => .nil
  | .cons k y ps e rest =>
    .cons k y ps (if x ∈ Pattern.namesAll ps then e else e.replace x r)
      (if y.name = x then rest else rest.replace x r)
end

namespace Expr

variable {x y k : String} {r e b : Expr} {ps : List Pattern} {z : Ident} {rest : Bindings}

theorem mem_freeIdents_abs {p : Pattern} :
    y ∈ (abs p b).freeIdents ↔ y ∈ b.freeIdents ∧ y ∉ p.names := by
  simp [freeIdents]

theorem mem_freeIdents_lambdas :
    y ∈ (lambdas ps e).freeIdents ↔ y ∈ e.freeIdents ∧ y ∉ Pattern.namesAll ps := by
  induction ps with
  | nil => simp [lambdas, Pattern.namesAll]
  | cons p ps ih =>
    show y ∈ (abs p (lambdas ps e)).freeIdents ↔ _
    simp only [mem_freeIdents_abs, ih, Pattern.namesAll, List.mem_append, not_or]
    grind

theorem boundNames_lambdas : (lambdas ps e).boundNames = Pattern.namesAll ps ++ e.boundNames := by
  induction ps with
  | nil => simp [lambdas, Pattern.namesAll]
  | cons p ps ih =>
    show (abs p (lambdas ps e)).boundNames = _
    simp [boundNames, ih, Pattern.namesAll]

theorem replace_lambdas :
    (lambdas ps e).replace x r =
      lambdas ps (if x ∈ Pattern.namesAll ps then e else e.replace x r) := by
  induction ps with
  | nil => simp [lambdas, Pattern.namesAll]
  | cons p ps ih =>
    show (abs p (lambdas ps e)).replace x r = abs p (lambdas ps _)
    by_cases hp : x ∈ p.names <;> simp [replace, ih, hp, Pattern.namesAll]

theorem mem_freeIdents_letCons :
    y ∈ (letIn (.cons k z ps e rest) b).freeIdents ↔
      y ∈ (lambdas ps e).freeIdents ∨ y ∈ (letIn rest b).freeIdents ∧ y ≠ z.name := by
  simp [freeIdents, Bindings.freeIdentsBefore, mem_freeIdents_lambdas]

theorem mem_boundNames_letCons :
    y ∈ (letIn (.cons k z ps e rest) b).boundNames ↔
      y = z.name ∨ y ∈ (lambdas ps e).boundNames ∨ y ∈ (letIn rest b).boundNames := by
  simp [boundNames, Bindings.boundNames, boundNames_lambdas, or_assoc]

theorem replace_letNil : (letIn .nil b).replace x r = letIn .nil (b.replace x r) := by
  simp [replace, Bindings.replace, Bindings.names]

theorem replace_letCons :
    (letIn (.cons k z ps e rest) b).replace x r =
      letIn
        (.cons k z ps (if x ∈ Pattern.namesAll ps then e else e.replace x r)
          (if z.name = x then rest else rest.replace x r))
        (if z.name = x ∨ x ∈ rest.names then b else b.replace x r) := by
  simp [replace, Bindings.replace, Bindings.names, eq_comm]

end Expr

end LetPoly
