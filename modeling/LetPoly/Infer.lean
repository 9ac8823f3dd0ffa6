import LetPoly.Context
import LetPoly.Expr.Basic
import LetPoly.TypeError

/-!
Principal types. Each expression yields the substitution found so far and its type under it; a
`let` is sequential and not recursive, and each of its bindings is generalised before the next one
is looked at. The supply of names keeps what was drawn from it when checking fails.
-/

set_option autoImplicit false

namespace LetPoly

/-- Checking, with `m` below it to be told what is composed on the way. -/
abbrev CheckT (m : Type → Type) := ExceptT TypeError (StateT NameSupply m)

abbrev Check := CheckT Id

namespace Check

def fresh : Check String := ExceptT.lift NameSupply.fresh

def instantiate (σ : Scheme) : Check Ty := ExceptT.lift σ.instantiate

end Check

def Pattern.infer (p : Pattern) (Γ : Context) : Check (Ty × Context) :=
  match p with
  | .var x => do
    let t := Ty.var (← Check.fresh)
    return (t, Γ.insert x.name (.mono t))
  | p => throw (.unsupported (p.kind ++ " pattern `" ++ p.text ++ "`"))

def Pattern.inferAll : List Pattern → Context → Check (List Ty × Context)
  | [], Γ => return ([], Γ)
  | p :: ps, Γ => do
    let (t, Γ₁) ← p.infer Γ
    let (ts, Γ₂) ← inferAll ps Γ₁
    return (t :: ts, Γ₂)

section Noting

variable {m : Type → Type} [Monad m]

namespace CheckT

def lift {α : Type} (x : Check α) : CheckT m α := ExceptT.mk fun ν => pure (Id.run (x.run ν))

def function (params : List Pattern) (body : Context → CheckT m (Subst × Ty)) (Γ : Context) :
    CheckT m (Subst × Ty) := do
  let (ts, scope) ← lift (Pattern.inferAll params Γ)
  let (s, t) ← body scope
  return (s, (Ty.fns ts t).apply s)

variable (note : Subst → Subst → m Unit)

def unify (l r : Ty) : CheckT m Subst :=
  ExceptT.mk do return (← (unifyNoting note l r).run).mapError .unify

def compose (outer inner : Subst) : CheckT m Subst := do
  note outer inner
  return outer.compose inner

end CheckT

variable (note : Subst → Subst → m Unit)

mutual
def Expr.inferNoting : Expr → Context → CheckT m (Subst × Ty)
  | .group e, Γ => e.inferNoting Γ
  | .lit l, _ => return (∅, l.ty)
  | .var x, Γ =>
    match Γ.get? x.name with
    | none => throw (.unbound x.name)
    | some σ => do return (∅, ← CheckT.lift (Check.instantiate σ))
  | .app f a, Γ => do
    let result := Ty.var (← CheckT.lift Check.fresh)
    let (s₁, tf) ← f.inferNoting Γ
    let (s₂, ta) ← a.inferNoting (Γ.apply s₁)
    let s₃ ← CheckT.unify note (tf.apply s₂) (.fn ta result)
    let s ← CheckT.compose note s₃ (← CheckT.compose note s₂ s₁)
    return (s, result.apply s₃)
  | .abs p b, Γ => do
    let (tp, scope) ← CheckT.lift (p.infer Γ)
    let (s, tb) ← b.inferNoting scope
    return (s, (Ty.fn tp tb).apply s)
  | .letIn bs b, Γ => do
    let (s₁, scope) ← bs.inferNoting ∅ Γ
    let (s₂, t) ← b.inferNoting scope
    return (← CheckT.compose note s₂ s₁, t)

/-- Brings the bindings into scope one after the other; `s` is what was found before them. -/
def Bindings.inferNoting : Bindings → Subst → Context → CheckT m (Subst × Context)
  | .nil, s, Γ => return (s, Γ)
  | .cons _ x ps e rest, s, Γ => do
    let (s₁, t) ← CheckT.function ps (fun scope => e.inferNoting scope) Γ
    let scope := Γ.apply s₁
    let s ← CheckT.compose note s₁ s
    rest.inferNoting s (scope.insert x.name (scope.generalize t))
end

def Binding.inferNoting (b : Binding) (Γ : Context) : CheckT m (Subst × Ty) :=
  CheckT.function b.params (b.body.inferNoting note) Γ

end Noting

def Check.unify (l r : Ty) : Check Subst := CheckT.unify unnoted l r

def Check.function (params : List Pattern) (body : Context → Check (Subst × Ty)) (Γ : Context) :
    Check (Subst × Ty) := CheckT.function params body Γ

def Expr.infer (e : Expr) (Γ : Context) : Check (Subst × Ty) := e.inferNoting unnoted Γ

def Bindings.infer (bs : Bindings) (s : Subst) (Γ : Context) : Check (Subst × Context) :=
  bs.inferNoting unnoted s Γ

def Binding.infer (b : Binding) (Γ : Context) : Check (Subst × Ty) := b.inferNoting unnoted Γ

theorem Check.function_eq (params : List Pattern) (body : Context → Check (Subst × Ty))
    (Γ : Context) :
    Check.function params body Γ = (do
      let (ts, scope) ← Pattern.inferAll params Γ
      let (s, t) ← body scope
      return (s, (Ty.fns ts t).apply s)) := rfl

theorem Binding.infer_eq (b : Binding) (Γ : Context) :
    b.infer Γ = Check.function b.params b.body.infer Γ := rfl

namespace Expr

variable (Γ : Context)

theorem infer_group (e : Expr) : (group e).infer Γ = e.infer Γ := by
  rw [infer, inferNoting]
  rfl

theorem infer_lit (l : Literal) : (lit l).infer Γ = pure (∅, l.ty) := by
  rw [infer, inferNoting]

theorem infer_var (x : Ident) :
    (var x).infer Γ = match Γ.get? x.name with
      | none => throw (.unbound x.name)
      | some σ => do return (∅, ← Check.instantiate σ) := by
  rw [infer, inferNoting]
  rfl

theorem infer_app (f a : Expr) :
    (app f a).infer Γ = (do
      let result := Ty.var (← Check.fresh)
      let (s₁, tf) ← f.infer Γ
      let (s₂, ta) ← a.infer (Γ.apply s₁)
      let s₃ ← Check.unify (tf.apply s₂) (.fn ta result)
      return (s₃.compose (s₂.compose s₁), result.apply s₃)) := by
  rw [infer, inferNoting]
  rfl

theorem infer_abs (p : Pattern) (b : Expr) :
    (abs p b).infer Γ = (do
      let (tp, scope) ← p.infer Γ
      let (s, tb) ← b.infer scope
      return (s, (Ty.fn tp tb).apply s)) := by
  rw [infer, inferNoting]
  rfl

theorem infer_let (bs : Bindings) (b : Expr) :
    (letIn bs b).infer Γ = (do
      let (s₁, scope) ← bs.infer ∅ Γ
      let (s₂, t) ← b.infer scope
      return (s₂.compose s₁, t)) := by
  rw [infer, inferNoting]
  rfl

end Expr

namespace Bindings

variable (s : Subst) (Γ : Context)

theorem infer_nil : nil.infer s Γ = pure (s, Γ) := by
  rw [infer, inferNoting]

theorem infer_cons (k : String) (x : Ident) (ps : List Pattern) (e : Expr) (rest : Bindings) :
    (cons k x ps e rest).infer s Γ = (do
      let (s₁, t) ← Check.function ps (fun scope => e.infer scope) Γ
      let scope := Γ.apply s₁
      rest.infer (s₁.compose s) (scope.insert x.name (scope.generalize t))) := by
  rw [infer, inferNoting]
  rfl

end Bindings

/-- A supply that draws no free variable of `Γ`. -/
def Context.supply (Γ : Context) : NameSupply := .avoiding Γ.freeVars

/-- The substitution and the principal type of `e` in `Γ`. -/
def inferWithSubst (e : Expr) (Γ : Context) : Except TypeError (Subst × Ty) :=
  ((e.infer Γ).run Γ.supply).1

def inferType (e : Expr) (Γ : Context) : Except TypeError Ty :=
  (inferWithSubst e Γ).map Prod.snd

end LetPoly
