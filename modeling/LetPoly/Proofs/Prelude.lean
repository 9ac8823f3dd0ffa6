import LetPoly.Prelude
import LetPoly.Proofs.Closed
import LetPoly.Proofs.Signature.RoundTrip

set_option autoImplicit false

namespace LetPoly.Prelude

open Signature

/-- What a name stands for after a prelude, from its signature there and from what it stood for
before. -/
def Assigns (sig : Option String) (old new : Option Scheme) : Prop :=
  match sig with
  | none => new = old
  | some sig => ∃ σ, parseScheme sig = .ok σ ∧ new = some σ

variable {Γ Δ : Context} {p : Prelude}

theorem extendWith_eq_ok {es : List (String × String)} (hd : (es.map Prod.fst).Nodup) :
    extendWith Γ es = .ok Δ ↔ ∀ x, Assigns (es.lookup x) (Γ.get? x) (Δ.get? x) := by
  induction es generalizing Γ with
  | nil =>
    constructor
    · intro h x
      cases h
      rfl
    · intro h
      have he : Γ = Δ := NameMap.ext_get? fun x => (h x).symm
      rw [extendWith, he]
  | cons e es ih =>
    obtain ⟨y, sig⟩ := e
    obtain ⟨hy, hd⟩ := List.nodup_cons.1 hd
    have hlast : es.lookup y = none := NameMap.lookup_eq_none_of_not_mem hy
    rw [extendWith]
    cases hsig : parseScheme sig with
    | error err =>
      constructor
      · intro h
        cases h
      · intro h
        have hy := h y
        simp [Assigns, hsig] at hy
    | ok σ =>
      rw [ih hd]
      refine forall_congr' fun x => ?_
      rw [NameMap.lookup_cons, NameMap.get?_insert]
      by_cases hx : x = y
      · rw [hx, hlast]
        simp [Assigns, hsig]
      · simp [hx]

theorem extend_eq_ok :
    p.extend Γ = .ok Δ ↔ ∀ x, Assigns (p.values.get? x) (Γ.get? x) (Δ.get? x) :=
  extendWith_eq_ok p.values.distinct

theorem exists_parseScheme_of_toContext (hp : p.toContext = .ok Γ) {x : String} {σ : Scheme}
    (hσ : Γ.get? x = some σ) : ∃ sig, parseScheme sig = .ok σ := by
  have hx := extend_eq_ok.1 hp x
  rw [hσ] at hx
  cases hsig : p.values.get? x with
  | none =>
    rw [hsig] at hx
    cases hx
  | some sig =>
    rw [hsig] at hx
    obtain ⟨τ, hτ, he⟩ := hx
    cases he
    exact ⟨sig, hτ⟩

theorem freeVars_of_parseScheme {sig : String} {σ : Scheme} (h : parseScheme sig = .ok σ) :
    σ.freeVars = ∅ := by
  obtain ⟨us, -, hd⟩ := parseScheme_eq_ok.1 h
  exact hd.freeVars_eq

theorem toContext_closed (hp : p.toContext = .ok Γ) : Γ.Closed := by
  intro e he
  obtain ⟨sig, hsig⟩ := exists_parseScheme_of_toContext hp (NameMap.mem_entries.1 he)
  exact freeVars_of_parseScheme hsig

theorem toContext_put (hp : p.toContext = .ok Γ) (x : String) {sig : String} {σ : Scheme}
    (hsig : parseScheme sig = .ok σ) :
    (Prelude.mk (p.values.put x sig)).toContext = .ok (Γ.insert x σ) := by
  refine extend_eq_ok.2 fun y => ?_
  rw [OrderedMap.get?_put, NameMap.get?_insert]
  by_cases hy : y = x
  · simp [hy, Assigns, hsig]
  · simpa [hy] using extend_eq_ok.1 hp y

/-- The error names the first value whose signature cannot be read, with what is wrong with it. -/
def FirstRejected (es : List (String × String)) (err : PreludeError) : Prop :=
  ∃ before sig after, es = before ++ (err.name, sig) :: after ∧
    (∀ e ∈ before, ∃ σ, parseScheme e.2 = .ok σ) ∧ parseScheme sig = .error err.cause

section FirstRejected

variable {es : List (String × String)} {err : PreludeError} {x sig : String}

theorem firstRejected_cons_error {cause : Signature.Error} (h : parseScheme sig = .error cause) :
    FirstRejected ((x, sig) :: es) err ↔ err = ⟨x, cause⟩ := by
  constructor
  · rintro ⟨before, sig', after, he, hb, hs⟩
    cases before with
    | nil =>
      obtain ⟨name, cause'⟩ := err
      cases he
      cases hs.symm.trans h
      rfl
    | cons e before =>
      cases he
      obtain ⟨σ, hσ⟩ := hb (x, sig) (by simp)
      cases hσ.symm.trans h
  · rintro rfl
    exact ⟨[], sig, es, rfl, by simp, h⟩

theorem firstRejected_cons_ok {σ : Scheme} (h : parseScheme sig = .ok σ) :
    FirstRejected ((x, sig) :: es) err ↔ FirstRejected es err := by
  constructor
  · rintro ⟨before, sig', after, he, hb, hs⟩
    cases before with
    | nil =>
      cases he
      cases hs.symm.trans h
    | cons e before =>
      cases he
      exact ⟨before, sig', after, rfl, fun e he => hb e (by simp [he]), hs⟩
  · rintro ⟨before, sig', after, rfl, hb, hs⟩
    refine ⟨(x, sig) :: before, sig', after, rfl, fun e he => ?_, hs⟩
    rcases List.mem_cons.1 he with rfl | he
    · exact ⟨σ, h⟩
    · exact hb e he

theorem extendWith_eq_error : extendWith Γ es = .error err ↔ FirstRejected es err := by
  induction es generalizing Γ with
  | nil => simp [extendWith, FirstRejected]
  | cons e es ih =>
    obtain ⟨x, sig⟩ := e
    rw [extendWith]
    cases h : parseScheme sig with
    | ok σ => rw [firstRejected_cons_ok h, ih]
    | error cause => rw [firstRejected_cons_error h, Except.error.injEq, eq_comm]

theorem exists_firstRejected :
    (∃ err, FirstRejected es err) ↔ ∃ e ∈ es, ∃ cause, parseScheme e.2 = .error cause := by
  induction es with
  | nil => simp [FirstRejected]
  | cons e es ih =>
    obtain ⟨x, sig⟩ := e
    cases h : parseScheme sig with
    | ok σ => simp [firstRejected_cons_ok h, ih, h]
    | error cause => simp [firstRejected_cons_error h, h]

end FirstRejected

theorem extend_eq_error {err : PreludeError} :
    p.extend Γ = .error err ↔ FirstRejected p.values.entries err :=
  extendWith_eq_error

theorem freeVars_extend (h : p.extend Γ = .ok Δ) :
    Δ.freeVars = Context.freeVars (Γ.filterKeys fun x => (p.values.get? x).isNone) := by
  apply NameSet.ext_mem
  intro v
  rw [Context.mem_freeVars, Context.mem_freeVars]
  refine exists_congr fun x => ?_
  have hx := extend_eq_ok.1 h x
  cases hsig : p.values.get? x with
  | none =>
    rw [hsig] at hx
    rw [NameMap.get?_filterKeys, hsig, show Δ.get? x = Γ.get? x from hx]
    simp
  | some sig =>
    rw [hsig] at hx
    obtain ⟨σ, hσ, hΔ⟩ := hx
    simp [hΔ, hsig, freeVars_of_parseScheme hσ]

/-- A prelude fails exactly if one of its signatures cannot be read, and then at the first of them.
Otherwise it changes what its own names stand for and nothing else, and the free variables are those
of the names it does not hide; by itself it is closed under every substitution. -/
theorem extend_fails_first_or_adds (p : Prelude) (Γ : Context) :
    ((∃ err, p.extend Γ = .error err) ↔
      ∃ e ∈ p.values.entries, ∃ cause, parseScheme e.2 = .error cause) ∧
    (∀ err, p.extend Γ = .error err ↔ FirstRejected p.values.entries err) ∧
    (∀ Δ, p.extend Γ = .ok Δ →
      (∀ x, Assigns (p.values.get? x) (Γ.get? x) (Δ.get? x)) ∧
      Δ.freeVars = Context.freeVars (Γ.filterKeys fun x => (p.values.get? x).isNone)) ∧
    ∀ Δ, p.toContext = .ok Δ → Δ.freeVars = ∅ ∧ ∀ s, Δ.apply s = Δ := by
  refine ⟨?_, fun err => extend_eq_error, fun Δ h => ⟨extend_eq_ok.1 h, freeVars_extend h⟩,
    fun Δ h => ⟨?_, (toContext_closed h).apply_eq⟩⟩
  · simp only [extend_eq_error, exists_firstRejected]
  · exact NameSet.ext_mem fun v => by simp [(toContext_closed h).not_mem_freeVars v]

/-- The second of two bad signatures is not looked at. -/
def leakyPrelude : Prelude :=
  ⟨.ofList [("fine", "Int"), ("leaky", "forall a. a -> b"), ("broken", "Int ->")]⟩

def hidingPrelude : Prelude := ⟨.ofList [("x", "List a"), ("id", "forall a. a -> a")]⟩

def openContext : Context := .ofList [("x", .mono (.var "u")), ("y", .mono (.var "v"))]

theorem extend_leaky_and_hiding :
    FirstRejected leakyPrelude.values.entries ⟨"leaky", .unboundVariable "b"⟩ ∧
    ∃ Δ : Context, hidingPrelude.extend openContext = .ok Δ ∧
      Δ.get? "y" = some (.mono (.var "v")) ∧ Δ.freeVars = .ofNames ["v"] := by
  have hleaky : leakyPrelude.extend openContext = .error ⟨"leaky", .unboundVariable "b"⟩ := by
    rfl
  have hhiding : ∃ Δ, hidingPrelude.extend openContext = .ok Δ := ⟨_, rfl⟩
  obtain ⟨Δ, hΔ⟩ := hhiding
  obtain ⟨hnames, hfree⟩ := (extend_fails_first_or_adds hidingPrelude openContext).2.2.1 Δ hΔ
  refine ⟨((extend_fails_first_or_adds leakyPrelude openContext).2.1 _).1 hleaky, Δ, hΔ, ?_, ?_⟩
  · exact hnames "y"
  · rw [hfree]
    rfl

end LetPoly.Prelude
