import LetPoly.Proofs.Json.Text
import LetPoly.Proofs.Keys
import Mathlib

set_option autoImplicit false

namespace LetPoly

/-- The numeral that is written for `x` is read as `x`, to the bit. Reading is an estimate, so this
fails for some numbers that need many digits or a large power of ten. -/
def Binary64.ReadsBack (x : Binary64) : Prop :=
  (Literal.jsonFormat.shortest x).toBinary64? = some x

instance (x : Binary64) : Decidable x.ReadsBack :=
  inferInstanceAs (Decidable ((Literal.jsonFormat.shortest x).toBinary64? = some x))

-- The numeral `1e-26` is read as the number before it.
example : ¬ (⟨0x3A88C240C4AECB14⟩ : Binary64).ReadsBack := by decide +kernel

def Literal.floats : Literal → List Binary64
  | .float x => [x]
  | _ => []

mutual
def Pattern.floats : Pattern → List Binary64
  | .var _ | .wildcard => []
  | .lit l => l.floats
  | .named _ p => p.floats
  | .con _ args => Pattern.floatsAll args

def Pattern.floatsAll : List Pattern → List Binary64
  | [] => []
  | p :: ps => p.floats ++ Pattern.floatsAll ps
end

mutual
def Expr.floats : Expr → List Binary64
  | .lit l => l.floats
  | .var _ => []
  | .app f a => f.floats ++ a.floats
  | .abs p b => p.floats ++ b.floats
  | .group e => e.floats
  | .letIn bs b => bs.floats ++ b.floats

def Bindings.floats : Bindings → List Binary64
  | .nil => []
  | .cons _ _ ps e rest => Pattern.floatsAll ps ++ e.floats ++ rest.floats
end

theorem Json.proper_nat (n : Nat) : (Json.nat n).Proper := by
  rw [Json.nat, Json.proper_number, Numeral.ofNat_eq_ofInt]
  exact Numeral.proper_ofInt n

theorem Span.proper_toJson (s : Span) : s.toJson.Proper := by
  simp [toJson, Json.proper_nat]

theorem Ident.proper_toJson (x : Ident) : x.toJson.Proper := by
  unfold toJson
  cases x.span with
  | none => simp
  | some s => simp [s.proper_toJson]

theorem Literal.proper_toJson (l : Literal) : l.toJson.Proper := by
  cases l with
  | int n => simpa [toJson] using Numeral.proper_ofInt n.toInt
  | float x =>
    simp only [toJson, Json.proper_tagged, floatJson]
    split
    · exact Json.proper_number.2 (jsonFormat.proper_shortest x)
    · exact Json.proper_null
  | string s => simp [toJson]
  | unit => simp [toJson]

mutual
theorem Pattern.proper_toJson : (p : Pattern) → p.toJson.Proper
  | .var x => by simpa [Pattern.toJson] using x.proper_toJson
  | .wildcard => by simp [Pattern.toJson]
  | .lit l => by simpa [Pattern.toJson] using l.proper_toJson
  | .named x p => by simpa [Pattern.toJson] using ⟨x.proper_toJson, p.proper_toJson⟩
  | .con c args => by
    simpa [Pattern.toJson] using ⟨c.proper_toJson, Pattern.proper_toJsonAll args⟩

theorem Pattern.proper_toJsonAll : (ps : List Pattern) → ∀ j ∈ Pattern.toJsonAll ps, j.Proper
  | [] => by simp [Pattern.toJsonAll]
  | p :: ps => by
    simpa [Pattern.toJsonAll] using ⟨p.proper_toJson, Pattern.proper_toJsonAll ps⟩
end

mutual
theorem Expr.proper_toJson : (e : Expr) → e.toJson.Proper
  | .lit l => by simpa [Expr.toJson] using l.proper_toJson
  | .var x => by simpa [Expr.toJson] using x.proper_toJson
  | .app f a => by simpa [Expr.toJson] using ⟨f.proper_toJson, a.proper_toJson⟩
  | .abs p b => by simpa [Expr.toJson] using ⟨p.proper_toJson, b.proper_toJson⟩
  | .group e => by simpa [Expr.toJson] using e.proper_toJson
  | .letIn bs b => by
    simpa [Expr.toJson] using ⟨Expr.proper_bindingsJson bs, b.proper_toJson⟩

theorem Expr.proper_bindingsJson : (bs : Bindings) →
    ∀ k j, (k, j) ∈ Expr.bindingsJson bs → k.isSome = true ∧ j.Proper
  | .nil => by simp [Expr.bindingsJson]
  | .cons k x ps e rest => by
    intro k' j h
    obtain h | h := List.mem_cons.1 h
    · cases h
      simpa [Binding.fieldsJson] using
        ⟨x.proper_toJson, Pattern.proper_toJsonAll ps, e.proper_toJson⟩
    · exact Expr.proper_bindingsJson rest k' j h
end

theorem Json.toUInt32?_nat (n : UInt32) : (Json.nat n.toNat).toUInt32? = some n := by
  have h : 0 ≤ (n.toNat : Int) ∧ (n.toNat : Int).toNat < UInt32.size :=
    ⟨Int.natCast_nonneg _, n.toNat_lt⟩
  rw [nat, Numeral.ofNat_eq_ofInt, toUInt32?, Numeral.toInt?_ofInt]
  refine (if_pos h).trans ?_
  simp

theorem Span.ofJson?_toJson (s : Span) : ofJson? s.toJson = some s := by
  simp [toJson, ofJson?, Json.fields, Json.keysReadable, Json.field?, Json.toUInt32?_nat]

theorem Ident.ofJson?_toJson (x : Ident) : ofJson? x.toJson = some x := by
  obtain ⟨name, span⟩ := x
  cases span with
  | none =>
    simp [toJson, ofJson?, Json.fields, Json.keysReadable, Json.field?, Json.toText?,
      Span.optionOfJson?]
  | some s =>
    have hs : Span.optionOfJson? s.toJson = some (some s) := by
      rw [show Span.optionOfJson? s.toJson = (Span.ofJson? s.toJson).map some from rfl,
        Span.ofJson?_toJson]
      rfl
    simp [toJson, ofJson?, Json.fields, Json.keysReadable, Json.field?, Json.toText?, hs]

def Binary64.Kept (x : Binary64) : Prop := x.isFinite = true ∧ x.ReadsBack

theorem Literal.ofJson?_toJson {l : Literal} (h : ∀ x ∈ l.floats, x.Kept) :
    ofJson? l.toJson = some l := by
  cases l with
  | int n =>
    have hr : Int64.minValue.toInt ≤ n.toInt ∧ n.toInt ≤ Int64.maxValue.toInt :=
      ⟨Int64.minValue_le_toInt n, Int64.toInt_le n⟩
    simp only [toJson, Json.tagged, ofJson?, Numeral.toInt?_ofInt]
    refine (if_pos hr).trans ?_
    rw [Int64.ofInt_toInt]
  | float x =>
    obtain ⟨hf, hx⟩ := h x (by simp [floats])
    simp [toJson, Json.tagged, ofJson?, floatJson, hf, hx.symm]
  | string s => simp [toJson, Json.tagged, ofJson?]
  | unit => simp [toJson, ofJson?]

mutual
theorem Pattern.ofJson?_toJson : (p : Pattern) → (∀ x ∈ p.floats, x.Kept) →
    Pattern.ofJson? p.toJson = some p
  | .var x, _ => by
    simp [Pattern.toJson, Json.tagged, Pattern.ofJson?, x.ofJson?_toJson]
  | .wildcard, _ => by simp [Pattern.toJson, Pattern.ofJson?]
  | .lit l, h => by
    have hl : Literal.ofJson? l.toJson = some l := Literal.ofJson?_toJson h
    simp [Pattern.toJson, Json.tagged, Pattern.ofJson?, hl]
  | .named x p, h => by
    have hp : Pattern.ofJson? p.toJson = some p := Pattern.ofJson?_toJson p h
    simp [Pattern.toJson, Json.tagged, Pattern.ofJson?, x.ofJson?_toJson, hp]
  | .con c args, h => by
    have ha : Pattern.ofJsonAll? (Pattern.toJsonAll args) = some args :=
      Pattern.ofJsonAll?_toJsonAll args h
    simp [Pattern.toJson, Json.tagged, Pattern.ofJson?, c.ofJson?_toJson, ha]

theorem Pattern.ofJsonAll?_toJsonAll : (ps : List Pattern) →
    (∀ x ∈ Pattern.floatsAll ps, x.Kept) →
      Pattern.ofJsonAll? (Pattern.toJsonAll ps) = some ps
  | [], _ => by simp [Pattern.toJsonAll, Pattern.ofJsonAll?]
  | p :: ps, h => by
    rw [Pattern.floatsAll, List.forall_mem_append] at h
    simp [Pattern.toJsonAll, Pattern.ofJsonAll?, p.ofJson?_toJson h.1,
      Pattern.ofJsonAll?_toJsonAll ps h.2]
end

namespace Bindings

def append : Bindings → Bindings → Bindings
  | .nil, cs => cs
  | .cons k x ps e rest, cs => .cons k x ps e (rest.append cs)

theorem append_nil : (bs : Bindings) → bs.append .nil = bs
  | .nil => rfl
  | .cons k x ps e rest => by rw [append, append_nil rest]

theorem put_append {k : String} (b : Binding) (cs : Bindings) : (bs : Bindings) → k ∉ bs.keys →
    (bs.put k b).append cs = bs.append (.cons k b.name b.params b.body cs)
  | .nil, _ => rfl
  | .cons j x ps e rest, h => by
    rw [keys, List.mem_cons, not_or] at h
    rw [put, if_neg (Ne.symm h.1), append, append, put_append b cs rest h.2]

end Bindings

theorem Expr.bindingOfJson?_fieldsJson (x : Ident) {ps : List Pattern} {e : Expr}
    (hp : Pattern.ofJsonAll? (Pattern.toJsonAll ps) = some ps) (he : ofJson? e.toJson = some e) :
    bindingOfJson? (Binding.fieldsJson x ps e.toJson) = some ⟨x, ps, e⟩ := by
  simp [Binding.fieldsJson, Json.fields, bindingOfJson?, bindingFields?, x.ofJson?_toJson,
    Pattern.paramsOfJson?, hp, he, PartialBinding.finish?]

mutual
theorem Expr.ofJson?_toJson : (e : Expr) → e.keysDistinct = true → (∀ x ∈ e.floats, x.Kept) →
    Expr.ofJson? e.toJson = some e
  | .lit l, _, h => by
    have hl : Literal.ofJson? l.toJson = some l := Literal.ofJson?_toJson h
    simp [Expr.toJson, Json.tagged, Expr.ofJson?, hl]
  | .var x, _, _ => by
    simp [Expr.toJson, Json.tagged, Expr.ofJson?, x.ofJson?_toJson]
  | .app f a, hk, h => by
    rw [Expr.keysDistinct, Bool.and_eq_true] at hk
    rw [Expr.floats, List.forall_mem_append] at h
    simp [Expr.toJson, Json.tagged, Expr.ofJson?, f.ofJson?_toJson hk.1 h.1,
      a.ofJson?_toJson hk.2 h.2]
  | .abs p b, hk, h => by
    rw [Expr.keysDistinct] at hk
    rw [Expr.floats, List.forall_mem_append] at h
    simp [Expr.toJson, Json.tagged, Expr.ofJson?, p.ofJson?_toJson h.1, b.ofJson?_toJson hk h.2]
  | .group e, hk, h => by
    have he : Expr.ofJson? e.toJson = some e := e.ofJson?_toJson hk h
    simp [Expr.toJson, Json.tagged, Expr.ofJson?, he]
  | .letIn bs b, hk, h => by
    rw [Expr.keysDistinct, Bool.and_eq_true] at hk
    rw [Expr.floats, List.forall_mem_append] at h
    have hbs := Expr.bindingsOfJson?_bindingsJson bs hk.1 h.1 .nil (by simp [Bindings.keys])
    simp [Expr.toJson, Json.tagged, Expr.ofJson?, hbs, Bindings.append, b.ofJson?_toJson hk.2 h.2]

theorem Expr.bindingsOfJson?_bindingsJson : (bs : Bindings) → bs.keysDistinct = true →
    (∀ x ∈ bs.floats, x.Kept) → (before : Bindings) → (∀ k ∈ bs.keys, k ∉ before.keys) →
      Expr.bindingsOfJson? before (Expr.bindingsJson bs) = some (before.append bs)
  | .nil, _, _, before, _ => by
    rw [Expr.bindingsJson, Expr.bindingsOfJson?, before.append_nil]
  | .cons k x ps e rest, hk, h, before, hb => by
    obtain ⟨hnot, he, hr⟩ := Bindings.keysDistinct_cons.1 hk
    rw [Bindings.floats, List.forall_mem_append, List.forall_mem_append] at h
    rw [Bindings.keys, List.forall_mem_cons] at hb
    have hhead := Expr.bindingOfJson?_fieldsJson x (Pattern.ofJsonAll?_toJsonAll ps h.1.1)
      (e.ofJson?_toJson he h.1.2)
    have hkeys : ∀ j ∈ rest.keys, j ∉ (before.put k ⟨x, ps, e⟩).keys := by
      intro j hj
      have hjk : j ≠ k := fun he => hnot (he ▸ hj)
      rw [Bindings.keys_put, if_neg hb.1]
      simp [hjk, hb.2 j hj]
    have htail := Expr.bindingsOfJson?_bindingsJson rest hr h.2 _ hkeys
    rw [Bindings.put_append _ _ _ hb.1] at htail
    simp [Expr.bindingsJson, Expr.bindingsOfJson?, hhead, htail]
end

end LetPoly
