import LetPoly.Expr.Json
import Mathlib.Data.List.DropRight

set_option autoImplicit false

namespace LetPoly

namespace Text

theorem decimalValue_decimalDigits (n : Nat) : decimalValue (decimalDigits n) = n :=
  Nat.ofDigitChars_ten_toDigits

theorem isDigit_of_mem_decimalDigits {n : Nat} {c : Char} (h : c ∈ decimalDigits n) :
    c.isDigit = true :=
  Nat.isDigit_of_mem_toDigits (by decide) (by decide) h

theorem digitChar_ne_zero {n : Nat} (h : n < 10) (hn : n ≠ 0) : n.digitChar ≠ '0' := by
  have : ∀ m : Fin 10, m.val ≠ 0 → m.val.digitChar ≠ '0' := by decide
  exact this ⟨n, h⟩ hn

theorem decimalDigits_eq_cons (n : Nat) (hn : n ≠ 0) :
    ∃ c cs, decimalDigits n = c :: cs ∧ c ≠ '0' := by
  induction n using Nat.strongRecOn with
  | ind n ih =>
    unfold decimalDigits at ih ⊢
    rw [Nat.toDigits_eq_if (by decide)]
    by_cases h : n < 10
    · exact ⟨_, [], if_pos h, digitChar_ne_zero h hn⟩
    · obtain ⟨c, cs, he, hc⟩ := ih (n / 10) (by omega) (by omega)
      exact ⟨c, cs ++ [(n % 10).digitChar], by rw [if_neg h, he, List.cons_append], hc⟩

theorem decimalValue_zeros {ds : List Char} (h : ∀ c ∈ ds, c = '0') : decimalValue ds = 0 := by
  unfold decimalValue
  induction ds with
  | nil => rfl
  | cons c cs ih =>
    rw [List.foldl_cons, h c List.mem_cons_self]
    exact ih fun c hc => h c (List.mem_cons_of_mem _ hc)

theorem dropClosingZeros_cons {c : Char} (hc : c ≠ '0') (cs : List Char) :
    ∃ ds, dropClosingZeros (c :: cs) = c :: ds ∧ ds <+: cs := by
  have hp : dropClosingZeros (c :: cs) <+: c :: cs := List.rdropWhile_prefix _ _
  have hne : dropClosingZeros (c :: cs) ≠ [] := by
    intro he
    have hz := List.rdropWhile_eq_nil_iff.1 he c List.mem_cons_self
    exact hc (of_decide_eq_true hz)
  cases hd : dropClosingZeros (c :: cs) with
  | nil => exact absurd hd hne
  | cons d ds =>
    rw [hd, List.cons_prefix_cons] at hp
    exact ⟨ds, by rw [hp.1], hp.2⟩

variable {p : Char → Bool} {w rest : List Char}

theorem takeWhile_append (hw : ∀ c ∈ w, p c = true) (hr : ∀ c ∈ rest.head?, p c = false) :
    (w ++ rest).takeWhile p = w := by
  rw [List.takeWhile_append_of_pos hw]
  cases rest with
  | nil => simp
  | cons c cs => simp [hr c rfl]

theorem dropWhile_append (hw : ∀ c ∈ w, p c = true) (hr : ∀ c ∈ rest.head?, p c = false) :
    (w ++ rest).dropWhile p = rest := by
  rw [List.dropWhile_append_of_pos hw]
  cases rest with
  | nil => rfl
  | cons c cs => simp [hr c rfl]

end Text

namespace Numeral

open Text

/-- Digits throughout, and no zero before another digit of the whole part. -/
structure Proper (n : Numeral) : Prop where
  isWhole : isWhole n.whole = true
  whole : ∀ c ∈ n.whole, c.isDigit = true
  fraction : ∀ c ∈ n.fraction, c.isDigit = true

theorem readExponent?_intText (plus : Bool) (e : Int) :
    readExponent? (intText plus e) = some e := by
  have hds : ¬ (decimalDigits e.natAbs = [] ∨ !(decimalDigits e.natAbs).all Char.isDigit) := by
    have hne : decimalDigits e.natAbs ≠ [] := Nat.toDigits_ne_nil
    have hall : (decimalDigits e.natAbs).all Char.isDigit = true :=
      List.all_eq_true.2 fun c hc => isDigit_of_mem_decimalDigits hc
    simp [hne, hall]
  by_cases h : e < 0
  · have he : -(e.natAbs : Int) = e := by omega
    simp only [intText, if_pos h, List.cons_append, List.nil_append, readExponent?, if_neg hds,
      decimalValue_decimalDigits, if_true, he]
  · have he : (e.natAbs : Int) = e := by omega
    cases plus with
    | true =>
      simp only [intText, if_neg h, if_true, List.cons_append, List.nil_append, readExponent?,
        if_neg hds, decimalValue_decimalDigits, Bool.false_eq_true, if_false, he]
    | false =>
      -- The first digit is no sign.
      cases hd : decimalDigits e.natAbs with
      | nil => simp [hd] at hds
      | cons d ds =>
        have hdigit : d.isDigit = true :=
          isDigit_of_mem_decimalDigits (hd ▸ List.mem_cons_self)
        have hsign : d ≠ '-' ∧ d ≠ '+' := by
          constructor <;> rintro rfl <;> simp at hdigit
        have hv : (decimalValue (d :: ds) : Int) = e := by
          rw [← hd, decimalValue_decimalDigits, he]
        rw [hd] at hds
        simpa [intText, h, hd, readExponent?, hsign, hv] using hds

def tail (plus : Bool) : Option Int → List Char
  | none => []
  | some e => 'e' :: intText plus e

variable (plus : Bool)

theorem readTail?_tail (negative : Bool) (whole fraction : List Char) (e : Option Int) :
    readTail? negative whole fraction (tail plus e) = some ⟨negative, whole, fraction, e⟩ := by
  cases e with
  | none => rfl
  | some e => simp [tail, readTail?, readExponent?_intText]

theorem tail_breaks (e : Option Int) : ∀ c ∈ (tail plus e).head?, c.isDigit = false := by
  cases e with
  | none => simp [tail]
  | some e => simp [tail]

def afterWhole (n : Numeral) : List Char :=
  (if n.fraction = [] then [] else '.' :: n.fraction) ++ tail plus n.exponent

theorem afterWhole_breaks (n : Numeral) : ∀ c ∈ (n.afterWhole plus).head?, c.isDigit = false := by
  unfold afterWhole
  by_cases hf : n.fraction = []
  · simpa [hf] using tail_breaks plus n.exponent
  · simp [hf]

theorem chars_eq (n : Numeral) :
    n.chars plus = (if n.negative then ['-'] else []) ++ (n.whole ++ n.afterWhole plus) := by
  unfold chars afterWhole tail
  cases n.exponent <;> simp only [List.append_assoc]

theorem Proper.readUnsigned? {n : Numeral} (h : n.Proper) :
    readUnsigned? n.negative (n.whole ++ n.afterWhole plus) = some n := by
  unfold Numeral.readUnsigned?
  simp only [takeWhile_append h.whole (n.afterWhole_breaks plus),
    dropWhile_append h.whole (n.afterWhole_breaks plus), h.isWhole, if_true]
  unfold afterWhole
  by_cases hf : n.fraction = []
  · -- The power of ten does not start with a point.
    have hdot : ∀ cs, tail plus n.exponent ≠ '.' :: cs := by
      cases n.exponent <;> simp [tail]
    simp only [hf, if_true, List.nil_append]
    rw [readTail?_tail, ← hf]
  · simp only [if_neg hf, List.cons_append]
    rw [takeWhile_append h.fraction (tail_breaks _ _),
      dropWhile_append h.fraction (tail_breaks _ _), if_neg hf, readTail?_tail]

theorem Proper.exists_digit {n : Numeral} (h : n.Proper) :
    ∃ c cs, n.whole = c :: cs ∧ c.isDigit = true := by
  cases hw : n.whole with
  | nil => exact absurd (hw ▸ h.isWhole) (by simp [Numeral.isWhole])
  | cons c cs => exact ⟨c, cs, rfl, h.whole c (by rw [hw]; exact List.mem_cons_self)⟩

theorem read?_chars {n : Numeral} (h : n.Proper) : read? (n.chars plus) = some n := by
  have hr := h.readUnsigned? plus
  rw [chars_eq]
  cases hn : n.negative with
  | true =>
    rw [hn] at hr
    exact hr
  | false =>
    -- The first digit is no sign.
    obtain ⟨c, cs, hw, hc⟩ := h.exists_digit
    have hsign : c ≠ '-' := fun he => by simp [he] at hc
    rw [hn, hw] at hr
    rw [hw]
    simpa [read?, hsign] using hr

theorem isWhole_singleton (c : Char) : Numeral.isWhole [c] = true := by
  by_cases h : c = '0' <;> simp [Numeral.isWhole, h]

theorem isWhole_decimalDigits (n : Nat) : Numeral.isWhole (decimalDigits n) = true := by
  by_cases hn : n = 0
  · subst hn
    rfl
  · obtain ⟨c, cs, he, hc⟩ := decimalDigits_eq_cons n hn
    simp [he, Numeral.isWhole, hc]

theorem proper_ofInt (n : Int) : (ofInt n).Proper :=
  ⟨isWhole_decimalDigits _, fun _ hc => isDigit_of_mem_decimalDigits hc, by simp [ofInt]⟩

theorem toInt?_ofInt (n : Int) : (ofInt n).toInt? = some n := by
  have hzero : ¬ (n < 0 ∧ n.natAbs = 0) := by omega
  have hvalue : (if n < 0 then -(n.natAbs : Int) else n.natAbs) = n := by omega
  simp only [toInt?, ofInt, decimalValue_decimalDigits, decide_eq_true_eq, ne_eq, not_true,
    false_or, if_neg hzero, hvalue]

theorem ofNat_eq_ofInt (n : Nat) : ofNat n = ofInt n := by
  simp [ofNat, ofInt]

end Numeral

namespace Binary64

theorem nearestRatio?_lt {n d m : Nat} (h : nearestRatio? n d = some m) : m < infinityBits := by
  unfold nearestRatio? at h
  split at h
  · rw [← Option.some.inj h]
    decide
  · simp only [Option.ite_none_right_eq_some] at h
    exact Option.some.inj h.2 ▸ h.1

theorem lt_of_bind {α : Type} {o : Option α} {f : α → Option Nat} {m : Nat}
    (h : o.bind f = some m) (hf : ∀ a, f a = some m → m < infinityBits) : m < infinityBits := by
  obtain ⟨a, -, ha⟩ := Option.bind_eq_some_iff.1 h
  exact hf a ha

theorem scaled?_lt {s m : Nat} {e : Int} (h : scaled? s e = some m) : m < infinityBits := by
  have hzero : some 0 = some m → m < infinityBits := fun h => Option.some.inj h ▸ by decide
  refine lt_of_bind h fun x h => ?_
  split at h
  · exact hzero h
  split at h
  · exact lt_of_bind h fun y => nearestRatio?_lt
  split at h
  · exact lt_of_bind h fun y => nearestRatio?_lt
  split at h
  · refine lt_of_bind h fun y h => ?_
    refine lt_of_bind h fun z h => ?_
    exact lt_of_bind h fun w => nearestRatio?_lt
  · exact hzero h

theorem magnitude_ofMagnitude {m : Nat} (h : m < infinityBits) (negative : Bool) :
    (ofMagnitude negative m).magnitude = m := by
  have hm : m < 2 ^ 63 := Nat.lt_trans h (by decide)
  simp only [magnitude, ofMagnitude, UInt64.toNat_ofNat', pow2, Nat.pow_eq]
  split <;> omega

theorem isFinite_ofMagnitude {m : Nat} (h : m < infinityBits) (negative : Bool) :
    (ofMagnitude negative m).isFinite = true := by
  unfold isFinite
  rw [magnitude_ofMagnitude h]
  exact decide_eq_true h

end Binary64

theorem Numeral.isFinite_of_toBinary64? {n : Numeral} {x : Binary64} (h : n.toBinary64? = some x) :
    x.isFinite = true := by
  unfold toBinary64? at h
  obtain ⟨m, hm, rfl⟩ := Option.map_eq_some_iff.1 h
  exact Binary64.isFinite_ofMagnitude (Binary64.scaled?_lt hm) _

namespace FloatFormat

open Text

variable (f : FloatFormat) (negative : Bool)

theorem proper_set {c : Char} {cs : List Char} {p : Int} (hd : ∀ d ∈ c :: cs, d.isDigit = true)
    (hc : c ≠ '0' ∨ cs = [] ∧ p = 0) : (f.set negative (c :: cs) p).Proper := by
  have hzeros : ∀ k, ∀ d ∈ List.replicate k '0', d.isDigit = true := by
    intro k d hk
    rw [List.eq_of_mem_replicate hk]
    rfl
  unfold set
  split
  · split
    · refine ⟨rfl, by simp, fun d hm => ?_⟩
      exact (List.mem_append.1 hm).elim (hzeros _ d) (hd d)
    · refine ⟨?_, fun d hm => ?_, fun d hm => ?_⟩
      · obtain hc | ⟨rfl, rfl⟩ := hc
        · simp [Numeral.isWhole, hc]
        · exact Numeral.isWhole_singleton c
      · exact (List.mem_append.1 hm).elim (fun hm => hd d (List.mem_of_mem_take hm)) (hzeros _ d)
      · dsimp only at hm
        split at hm
        · rw [List.mem_singleton.1 hm]
          rfl
        · exact hd d (List.mem_of_mem_drop hm)
  · exact ⟨Numeral.isWhole_singleton c, fun d hm => hd d (List.mem_of_mem_take hm),
      fun d hm => hd d (List.mem_of_mem_drop hm)⟩

theorem proper_ofDecimal {d : Nat} (hd : d ≠ 0) (e : Int) : (f.ofDecimal negative d e).Proper := by
  obtain ⟨c, cs, hds, hc⟩ := decimalDigits_eq_cons d hd
  obtain ⟨ds, hshort, hp⟩ := dropClosingZeros_cons hc cs
  unfold ofDecimal
  simp only [hds, hshort, reduceCtorEq, if_false]
  refine f.proper_set negative (fun x hx => ?_) (.inl hc)
  apply isDigit_of_mem_decimalDigits (n := d)
  rw [hds]
  exact List.cons_subset_cons c hp.subset hx

theorem negative_set (ds : List Char) (p : Int) : (f.set negative ds p).negative = negative := by
  unfold set
  split
  · split <;> rfl
  · rfl

theorem nearest?_set_zero (p : Int) :
    (f.set negative ['0'] p).nearest? = some (.ofMagnitude negative 0) := by
  have hzeros : ∀ c ∈ (f.set negative ['0'] p).whole ++ (f.set negative ['0'] p).fraction,
      c = '0' := by
    unfold set
    split
    · split <;> simp +contextual [or_imp]
    · simp
  unfold Numeral.nearest?
  simp [decimalValue_zeros hzeros, Binary64.nearestDecimal?, f.negative_set]

theorem ne_zero_of_nearest? {d : Nat} {e : Int} {x : Binary64} (hx : x.isZero = false)
    (h : (f.ofDecimal negative d e).nearest? = some x) : d ≠ 0 := by
  rintro rfl
  rw [show f.ofDecimal negative 0 e = f.set negative ['0'] _ from rfl, nearest?_set_zero] at h
  have hz : (Binary64.ofMagnitude negative 0).isZero = true := by
    cases negative <;> decide
  rw [Option.some.inj h, hx] at hz
  cases hz

theorem ratio_ne_zero {m : Nat} (h : m ≠ 0) : (Binary64.ratio m).1 ≠ 0 := by
  have hpos : ∀ k, 0 < pow2 k := fun k => Nat.pow_pos (by decide)
  unfold Binary64.ratio
  dsimp only
  split
  · rename_i he
    have hm := Nat.div_add_mod m (pow2 52)
    rw [he, Nat.mul_zero, Nat.zero_add] at hm
    exact fun hz => h (hm.symm.trans hz)
  · exact Nat.mul_ne_zero (by have := hpos 52; omega) (Nat.ne_of_gt (hpos _))

theorem exists_ofDecimal_of_mem {x : Binary64} {n : Numeral} (h : n ∈ f.candidates x) :
    ∃ d e, n = f.ofDecimal x.negative d e := by
  simp only [candidates, List.mem_flatMap, List.mem_map] at h
  obtain ⟨i, -, d, -, rfl⟩ := h
  exact ⟨d, _, rfl⟩

theorem proper_shortest (x : Binary64) : (f.shortest x).Proper := by
  unfold shortest
  by_cases hx : x.isZero = true
  · rw [if_pos hx]
    exact f.proper_set x.negative (by simp) (.inr ⟨rfl, rfl⟩)
  · rw [if_neg hx]
    rw [Bool.not_eq_true] at hx
    cases hc : (f.candidates x).find? (·.nearest? = some x) with
    | none =>
      refine f.proper_ofDecimal x.negative (Nat.mul_ne_zero (ratio_ne_zero ?_) ?_) _
      · exact of_decide_eq_false hx
      · exact Nat.ne_of_gt (Nat.pow_pos (by decide))
    | some n =>
      obtain ⟨d, e, rfl⟩ := f.exists_ofDecimal_of_mem (List.mem_of_find?_eq_some hc)
      have hn : (f.ofDecimal x.negative d e).nearest? = some x := by
        simpa using List.find?_some hc
      exact f.proper_ofDecimal x.negative (f.ne_zero_of_nearest? x.negative hx hn) e

end FloatFormat

end LetPoly
