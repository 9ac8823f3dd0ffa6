import LetPoly.Proofs.Json.Numeral
import Mathlib

set_option autoImplicit false

namespace LetPoly

open Text

namespace Binary64

theorem pow2_pos (k : Nat) : 0 < pow2 k := Nat.pow_pos (by decide)

theorem pow2_add (j k : Nat) : pow2 (j + k) = pow2 j * pow2 k := Nat.pow_add ..

theorem pow2_lt_iff {j k : Nat} : pow2 j < pow2 k ↔ j < k := Nat.pow_lt_pow_iff_right (by decide)

theorem pow2_log2_le {n : Nat} (h : n ≠ 0) : pow2 n.log2 ≤ n := Nat.log2_self_le h

theorem lt_pow2_log2 (n : Nat) : n < pow2 (n.log2 + 1) := Nat.lt_log2_self

def significand (m : Nat) : Nat :=
  if m / pow2 52 = 0 then m % pow2 52 else pow2 52 + m % pow2 52

/-- A magnitude stands for its significand times `2 ^ (shift - 1074)`. -/
def shift (m : Nat) : Nat := m / pow2 52 - 1

theorem shift_add_significand (m : Nat) : shift m * pow2 52 + significand m = m := by
  have hm := Nat.div_add_mod' m (pow2 52)
  unfold shift significand
  split
  · rename_i he
    simpa [he] using hm
  · rename_i he
    obtain ⟨e, he⟩ := Nat.exists_eq_add_one_of_ne_zero he
    rw [he] at hm ⊢
    rw [Nat.add_sub_cancel, ← Nat.add_assoc, ← Nat.succ_mul]
    exact hm

theorem significand_lt (m : Nat) : significand m < pow2 53 := by
  have hm := Nat.mod_lt m (pow2_pos 52)
  have hdouble : pow2 53 = pow2 52 + pow2 52 := by rw [← Nat.two_mul]; rfl
  unfold significand
  split <;> omega

theorem le_significand {m : Nat} (h : shift m ≠ 0) : pow2 52 ≤ significand m := by
  unfold shift at h
  unfold significand
  split <;> omega

theorem significand_pos {m : Nat} (h : m ≠ 0) : 0 < significand m := by
  have hm := shift_add_significand m
  by_cases hs : shift m = 0
  · rw [hs] at hm
    omega
  · exact Nat.lt_of_lt_of_le (pow2_pos 52) (le_significand hs)

theorem ratio_snd_pos (m : Nat) : 0 < (ratio m).2 := by
  unfold ratio
  dsimp only
  split <;> simp only [pow2_pos]

theorem ratio_eq (m : Nat) :
    (ratio m).1 * pow2 1074 = significand m * pow2 (shift m) * (ratio m).2 := by
  unfold ratio significand shift
  generalize m / pow2 52 = e
  generalize m % pow2 52 = f
  dsimp only
  split
  · rename_i he
    rw [he, show pow2 (0 - 1) = 1 from rfl, mul_one]
  · have he : e - 1075 + 1074 = e - 1 + (1075 - e) := by omega
    rw [mul_assoc, mul_assoc, ← pow2_add, ← pow2_add, he]

section Rounding

variable {b p q S K : Nat}

theorem scaled_eq (h : p * pow2 b = S * pow2 K * q) :
    p * pow2 (b - K) = S * (q * pow2 (K - b)) := by
  have hone : pow2 0 = 1 := rfl
  rcases Nat.le_total K b with hK | hK
  · obtain ⟨c, rfl⟩ := Nat.exists_eq_add_of_le hK
    rw [Nat.add_sub_cancel_left, Nat.sub_eq_zero_of_le hK, hone, mul_one]
    apply Nat.eq_of_mul_eq_mul_right (pow2_pos K)
    rw [pow2_add] at h
    linarith
  · obtain ⟨c, rfl⟩ := Nat.exists_eq_add_of_le hK
    rw [Nat.add_sub_cancel_left, Nat.sub_eq_zero_of_le hK, hone, mul_one]
    apply Nat.eq_of_mul_eq_mul_right (pow2_pos b)
    rw [pow2_add] at h
    linarith

theorem quotient_eq (hq : 0 < q) (h : p * pow2 b = S * pow2 K * q) :
    p * pow2 (b - K) / (q * pow2 (K - b)) = S := by
  rw [scaled_eq h]
  exact Nat.mul_div_cancel _ (Nat.mul_pos hq (pow2_pos _))

theorem roundDiv_mul {d : Nat} (hd : 0 < d) : roundDiv (S * d) d = S := by
  simp [roundDiv, Nat.mul_div_cancel _ hd, hd]

theorem exponent_le (hS : S < pow2 53) (hp : p ≠ 0) (hq : 0 < q)
    (h : p * pow2 (b + 53) = S * pow2 K * q) : p.log2 + b - q.log2 ≤ K := by
  have hlt : pow2 (p.log2 + (b + 53)) < pow2 (53 + K + (q.log2 + 1)) := by
    calc pow2 (p.log2 + (b + 53)) = pow2 p.log2 * pow2 (b + 53) := pow2_add ..
      _ ≤ p * pow2 (b + 53) := Nat.mul_le_mul_right _ (pow2_log2_le hp)
      _ = S * pow2 K * q := h
      _ < pow2 53 * pow2 K * q :=
        Nat.mul_lt_mul_of_pos_right (Nat.mul_lt_mul_of_pos_right hS (pow2_pos K)) hq
      _ ≤ pow2 53 * pow2 K * pow2 (q.log2 + 1) := Nat.mul_le_mul_left _ (lt_pow2_log2 q).le
      _ = pow2 (53 + K + (q.log2 + 1)) := by rw [pow2_add (53 + K), pow2_add 53]
  have := pow2_lt_iff.1 hlt
  omega

theorem le_exponent_succ (hS : pow2 52 ≤ S) (hq : 0 < q)
    (h : p * pow2 (b + 53) = S * pow2 K * q) : K ≤ p.log2 + b - q.log2 + 1 := by
  have hlt : pow2 (52 + K + q.log2) < pow2 (p.log2 + 1 + (b + 53)) := by
    calc pow2 (52 + K + q.log2) = pow2 52 * pow2 K * pow2 q.log2 := by
          rw [pow2_add (52 + K), pow2_add 52]
      _ ≤ S * pow2 K * q :=
        Nat.mul_le_mul (Nat.mul_le_mul_right _ hS) (pow2_log2_le hq.ne')
      _ = p * pow2 (b + 53) := h.symm
      _ < pow2 (p.log2 + 1) * pow2 (b + 53) :=
        Nat.mul_lt_mul_of_pos_right (lt_pow2_log2 p) (pow2_pos _)
      _ = pow2 (p.log2 + 1 + (b + 53)) := (pow2_add ..).symm
  have := pow2_lt_iff.1 hlt
  omega

end Rounding

/-- The exact value of a magnitude, however the quotient is written, rounds to that magnitude. -/
theorem nearestRatio?_of_eq {m p q : Nat} (hm : m < infinityBits) (hm₀ : m ≠ 0) (hq : 0 < q)
    (h : p * (ratio m).2 = (ratio m).1 * q) : nearestRatio? p q = some m := by
  have hv : p * pow2 1074 = significand m * pow2 (shift m) * q := by
    apply Nat.eq_of_mul_eq_mul_right (ratio_snd_pos m)
    calc p * pow2 1074 * (ratio m).2 = p * (ratio m).2 * pow2 1074 := by ring
      _ = (ratio m).1 * pow2 1074 * q := by rw [h]; ring
      _ = significand m * pow2 (shift m) * q * (ratio m).2 := by rw [ratio_eq]; ring
  have hS := significand_lt m
  have hp : p ≠ 0 := by
    rintro rfl
    have := Nat.mul_pos (Nat.mul_pos (significand_pos hm₀) (pow2_pos (shift m))) hq
    omega
  -- The first guess at the scale is right, or too low by one, which the quotient shows.
  generalize hk : p.log2 + 1021 - q.log2 = k
  have hle : k ≤ shift m := hk ▸ exponent_le hS hp hq hv
  have hscale : (if p * pow2 (1074 - k) / (q * pow2 (k - 1074)) < pow2 53 then k else k + 1) =
      shift m := by
    rcases Nat.eq_or_lt_of_le hle with rfl | hlt
    · rw [quotient_eq hq hv, if_pos hS]
    · have hS := le_significand (m := m) (by omega)
      have hge : shift m ≤ k + 1 := hk ▸ le_exponent_succ hS hq hv
      have he : shift m = k + 1 := by omega
      have hv' : p * pow2 1074 = significand m * pow2 1 * pow2 k * q := by
        rw [hv, he, pow2_add]
        ring
      have hlow : ¬ significand m * pow2 1 < pow2 53 := by
        rw [show pow2 53 = pow2 52 * pow2 1 from pow2_add 52 1]
        exact Nat.not_lt.2 (Nat.mul_le_mul_right _ hS)
      rw [quotient_eq hq hv', if_neg hlow, he]
  have hround : roundDiv (p * pow2 (1074 - shift m)) (q * pow2 (shift m - 1074)) =
      significand m := by
    rw [scaled_eq hv]
    exact roundDiv_mul (Nat.mul_pos hq (pow2_pos _))
  unfold nearestRatio?
  simp only [hp, if_false, hk, hscale, hround, shift_add_significand, hm, if_true]

theorem ratio_fst_pos {m : Nat} (h : m ≠ 0) : 0 < (ratio m).1 :=
  Nat.pos_of_ne_zero (FloatFormat.ratio_ne_zero h)

theorem ratio_snd_eq_pow2 (m : Nat) : (ratio m).2 = pow2 (ratio m).2.log2 := by
  have hlog : ∀ k, (pow2 k).log2 = k := fun k => Nat.log2_two_pow
  unfold ratio
  dsimp only
  split <;> simp only [hlog]

def value (m : Nat) : ℚ := (ratio m).1 / (ratio m).2

theorem value_pos {m : Nat} (h : m ≠ 0) : 0 < value m :=
  div_pos (Nat.cast_pos.2 (ratio_fst_pos h)) (Nat.cast_pos.2 (ratio_snd_pos m))

theorem cast_pow10 (k : Nat) : (pow10 k : ℚ) = 10 ^ (k : ℤ) := by
  rw [zpow_natCast, pow10, Nat.pow_eq, Nat.cast_pow, Nat.cast_ofNat]

theorem lt_value {m : Nat} (h : m ≠ 0) : (10 : ℚ) ^ (-(324 : ℕ) : ℤ) < value m := by
  have hnat : (ratio m).2 < (ratio m).1 * pow10 324 := by
    have hS := Nat.mul_pos (significand_pos h) (pow2_pos (shift m))
    calc (ratio m).2 ≤ significand m * pow2 (shift m) * (ratio m).2 :=
          Nat.le_mul_of_pos_left _ hS
      _ = (ratio m).1 * pow2 1074 := (ratio_eq m).symm
      _ < (ratio m).1 * pow10 324 :=
        Nat.mul_lt_mul_of_pos_left (by decide +kernel) (ratio_fst_pos h)
  have hcast : ((ratio m).2 : ℚ) < (ratio m).1 * 10 ^ ((324 : ℕ) : ℤ) := by
    rw [← cast_pow10, ← Nat.cast_mul]
    exact Nat.cast_lt.2 hnat
  rw [value, lt_div_iff₀ (Nat.cast_pos.2 (ratio_snd_pos m)), zpow_neg,
    inv_mul_lt_iff₀ (zpow_pos (by norm_num) _), mul_comm]
  exact hcast

theorem value_lt {m : Nat} (h : m < infinityBits) : value m < (10 : ℚ) ^ ((309 : ℕ) : ℤ) := by
  have hK : shift m ≤ 2045 := by
    have hm : m / pow2 52 < 2047 := Nat.div_lt_of_lt_mul (Nat.mul_comm .. ▸ h)
    unfold shift
    omega
  have hnat : (ratio m).1 < pow10 309 * (ratio m).2 := by
    apply Nat.lt_of_mul_lt_mul_right (a := pow2 1074)
    calc (ratio m).1 * pow2 1074 = significand m * pow2 (shift m) * (ratio m).2 := ratio_eq m
      _ ≤ pow2 53 * pow2 2045 * (ratio m).2 := by
        have hpow : ∀ k, shift m ≤ k → pow2 (shift m) ≤ pow2 k :=
          fun k => Nat.pow_le_pow_right (by decide)
        exact Nat.mul_le_mul_right _ (Nat.mul_le_mul (significand_lt m).le (hpow _ hK))
      _ < pow10 309 * pow2 1074 * (ratio m).2 :=
        Nat.mul_lt_mul_of_pos_right (by decide +kernel) (ratio_snd_pos m)
      _ = pow10 309 * (ratio m).2 * pow2 1074 := by ring
  rw [value, div_lt_iff₀ (Nat.cast_pos.2 (ratio_snd_pos m)), ← cast_pow10, ← Nat.cast_mul]
  exact Nat.cast_lt.2 hnat

theorem nearestDecimal?_of_eq {m d : Nat} {e : ℤ} (hm : m < infinityBits) (hm₀ : m ≠ 0)
    (h : (d : ℚ) * 10 ^ e = value m) : nearestDecimal? d e = some m := by
  have hd : d ≠ 0 := by
    rintro rfl
    have := value_pos hm₀
    simp [← h] at this
  have hten : (1 : ℚ) < 10 := by norm_num
  generalize hL : (Nat.toDigits 10 d).length = L
  have hLpos : 0 < L := hL ▸ Nat.length_toDigits_pos
  have hhigh : ¬ 310 < e + L := by
    intro hlarge
    have hdigits : 10 ^ (L - 1) ≤ d := by
      rcases Nat.eq_zero_or_pos (L - 1) with hz | hpos
      · rw [hz]
        exact Nat.one_le_iff_ne_zero.2 hd
      · by_contra hlt
        have := (Nat.length_toDigits_le_iff (by decide) hpos).2 (Nat.lt_of_not_le hlt)
        omega
    have hcast : (10 : ℚ) ^ ((L - 1 : ℕ) : ℤ) ≤ d := by exact_mod_cast hdigits
    have hge : (10 : ℚ) ^ ((309 : ℕ) : ℤ) ≤ value m := by
      calc (10 : ℚ) ^ ((309 : ℕ) : ℤ) ≤ 10 ^ (((L - 1 : ℕ) : ℤ) + e) :=
            zpow_le_zpow_right₀ hten.le (by omega)
        _ = 10 ^ ((L - 1 : ℕ) : ℤ) * 10 ^ e := zpow_add₀ (by norm_num) ..
        _ ≤ d * 10 ^ e := mul_le_mul_of_nonneg_right hcast (by positivity)
        _ = value m := h
    exact absurd (value_lt hm) (not_lt.2 hge)
  have hlow : ¬ e + L < -330 := by
    intro hsmall
    have hdigits : d < 10 ^ L := (Nat.length_toDigits_le_iff (by decide) hLpos).1 hL.le
    have hcast : (d : ℚ) ≤ 10 ^ (L : ℤ) := by exact_mod_cast hdigits.le
    have hle : value m ≤ (10 : ℚ) ^ (-(324 : ℕ) : ℤ) := by
      calc value m = d * 10 ^ e := h.symm
        _ ≤ 10 ^ (L : ℤ) * 10 ^ e := mul_le_mul_of_nonneg_right hcast (by positivity)
        _ = 10 ^ ((L : ℤ) + e) := (zpow_add₀ (by norm_num) ..).symm
        _ ≤ 10 ^ (-(324 : ℕ) : ℤ) := zpow_le_zpow_right₀ hten.le (by omega)
    exact absurd (lt_value hm₀) (not_lt.2 hle)
  unfold nearestDecimal?
  simp only [hL, hd, hhigh, hlow, if_false]
  refine nearestRatio?_of_eq hm hm₀ (Nat.pow_pos (by decide)) ?_
  have hpow : (10 : ℚ) ^ e * 10 ^ (-e).toNat = 10 ^ e.toNat := by
    rw [← zpow_natCast, ← zpow_natCast, ← zpow_add₀ (by norm_num)]
    congr 1
    omega
  have hr : (value m) * (ratio m).2 = (ratio m).1 :=
    div_mul_cancel₀ _ (Nat.cast_ne_zero.2 (ratio_snd_pos m).ne')
  have hcast : ((d * pow10 e.toNat * (ratio m).2 : ℕ) : ℚ) =
      ((ratio m).1 * pow10 (-e).toNat : ℕ) := by
    simp only [pow10, Nat.pow_eq]
    push_cast
    rw [← hr, ← h, ← hpow]
    ring
  exact_mod_cast hcast

end Binary64

theorem Text.decimalValue_append (as bs : List Char) :
    decimalValue (as ++ bs) = decimalValue as * 10 ^ bs.length + decimalValue bs := by
  have hfold : ∀ n, bs.foldl (fun n c => 10 * n + (c.toNat - 48)) n =
      n * 10 ^ bs.length + decimalValue bs := by
    unfold decimalValue
    induction bs with
    | nil => simp
    | cons b bs ih =>
      intro n
      rw [List.foldl_cons, List.foldl_cons, ih, ih (10 * 0 + _), List.length_cons]
      ring
  rw [← hfold, decimalValue, List.foldl_append]
  rfl

theorem Text.exists_dropClosingZeros (ds : List Char) :
    ∃ k, ds = dropClosingZeros ds ++ List.replicate k '0' := by
  refine ⟨(ds.rtakeWhile (· = '0')).length, ?_⟩
  have hmem : ∀ c ∈ ds.rtakeWhile (· = '0'), c = '0' := fun c hc => by
    simpa using List.mem_rtakeWhile_imp hc
  rw [← List.eq_replicate_of_mem hmem]
  exact (List.rdropWhile_append_rtakeWhile ..).symm

theorem Text.decimalValue_replicate (k : Nat) : decimalValue (List.replicate k '0') = 0 :=
  decimalValue_zeros fun _ hc => List.eq_of_mem_replicate hc

/-- The value that the digits and the power of ten stand for, without the sign. -/
def Numeral.value (n : Numeral) : ℚ :=
  decimalValue (n.whole ++ n.fraction) * 10 ^ (n.exponent.getD 0 - n.fraction.length)

theorem Numeral.nearest?_of_value {n : Numeral} {m : Nat} (hm : m < Binary64.infinityBits)
    (hm₀ : m ≠ 0) (h : n.value = Binary64.value m) :
    n.nearest? = some (.ofMagnitude n.negative m) := by
  simp only [nearest?, Binary64.nearestDecimal?_of_eq hm hm₀ h, Option.map_some]

namespace FloatFormat

variable (f : FloatFormat) (negative : Bool)

theorem value_zeros (ds : List Char) (k : Nat) (e : Int) :
    (decimalValue (ds ++ List.replicate k '0') : ℚ) * 10 ^ e =
      decimalValue ds * 10 ^ (e + k) := by
  rw [decimalValue_append, decimalValue_replicate, List.length_replicate, Nat.add_zero,
    zpow_add₀ (by norm_num), zpow_natCast]
  push_cast
  ring

/-- Wherever the point stands, the first digit is at the power `10 ^ p`. -/
theorem value_set {ds : List Char} (hds : ds ≠ []) (p : Int) :
    (f.set negative ds p).value = decimalValue ds * 10 ^ (p + 1 - ds.length) := by
  have hpos := List.length_pos_of_ne_nil hds
  unfold set
  split
  · split
    · -- Zeros stand before the digits.
      rename_i hp
      have hv : decimalValue (['0'] ++ (List.replicate (-p - 1).toNat '0' ++ ds)) =
          decimalValue ds := by
        have hz : decimalValue (['0'] ++ List.replicate (-p - 1).toNat '0') = 0 :=
          decimalValue_replicate (_ + 1)
        rw [← List.append_assoc, decimalValue_append, hz, Nat.zero_mul, Nat.zero_add]
      simp only [Numeral.value, hv, Option.getD_none, List.length_append, List.length_replicate]
      congr 2
      push_cast
      omega
    · rename_i hp
      dsimp only
      split
      · -- Zeros stand behind the digits, the last of them after the point.
        rename_i hdrop
        have hlen : ds.length ≤ p.toNat + 1 := List.drop_eq_nil_iff.1 hdrop
        have hzeros : ds.take (p.toNat + 1) ++ List.replicate (p.toNat + 1 - ds.length) '0' ++
            ['0'] = ds ++ List.replicate (p.toNat + 1 - ds.length + 1) '0' := by
          rw [List.take_of_length_le hlen, List.append_assoc, List.replicate_succ']
        simp only [Numeral.value, hzeros, value_zeros, Option.getD_none, List.length_singleton]
        congr 2
        push_cast [hlen]
        omega
      · rename_i hdrop
        have hlen : ¬ ds.length ≤ p.toNat + 1 := fun hl => hdrop (List.drop_eq_nil_iff.2 hl)
        have hnone : p.toNat + 1 - ds.length = 0 := by omega
        simp only [Numeral.value, hnone, List.replicate_zero, List.append_nil,
          List.take_append_drop, Option.getD_none, List.length_drop]
        congr 2
        omega
  · simp only [Numeral.value, List.take_append_drop, Option.getD_some, List.length_drop]
    congr 2
    omega

theorem value_ofDecimal {d : Nat} (hd : d ≠ 0) (e : Int) :
    (f.ofDecimal negative d e).value = d * 10 ^ e := by
  obtain ⟨c, cs, hds, hc⟩ := decimalDigits_eq_cons d hd
  obtain ⟨ds, hshort, -⟩ := dropClosingZeros_cons hc cs
  obtain ⟨k, hk⟩ := exists_dropClosingZeros (decimalDigits d)
  rw [hds, hshort] at hk
  have hlength : (c :: cs).length = (c :: ds).length + k := by
    rw [hk, List.length_append, List.length_replicate]
  unfold ofDecimal
  simp only [hds, hshort, reduceCtorEq, if_false]
  rw [f.value_set negative (by simp)]
  calc (decimalValue (c :: ds) : ℚ) * 10 ^ (e + (c :: cs).length - 1 + 1 - (c :: ds).length)
      = decimalValue (c :: ds) * 10 ^ (e + k) := by congr 2; omega
    _ = decimalValue (decimalDigits d) * 10 ^ e := by rw [hds, hk, value_zeros]
    _ = d * 10 ^ e := by rw [decimalValue_decimalDigits]

theorem negative_ofDecimal (d : Nat) (e : Int) :
    (f.ofDecimal negative d e).negative = negative :=
  f.negative_set negative _ _

theorem value_exact {x : Binary64} (hx : x.magnitude ≠ 0) :
    (f.exact x).value = Binary64.value x.magnitude := by
  have hfive : ∀ k, Nat.pow 5 k ≠ 0 := fun k => (Nat.pow_pos (by decide)).ne'
  unfold exact
  dsimp only
  rw [value_ofDecimal _ _ (Nat.mul_ne_zero (ratio_ne_zero hx) (hfive _)), Binary64.value]
  have hd := Binary64.ratio_snd_eq_pow2 x.magnitude
  generalize (Binary64.ratio x.magnitude).2.log2 = k at hd ⊢
  rw [hd, zpow_neg, zpow_natCast, pow2, Nat.pow_eq, Nat.pow_eq]
  push_cast
  rw [show (10 : ℚ) = 5 * 2 by norm_num, mul_pow]
  field_simp

end FloatFormat

theorem Binary64.ofMagnitude_magnitude (x : Binary64) :
    ofMagnitude x.negative x.magnitude = x := by
  obtain ⟨b⟩ := x
  have hb := b.toNat_lt
  have hbits : (if pow2 63 ≤ b.toNat then pow2 63 + b.toNat % pow2 63 else b.toNat % pow2 63) =
      b.toNat := by
    have hdouble : (2 : Nat) ^ 64 = pow2 63 + pow2 63 := by decide
    rw [hdouble] at hb
    split
    · rw [Nat.mod_eq_sub_mod ‹_›, Nat.mod_eq_of_lt (by omega)]
      omega
    · exact Nat.mod_eq_of_lt (by omega)
  simp only [ofMagnitude, negative, magnitude, decide_eq_true_eq, hbits, UInt64.ofNat_toNat]

/-- Every finite binary64 is the nearest to its numeral. -/
theorem FloatFormat.nearest?_shortest (f : FloatFormat) {x : Binary64} (hx : x.isFinite = true) :
    (f.shortest x).nearest? = some x := by
  have hself := x.ofMagnitude_magnitude
  unfold shortest
  by_cases hz : x.isZero = true
  · have hm : x.magnitude = 0 := of_decide_eq_true hz
    rw [if_pos hz, nearest?_set_zero, ← hm, hself]
  · rw [if_neg hz]
    have hm : x.magnitude ≠ 0 := fun hm => hz (decide_eq_true hm)
    cases hc : (f.candidates x).find? (·.nearest? = some x) with
    | none =>
      have hsign : (f.exact x).negative = x.negative := f.negative_ofDecimal _ _ _
      rw [Option.getD_none, Numeral.nearest?_of_value (of_decide_eq_true hx) hm (f.value_exact hm),
        hsign, hself]
    | some n => simpa using List.find?_some hc

end LetPoly
