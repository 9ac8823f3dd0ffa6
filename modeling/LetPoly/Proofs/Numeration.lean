import LetPoly.NameSupply
import Mathlib.Data.List.Induction
import Mathlib.Data.List.Shortlex

set_option autoImplicit false

namespace LetPoly

def letterDigit (c : Char) : Nat := c.toNat + 1 - 'a'.toNat

/-- The number that a word stands for, most significant digit first. -/
def wordValue (cs : List Char) : Nat := cs.foldl (fun n c => 26 * n + letterDigit c) 0

def IsLetterWord (cs : List Char) : Prop := ∀ c ∈ cs, c.isLower

instance : DecidablePred IsLetterWord := fun cs =>
  decidable_of_iff (cs.all Char.isLower) List.all_eq_true

/-- Shorter, or as long and first in the alphabet. -/
abbrev WordLt : List Char → List Char → Prop := List.Shortlex (· < ·)

theorem letterDigit_letter {d : Nat} (h : d < 26) : letterDigit (letter d) = d + 1 := by
  have hall : ∀ i : Fin 26, letterDigit (letter i) = i + 1 := by decide
  exact hall ⟨d, h⟩

theorem isLower_letter {d : Nat} (h : d < 26) : (letter d).isLower := by
  have hall : ∀ i : Fin 26, (letter i).isLower := by decide
  exact hall ⟨d, h⟩

theorem letter_lt_letter {c d : Nat} (h : c < d) (hd : d < 26) : letter c < letter d := by
  have hall : ∀ i j : Fin 26, i < j → letter i < letter j := by decide
  exact hall ⟨c, by omega⟩ ⟨d, hd⟩ h

theorem exists_letter {c : Char} (h : c.isLower) : ∃ d < 26, c = letter d := by
  have hc : decide (97 ≤ c.toNat) && decide (c.toNat ≤ 122) := h
  rw [Bool.and_eq_true, decide_eq_true_eq, decide_eq_true_eq] at hc
  refine ⟨c.toNat - 97, by omega, ?_⟩
  rw [letter, show 97 + (c.toNat - 97) = c.toNat by omega, Char.ofNat_toNat]

theorem wordValue_snoc (cs : List Char) (c : Char) :
    wordValue (cs ++ [c]) = 26 * wordValue cs + letterDigit c := by
  simp [wordValue]

theorem wordValue_letterDigits (n : Nat) : wordValue (letterDigits n) = n := by
  fun_induction letterDigits n with
  | case1 => rfl
  | case2 n ih =>
    rw [wordValue_snoc, ih, letterDigit_letter (Nat.mod_lt n (by decide))]
    omega

theorem isLetterWord_letterDigits (n : Nat) : IsLetterWord (letterDigits n) := by
  fun_induction letterDigits n with
  | case1 => simp [IsLetterWord]
  | case2 n ih =>
    intro c hc
    rcases List.mem_append.1 hc with hc | hc
    · exact ih c hc
    · rw [List.mem_singleton.1 hc]
      exact isLower_letter (Nat.mod_lt n (by decide))

theorem letterDigits_mul_add {n d : Nat} (h : d < 26) :
    letterDigits (26 * n + d + 1) = letterDigits n ++ [letter d] := by
  rw [letterDigits, show (26 * n + d) / 26 = n by omega, show (26 * n + d) % 26 = d by omega]

theorem letterDigits_wordValue {cs : List Char} (h : IsLetterWord cs) :
    letterDigits (wordValue cs) = cs := by
  -- from the end of the word, as the last letter is the digit that is taken off first
  induction cs using List.reverseRecOn with
  | nil => simp [wordValue, letterDigits]
  | append_singleton cs c ih =>
    obtain ⟨d, hd, rfl⟩ := exists_letter (h c (by simp))
    have hcs : IsLetterWord cs := fun b hb => h b (by simp [hb])
    rw [wordValue_snoc, letterDigit_letter hd, ← Nat.add_assoc, letterDigits_mul_add hd, ih hcs]

theorem lex_append_of_length_eq {α : Type} {r : α → α → Prop} {s t : List α} (h : List.Lex r s t)
    (hl : s.length = t.length) (u v : List α) : List.Lex r (s ++ u) (t ++ v) := by
  induction h with
  | nil => simp at hl
  | cons _ ih => exact .cons (ih (by simpa using hl))
  | rel hr => exact .rel hr

theorem WordLt.snoc {s t : List Char} (h : WordLt s t) (c d : Char) :
    WordLt (s ++ [c]) (t ++ [d]) := by
  rcases List.shortlex_def.1 h with hl | ⟨hl, hx⟩
  · exact .of_length_lt (by simpa using hl)
  · exact .of_lex (by simpa using hl) (lex_append_of_length_eq hx hl [c] [d])

theorem wordLt_letterDigits {m n : Nat} (h : m < n) : WordLt (letterDigits m) (letterDigits n) := by
  induction n using Nat.strongRecOn generalizing m with
  | ind n ih =>
    cases n with
    | zero => omega
    | succ n =>
      cases m with
      | zero => exact .of_length_lt (by simp [letterDigits])
      | succ m =>
        rw [letterDigits, letterDigits]
        -- what stands before the last digits decides, and where it is the same the last digits do
        by_cases hq : m / 26 < n / 26
        · exact (ih (n / 26) (by omega) hq).snoc _ _
        · have hq : m / 26 = n / 26 := by omega
          have hr : letter (m % 26) < letter (n % 26) := letter_lt_letter (by omega) (by omega)
          rw [hq]
          exact List.Shortlex.append_left ((List.shortlex_singleton_iff _ _).2 hr) _

theorem wordLt_letterDigits_iff {m n : Nat} :
    WordLt (letterDigits m) (letterDigits n) ↔ m < n := by
  refine ⟨fun h => ?_, wordLt_letterDigits⟩
  rcases Nat.lt_trichotomy m n with hlt | rfl | hgt
  · exact hlt
  · exact absurd h (Std.Asymm.asymm _ _ h)
  · exact absurd h (Std.Asymm.asymm _ _ (wordLt_letterDigits hgt))

/-- The `n`-th name is the numeral of `n`: names come in the order of their indices, no name comes
twice, and every word over `a`, …, `z` is the name of the number it stands for. -/
theorem letters_numeration :
    (∀ i j, i < j ↔ WordLt (letters i).toList (letters j).toList) ∧
      Function.Injective letters ∧
      (∀ n, IsLetterWord (letters n).toList ∧ wordValue (letters n).toList = n) ∧
      ∀ w : String, IsLetterWord w.toList → letters (wordValue w.toList) = w := by
  have htoList : ∀ n, (letters n).toList = letterDigits n := fun n => String.toList_ofList
  simp only [htoList]
  refine ⟨fun i j => wordLt_letterDigits_iff.symm, fun _ _ => letters_injective,
    fun n => ⟨isLetterWord_letterDigits n, wordValue_letterDigits n⟩, fun w hw => ?_⟩
  rw [letters, letterDigits_wordValue hw, String.ofList_toList]

/-- The name of the largest 64-bit index. -/
theorem letters_largest_index :
    IsLetterWord "gkgwbylwrxtlpo".toList ∧ wordValue "gkgwbylwrxtlpo".toList = UInt64.size - 1 ∧
      letters (UInt64.size - 1) = "gkgwbylwrxtlpo" := by
  have hw : IsLetterWord "gkgwbylwrxtlpo".toList := by decide
  have hv : wordValue "gkgwbylwrxtlpo".toList = UInt64.size - 1 := by decide
  exact ⟨hw, hv, hv ▸ letters_numeration.2.2.2 _ hw⟩

example : (letters 702, letters 703) = ("zz", "aaa") := by cbv

end LetPoly
