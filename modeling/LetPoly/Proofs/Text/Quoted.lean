import LetPoly.Text.Quoted
import LetPoly.Proofs.Json.Numeral

set_option autoImplicit false

namespace LetPoly.Text

def hexNumber (ds : List Char) : Nat := ds.foldl (fun n c => 16 * n + (hexValue? c).getD 0) 0

theorem hexValue?_digitChar {n : Nat} (h : n < 16) : hexValue? n.digitChar = some n := by
  have : ∀ m : Fin 16, hexValue? m.val.digitChar = some m.val := by decide
  exact this ⟨n, h⟩

theorem hexNumber_hexDigits (n : Nat) : hexNumber (hexDigits n) = n := by
  induction n using Nat.strongRecOn with
  | ind n ih =>
    unfold hexDigits hexNumber at ih ⊢
    rw [Nat.toDigits_eq_if (by decide)]
    by_cases h : n < 16
    · simp [h, hexValue?_digitChar h]
    · have hmod := hexValue?_digitChar (Nat.mod_lt n (by decide : 0 < 16))
      rw [if_neg h, List.foldl_append, ih (n / 16) (by omega)]
      simpa [hmod] using Nat.div_add_mod n 16

theorem isSome_hexValue?_of_mem {n : Nat} {c : Char} (h : c ∈ hexDigits n) :
    (hexValue? c).isSome = true := by
  induction n using Nat.strongRecOn with
  | ind n ih =>
    unfold hexDigits at ih h
    rw [Nat.toDigits_eq_if (by decide)] at h
    by_cases hn : n < 16
    · rw [if_pos hn, List.mem_singleton] at h
      rw [h, hexValue?_digitChar hn]
      rfl
    · rw [if_neg hn, List.mem_append, List.mem_singleton] at h
      obtain h | rfl := h
      · exact ih (n / 16) (by omega) h
      · rw [hexValue?_digitChar (Nat.mod_lt n (by decide))]
        rfl

def unquoteChar? : List Char → Option (Char × List Char)
  | '\\' :: 'u' :: '\x7b' :: cs =>
    let digits := cs.takeWhile (· ≠ '\x7d')
    some (Char.ofNat (hexNumber digits), (cs.dropWhile (· ≠ '\x7d')).tail)
  | '\\' :: '0' :: cs => some ('\x00', cs)
  | '\\' :: 't' :: cs => some ('\t', cs)
  | '\\' :: 'r' :: cs => some ('\r', cs)
  | '\\' :: 'n' :: cs => some ('\n', cs)
  | '\\' :: c :: cs => some (c, cs)
  | c :: cs => some (c, cs)
  | [] => none

theorem unquoteChar?_code (c : Char) (rest : List Char) :
    unquoteChar? (['\\', 'u', '\x7b'] ++ hexDigits c.toNat ++ ['\x7d'] ++ rest) =
      some (c, rest) := by
  have hdigits : ∀ d ∈ hexDigits c.toNat, decide (d ≠ '\x7d') = true := by
    intro d hd
    have := isSome_hexValue?_of_mem hd
    refine decide_eq_true fun he => ?_
    subst he
    cases this
  have hstop : ∀ d ∈ ('\x7d' :: rest).head?, decide (d ≠ '\x7d') = false := by simp
  simp only [List.cons_append, List.nil_append, List.append_assoc, unquoteChar?,
    takeWhile_append hdigits hstop, dropWhile_append hdigits hstop, hexNumber_hexDigits,
    Char.ofNat_toNat, List.tail_cons]

theorem unquoteChar?_quotedChar (c : Char) (rest : List Char) :
    unquoteChar? (quotedChar '"' c ++ rest) = some (c, rest) := by
  unfold quotedChar
  iterate 4
    split
    · subst_vars
      rfl
  split
  · rename_i h
    obtain rfl | rfl := h <;> rfl
  split
  · exact unquoteChar?_code c rest
  · rename_i h _
    rw [not_or] at h
    simp [unquoteChar?, h]

theorem quotedChar_cancel {c d : Char} {r s : List Char}
    (h : quotedChar '"' c ++ r = quotedChar '"' d ++ s) : c = d ∧ r = s := by
  have hc := unquoteChar?_quotedChar c r
  rw [h, unquoteChar?_quotedChar d s] at hc
  simpa [eq_comm] using hc

theorem quotedChar_ne_quote (c : Char) (r s : List Char) :
    quotedChar '"' c ++ r ≠ '"' :: s := by
  intro h
  have hc := unquoteChar?_quotedChar c r
  rw [h] at hc
  obtain ⟨rfl, rfl⟩ : '"' = c ∧ s = r := by simpa [unquoteChar?] using hc
  simp [quotedChar] at h

theorem flatMap_quotedChar_cancel {cs ds r s : List Char}
    (h : cs.flatMap (quotedChar '"') ++ '"' :: r = ds.flatMap (quotedChar '"') ++ '"' :: s) :
    cs = ds ∧ r = s := by
  induction cs generalizing ds with
  | nil =>
    cases ds with
    | nil => simpa using h
    | cons d ds =>
      rw [List.flatMap_nil, List.flatMap_cons, List.append_assoc] at h
      exact absurd h.symm (quotedChar_ne_quote d _ _)
  | cons c cs ih =>
    cases ds with
    | nil =>
      rw [List.flatMap_nil, List.flatMap_cons, List.append_assoc] at h
      exact absurd h (quotedChar_ne_quote c _ _)
    | cons d ds =>
      rw [List.flatMap_cons, List.flatMap_cons, List.append_assoc, List.append_assoc] at h
      obtain ⟨rfl, hrest⟩ := quotedChar_cancel h
      obtain ⟨rfl, rfl⟩ := ih hrest
      exact ⟨rfl, rfl⟩

theorem toList_quoted (cs : List Char) :
    (quoted '"' cs).toList = '"' :: (cs.flatMap (quotedChar '"') ++ ['"']) := by
  simp [quoted]

theorem quoted_cancel {cs ds r s : List Char}
    (h : (quoted '"' cs).toList ++ r = (quoted '"' ds).toList ++ s) : cs = ds ∧ r = s := by
  simp only [toList_quoted, List.cons_append, List.append_assoc, List.cons.injEq, true_and,
    List.nil_append] at h
  exact flatMap_quotedChar_cancel h

end LetPoly.Text
