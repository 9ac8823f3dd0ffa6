import LetPoly.Proofs.Json.Text
import LetPoly.Proofs.Number.Exact
import LetPoly.Proofs.Text.Quoted

set_option autoImplicit false

namespace LetPoly

open Json (isWordChar Breaks)

theorem Text.run_cancel {p : Char → Bool} {w v r s : List Char} (hw : ∀ c ∈ w, p c = true)
    (hv : ∀ c ∈ v, p c = true) (hr : ∀ c ∈ r.head?, p c = false) (hs : ∀ c ∈ s.head?, p c = false)
    (h : w ++ r = v ++ s) : w = v ∧ r = s := by
  have ht := congrArg (List.takeWhile p) h
  have hd := congrArg (List.dropWhile p) h
  rw [takeWhile_append hw hr, takeWhile_append hv hs] at ht
  rw [dropWhile_append hw hr, dropWhile_append hv hs] at hd
  exact ⟨ht, hd⟩

namespace FloatFormat

variable (f : FloatFormat)

theorem toInt?_set (negative : Bool) {ds : List Char} (hds : ds ≠ []) (p : Int) :
    (f.set negative ds p).toInt? = none := by
  have hmark : (f.set negative ds p).fraction ≠ [] ∨ (f.set negative ds p).exponent ≠ none := by
    unfold set
    split
    · left
      split
      · exact fun h => hds (List.append_eq_nil_iff.1 h).2
      · dsimp only
        split
        · simp
        · assumption
    · exact .inr (by simp)
  unfold Numeral.toInt?
  exact if_pos (by rw [← or_assoc]; exact .inl hmark)

theorem toInt?_ofDecimal (negative : Bool) (d : Nat) (e : Int) :
    (f.ofDecimal negative d e).toInt? = none := by
  refine f.toInt?_set negative ?_ _
  split
  · simp
  · assumption

theorem toInt?_shortest (x : Binary64) : (f.shortest x).toInt? = none := by
  unfold shortest
  split
  · exact f.toInt?_set _ (by simp) 0
  · cases hc : (f.candidates x).find? (·.nearest? = some x) with
    | none => exact f.toInt?_ofDecimal ..
    | some n =>
      obtain ⟨d, e, rfl⟩ := f.exists_ofDecimal_of_mem (List.mem_of_find?_eq_some hc)
      exact f.toInt?_ofDecimal ..

end FloatFormat

namespace Literal

def isPlain : Literal → Bool
  | .float x => x.isFinite
  | _ => true

def ofNumeral? (n : Numeral) : Option Literal :=
  match n.toInt? with
  | some i => some (.int (Int64.ofInt i))
  | none => n.nearest?.map .float

theorem ofNumeral?_ofInt (n : Int64) : ofNumeral? (.ofInt n.toInt) = some (.int n) := by
  simp [ofNumeral?, Numeral.toInt?_ofInt]

theorem ofNumeral?_shortest {x : Binary64} (hx : x.isFinite = true) :
    ofNumeral? (floatFormat.shortest x) = some (.float x) := by
  simp [ofNumeral?, FloatFormat.toInt?_shortest, FloatFormat.nearest?_shortest _ hx]

theorem ne_unit_of_ofNumeral? {n : Numeral} {l : Literal} (h : ofNumeral? n = some l) :
    l ≠ .unit := by
  rintro rfl
  unfold ofNumeral? at h
  split at h <;> simp at h

theorem floatText_of_isFinite {x : Binary64} (hx : x.isFinite = true) :
    floatText x = (floatFormat.shortest x).text false := by
  have hnan : x.isNaN = false := by
    simp only [Binary64.isFinite, decide_eq_true_eq] at hx
    simp only [Binary64.isNaN, decide_eq_false_iff_not]
    omega
  simp [floatText, hnan, hx]

/-- A literal is a numeral that writes it, a string or the unit. -/
theorem forms {l : Literal} (hl : l.isPlain = true) :
    (∃ n : Numeral, n.Proper ∧ l.text.toList = n.chars false ∧ ofNumeral? n = some l) ∨
      (∃ s, l = .string s) ∨ l = .unit := by
  cases l with
  | int n =>
    exact .inl ⟨_, Numeral.proper_ofInt _, String.toList_ofList, ofNumeral?_ofInt n⟩
  | float x =>
    refine .inl ⟨_, FloatFormat.proper_shortest _ x, ?_, ofNumeral?_shortest hl⟩
    rw [text, floatText_of_isFinite hl]
    exact String.toList_ofList
  | string s => exact .inr (.inl ⟨s, rfl⟩)
  | unit => exact .inr (.inr rfl)

theorem numeral_cancel {n m : Numeral} {r s : List Char} (hn : n.Proper) (hm : m.Proper)
    (hr : Breaks r) (hs : Breaks s) (h : n.chars false ++ r = m.chars false ++ s) :
    n = m ∧ r = s := by
  obtain ⟨hc, hrest⟩ := Text.run_cancel (fun _ => Json.isWordChar_of_mem_chars hn)
    (fun _ => Json.isWordChar_of_mem_chars hm) hr hs h
  have hread := Numeral.read?_chars false hn
  rw [hc, Numeral.read?_chars false hm] at hread
  exact ⟨(Option.some.inj hread).symm, hrest⟩

theorem numeral_ne_cons {n : Numeral} (hn : n.Proper) {c : Char} (hc : isWordChar c = false)
    (r s : List Char) : n.chars false ++ r ≠ c :: s := by
  obtain ⟨d, w, he, -⟩ := Json.exists_lead_chars hn false
  intro h
  rw [he, List.cons_append, List.cons.injEq] at h
  have hd : isWordChar d = true := Json.isWordChar_of_mem_chars hn (he ▸ List.mem_cons_self)
  rw [h.1, hc] at hd
  cases hd

theorem text_string_ne_cons (t : String) {c : Char} (hc : c ≠ '"') (r s : List Char) :
    (text (.string t)).toList ++ r ≠ c :: s := by
  rw [text, Text.toList_quoted, List.cons_append]
  exact fun h => hc (List.cons.inj h).1.symm

theorem toList_text_unit : (text .unit).toList = ['(', ')'] := rfl

theorem cancel {l m : Literal} {r s : List Char} (hl : l.isPlain = true) (hm : m.isPlain = true)
    (hr : Breaks r) (hs : Breaks s) (h : l.text.toList ++ r = m.text.toList ++ s) :
    l = m ∧ r = s := by
  obtain ⟨n, hn, hnl, hlit⟩ | ⟨t, rfl⟩ | rfl := forms hl <;>
    obtain ⟨k, hk, hkm, hlit'⟩ | ⟨u, rfl⟩ | rfl := forms hm
  · rw [hnl, hkm] at h
    obtain ⟨rfl, rfl⟩ := numeral_cancel hn hk hr hs h
    rw [hlit, Option.some.injEq] at hlit'
    exact ⟨hlit', rfl⟩
  · rw [hnl, text, Text.toList_quoted] at h
    exact absurd h (numeral_ne_cons hn (by decide) _ _)
  · rw [hnl] at h
    exact absurd h (numeral_ne_cons hn (by decide) _ _)
  · rw [hkm, text, Text.toList_quoted] at h
    exact absurd h.symm (numeral_ne_cons hk (by decide) _ _)
  · obtain ⟨hc, rfl⟩ := Text.quoted_cancel h
    exact ⟨by rw [String.toList_injective hc], rfl⟩
  · exact absurd h (text_string_ne_cons t (by decide) _ _)
  · rw [hkm] at h
    exact absurd h.symm (numeral_ne_cons hk (by decide) _ _)
  · exact absurd h.symm (text_string_ne_cons u (by decide) _ _)
  · exact ⟨rfl, List.append_cancel_left h⟩

end Literal

end LetPoly
