import Mathlib.Tactic.SplitIfs

set_option autoImplicit false

namespace LetPoly.Text

def bytes (s : String) : List UInt8 := s.toUTF8.data.toList

theorem bytes_ofList (cs : List Char) :
    bytes (String.ofList cs) = cs.flatMap String.utf8EncodeChar := by
  rw [bytes, String.toUTF8_eq_toByteArray, String.toByteArray_ofList]
  exact List.toList_data_toByteArray

theorem cons_lt_cons_ofNat {m n : Nat} (hm : m < 256) (hn : n < 256) {xs ys : List UInt8} :
    UInt8.ofNat m :: xs < UInt8.ofNat n :: ys ↔ m < n ∨ m = n ∧ xs < ys := by
  rw [List.cons_lt_cons_iff, UInt8.lt_iff_toNat_lt, ← UInt8.toNat_inj,
    UInt8.toNat_ofNat_of_lt' hm, UInt8.toNat_ofNat_of_lt' hn]

theorem utf8EncodeChar_append_lt {c d : Char} (h : c < d) (xs ys : List UInt8) :
    String.utf8EncodeChar c ++ xs < String.utf8EncodeChar d ++ ys := by
  have hlt : c.val.toNat < d.val.toNat := UInt32.lt_iff_toNat_lt.1 h
  have hd : d.val.toNat < 1114112 := by
    have hvalid := d.valid
    simp only [UInt32.isValidChar, Nat.isValidChar] at hvalid
    omega
  -- the digits of a code to the base 64, each one from the quotient before
  have h₂ : ∀ k : Nat, k / 4096 = k / 64 / 64 := fun k => by omega
  have h₃ : ∀ k : Nat, k / 262144 = k / 64 / 64 / 64 := fun k => by omega
  simp only [String.utf8EncodeChar, h₂, h₃]
  generalize c.val.toNat = m at *
  generalize d.val.toNat = n at *
  split_ifs <;>
    simp (disch := omega) only [List.cons_append, List.nil_append, cons_lt_cons_ofNat] <;> omega

theorem flatMap_utf8EncodeChar_lt {cs ds : List Char} (h : cs < ds) :
    cs.flatMap String.utf8EncodeChar < ds.flatMap String.utf8EncodeChar := by
  induction cs generalizing ds with
  | nil =>
    cases ds with
    | nil => exact absurd h (List.lt_irrefl [])
    | cons d ds =>
      have hne : (d :: ds).flatMap String.utf8EncodeChar ≠ [] := by simp
      obtain ⟨x, xs, hx⟩ := List.exists_cons_of_ne_nil hne
      rw [hx]
      exact List.nil_lt_cons x xs
  | cons c cs ih =>
    cases ds with
    | nil => exact absurd h (List.not_lt_nil _)
    | cons d ds =>
      rw [List.flatMap_cons, List.flatMap_cons]
      rcases List.cons_lt_cons_iff.1 h with hc | ⟨rfl, hcs⟩
      · exact utf8EncodeChar_append_lt hc _ _
      · exact List.append_left_lt (ih hcs)

theorem bytes_lt_bytes {s t : String} (h : s < t) : bytes s < bytes t := by
  rw [← String.ofList_toList (s := s), ← String.ofList_toList (s := t), bytes_ofList, bytes_ofList]
  exact flatMap_utf8EncodeChar_lt (String.lt_iff.1 h)

/-- From the byte offset `n` on, the text goes on with `w`. -/
def StandsAt (src : String) (n : Nat) (w : String) : Prop :=
  ∃ (p : src.Pos) (before after : String), p.offset.byteIdx = n ∧ p.Splits before (w ++ after)

theorem standsAt_of_append {src before w after : String} (h : src = before ++ (w ++ after)) :
    StandsAt src before.utf8ByteSize w := by
  subst h
  exact ⟨⟨before.rawEndPos, String.Pos.Raw.isValid_iff_exists_append.2 ⟨_, _, rfl, rfl⟩⟩, before,
    after, rfl, rfl, rfl⟩

theorem StandsAt.get {src : String} {n : Nat} {c : Char}
    (h : StandsAt src n (String.singleton c)) :
    ∃ (p : src.Pos) (hp : p ≠ src.endPos), p.offset.byteIdx = n ∧ p.get hp = c := by
  obtain ⟨p, before, after, hn, hs⟩ := h
  have hp : p ≠ src.endPos := hs.ne_endPos_of_singleton
  obtain ⟨rest, hrest⟩ := hs.exists_eq_singleton_append hp
  refine ⟨p, hp, hn, ?_⟩
  have hlist : c :: after.toList = p.get hp :: rest.toList := by
    simpa using congrArg String.toList hrest
  exact (List.cons.inj hlist).1.symm

end LetPoly.Text
