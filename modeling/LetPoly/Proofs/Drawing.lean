import LetPoly.Proofs.Supply
import Mathlib.Data.List.Count
import Mathlib.Data.List.Nodup
import Mathlib.Data.List.Perm.Subperm

set_option autoImplicit false

namespace LetPoly

/-- The search for a name by its rounds: each takes the next index, and the reserved names stay as
they are. -/
inductive Finds (R : NameSet) : Nat → Nat → Prop
  | found {n : Nat} : letters (n + 1) ∉ R → Finds R n (n + 1)
  | skip {n m : Nat} : letters (n + 1) ∈ R → Finds R (n + 1) m → Finds R n m

theorem finds_of_first {R : NameSet} {d n : Nat} (hfree : letters (n + 1 + d) ∉ R)
    (hbetween : ∀ k, n < k → k < n + 1 + d → letters k ∈ R) : Finds R n (n + 1 + d) := by
  induction d generalizing n with
  | zero => exact .found hfree
  | succ d ih =>
    rw [show n + 1 + (d + 1) = n + 1 + 1 + d by omega] at *
    exact .skip (hbetween _ (by omega) (by omega)) (ih hfree fun k hk => hbetween k (by omega))

theorem finds_iff_first {R : NameSet} {n m : Nat} :
    Finds R n m ↔ n < m ∧ letters m ∉ R ∧ ∀ k, n < k → k < m → letters k ∈ R := by
  constructor
  · intro h
    induction h with
    | @found n hn => exact ⟨by omega, hn, fun k _ _ => by omega⟩
    | @skip n m hn _ ih =>
      obtain ⟨hlt, hm, hbetween⟩ := ih
      refine ⟨by omega, hm, fun k hk hkm => ?_⟩
      by_cases he : k = n + 1
      · exact he ▸ hn
      · exact hbetween k (by omega) hkm
  · rintro ⟨hlt, hm, hbetween⟩
    obtain ⟨d, rfl⟩ : ∃ d, m = n + 1 + d := ⟨m - (n + 1), by omega⟩
    exact finds_of_first hm hbetween

/-- Round by round the search ends at the index at which it ends when the names that it meets are
struck off, and at no other. -/
theorem finds_iff {R : NameSet} {n m : Nat} : Finds R n m ↔ nextIndex R n = m := by
  have hlt := lt_nextIndex R n
  have hfree := letters_nextIndex_not_mem R n
  rw [finds_iff_first]
  constructor
  · rintro ⟨hnm, hm, hbetween⟩
    rcases Nat.lt_trichotomy (nextIndex R n) m with h | h | h
    · exact absurd (hbetween _ hlt h) hfree
    · exact h
    · exact absurd (letters_mem_of_lt_nextIndex hnm h) hm
  · rintro rfl
    exact ⟨hlt, hfree, fun k => letters_mem_of_lt_nextIndex⟩

/-- One search after the other, from the index `n` on. -/
inductive Draws (R : NameSet) : Nat → List String → Nat → Prop
  | done {n : Nat} : Draws R n [] n
  | next {n m l : Nat} {names : List String} :
      Finds R n m → Draws R m names l → Draws R n (letters m :: names) l

def namesBetween (m n : Nat) : List String := (List.range' (m + 1) (n - m)).map letters

@[simp] theorem namesBetween_self (n : Nat) : namesBetween n n = [] := by
  simp [namesBetween]

@[simp] theorem length_namesBetween (m n : Nat) : (namesBetween m n).length = n - m := by
  simp [namesBetween]

theorem mem_namesBetween {m n : Nat} {v : String} :
    v ∈ namesBetween m n ↔ ∃ k, m < k ∧ k ≤ n ∧ letters k = v := by
  simp only [namesBetween, List.mem_map, List.mem_range'_1]
  constructor
  · rintro ⟨k, hk, rfl⟩
    exact ⟨k, by omega, by omega, rfl⟩
  · rintro ⟨k, hm, hn, rfl⟩
    exact ⟨k, by omega, rfl⟩

theorem namesBetween_append {l m n : Nat} (hl : l ≤ m) (hm : m ≤ n) :
    namesBetween l m ++ namesBetween m n = namesBetween l n := by
  obtain ⟨a, rfl⟩ := Nat.exists_eq_add_of_le hl
  obtain ⟨b, rfl⟩ := Nat.exists_eq_add_of_le hm
  have hr := List.range'_append_1 (s := l + 1) (m := a) (n := b)
  rw [namesBetween, namesBetween, namesBetween, ← List.map_append,
    show l + a - l = a by omega, show l + a + b - (l + a) = b by omega,
    show l + a + b - l = a + b by omega, show l + a + 1 = l + 1 + a by omega, hr]

theorem namesBetween_succ {m n : Nat} (h : m ≤ n) :
    namesBetween m (n + 1) = namesBetween m n ++ [letters (n + 1)] := by
  rw [← namesBetween_append h (Nat.le_succ n)]
  simp [namesBetween]

theorem nodup_namesBetween (m n : Nat) : (namesBetween m n).Nodup :=
  List.Nodup.map (fun _ _ h => letters_injective h) List.nodup_range'

theorem filter_namesBetween_nextIndex (R : NameSet) (n : Nat) :
    (namesBetween n (nextIndex R n)).filter (· ∉ R) = [letters (nextIndex R n)] := by
  have hlt := lt_nextIndex R n
  obtain ⟨j, hj⟩ : ∃ j, nextIndex R n = j + 1 := ⟨nextIndex R n - 1, by omega⟩
  have hskipped : (namesBetween n j).filter (· ∉ R) = [] := by
    rw [List.filter_eq_nil_iff]
    intro v hv
    obtain ⟨k, hk, hkj, rfl⟩ := mem_namesBetween.1 hv
    have hr : letters k ∈ R := letters_mem_of_lt_nextIndex hk (by omega)
    simpa using hr
  have hfree : letters (j + 1) ∉ R := hj ▸ letters_nextIndex_not_mem R n
  rw [hj, namesBetween_succ (by omega), List.filter_append, hskipped]
  simp [hfree]

namespace NameSupply

theorem draw_eq_filter (k : Nat) (ν : NameSupply) :
    (draw k ν).1 = (namesBetween ν.issued (draw k ν).2.issued).filter (· ∉ ν.reserved) := by
  induction k generalizing ν with
  | zero =>
    show [] = (namesBetween ν.issued ν.issued).filter _
    rw [namesBetween_self, List.filter_nil]
  | succ k ih =>
    have hfresh := (reaches_fresh ν).issued
    have hrest := (reaches_draw k (fresh ν).2).issued
    rw [draw_succ, ih, ← namesBetween_append hfresh hrest, List.filter_append]
    exact congrArg (· ++ _) (filter_namesBetween_nextIndex ν.reserved ν.issued).symm

theorem draws_draw (k : Nat) (ν : NameSupply) :
    Draws ν.reserved ν.issued (draw k ν).1 (draw k ν).2.issued := by
  induction k generalizing ν with
  | zero => exact .done
  | succ k ih => exact .next (finds_iff.2 rfl) (ih (fresh ν).2)

theorem getLast?_draw_succ (k : Nat) (ν : NameSupply) :
    (draw (k + 1) ν).1.getLast? = some (letters (draw (k + 1) ν).2.issued) := by
  induction k generalizing ν with
  | zero => rfl
  | succ k ih =>
    rw [draw_succ, List.getLast?_cons, ih]
    rfl

/-- The names `names` are the first `k` in order that are not in `R`, and `n` is the index of the
last of them. -/
structure FirstUnreserved (R : NameSet) (k : Nat) (names : List String) (n : Nat) : Prop where
  length : names.length = k
  searched : Draws R 0 names n
  inOrder : names = (namesBetween 0 n).filter (· ∉ R)
  distinct : names.Nodup
  start : k = 0 → n = 0
  last : 0 < k → names.getLast? = some (letters n)
  skipped : n = k + ((namesBetween 0 n).filter (· ∈ R)).length
  bounded : n ≤ k + R.size

theorem length_filter_reserved_le (R : NameSet) (m n : Nat) :
    ((namesBetween m n).filter (· ∈ R)).length ≤ R.size := by
  rw [← NameMap.length_keys]
  refine List.Subperm.length_le (List.subperm_of_subset ((nodup_namesBetween m n).filter _) ?_)
  intro v hv
  simpa [NameMap.mem_keys] using (List.mem_filter.1 hv).2

/-- Drawing from a supply that avoids `R` gives the first names that are not in `R`. It passes over
no more names than are in `R`, and counts those that it passes over. -/
theorem draw_avoiding_firstUnreserved (R : NameSet) (k : Nat) :
    FirstUnreserved R k (draw k (avoiding R)).1 (draw k (avoiding R)).2.issued := by
  have hnames : _ = (namesBetween 0 _).filter (· ∉ R) := draw_eq_filter k (avoiding R)
  have hlength := length_draw k (avoiding R)
  generalize hn : (draw k (avoiding R)).2.issued = n at hnames ⊢
  have hcount : n = k + ((namesBetween 0 n).filter (· ∈ R)).length := by
    have hsplit := List.length_eq_length_filter_add (l := namesBetween 0 n) (· ∉ R)
    rw [length_namesBetween, ← hnames, hlength] at hsplit
    simpa using hsplit
  refine ⟨hlength, hn ▸ draws_draw k (avoiding R), hnames, nodup_draw k _, fun hk => ?_,
    fun hk => ?_, hcount, ?_⟩
  · subst hk
    exact hn.symm
  · obtain ⟨j, rfl⟩ : ∃ j, k = j + 1 := ⟨k - 1, by omega⟩
    rw [getLast?_draw_succ, hn]
  · have := length_filter_reserved_le R 0 n
    omega

example : draw 2 (avoiding (.ofNames ["a", "c"])) = (["b", "d"], ⟨4, .ofNames ["a", "c"]⟩) := by
  cbv

end NameSupply

end LetPoly
