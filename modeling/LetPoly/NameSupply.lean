import LetPoly.NameMap

set_option autoImplicit false

namespace LetPoly

def letter (d : Nat) : Char := Char.ofNat (97 + d)

/-- Numeration with the digits 1 to 26 and no zero, most significant digit first. -/
def letterDigits : Nat → List Char
  | 0 => []
  | n + 1 => letterDigits (n / 26) ++ [letter (n % 26)]
termination_by n => n
decreasing_by exact Nat.lt_succ_of_le (Nat.div_le_self _ _)

/-- The `n`-th name, counted from 1. -/
def letters (n : Nat) : String := String.ofList (letterDigits n)

theorem letter_injective {c d : Nat} (hc : c < 26) (hd : d < 26) (h : letter c = letter d) :
    c = d := by
  have : ∀ x y : Fin 26, letter x = letter y → x = y := by decide
  exact Fin.mk.inj (this ⟨c, hc⟩ ⟨d, hd⟩ h)

theorem letterDigits_injective {m n : Nat} (h : letterDigits m = letterDigits n) : m = n := by
  induction m using Nat.strongRecOn generalizing n with
  | ind m ih =>
    cases m with
    | zero => cases n <;> simp_all [letterDigits]
    | succ m =>
      cases n with
      | zero => simp [letterDigits] at h
      | succ n =>
        rw [letterDigits, letterDigits] at h
        obtain ⟨hq, hr⟩ := List.append_inj' h rfl
        have := ih (m / 26) (Nat.lt_succ_of_le (Nat.div_le_self _ _)) hq
        have := letter_injective (Nat.mod_lt _ (by decide)) (Nat.mod_lt _ (by decide))
          (List.cons.inj hr).1
        omega

theorem letters_injective {m n : Nat} (h : letters m = letters n) : m = n :=
  letterDigits_injective (String.ofList_injective h)

/-- The first index after `n` whose name is not reserved. A reserved name that was met is struck
off: no later index has it, and the search ends since each step strikes one. -/
def nextIndex (reserved : NameSet) (n : Nat) : Nat :=
  if _ : letters (n + 1) ∈ reserved then nextIndex (reserved.erase (letters (n + 1))) (n + 1)
  else n + 1
termination_by reserved.size
decreasing_by exact NameMap.size_erase_lt ‹_›

theorem lt_nextIndex (reserved : NameSet) (n : Nat) : n < nextIndex reserved n := by
  fun_induction nextIndex reserved n with
  | case1 reserved n _ ih => omega
  | case2 => omega

theorem letters_nextIndex_not_mem (reserved : NameSet) (n : Nat) :
    letters (nextIndex reserved n) ∉ reserved := by
  fun_induction nextIndex reserved n with
  | case1 reserved n _ ih =>
    intro h
    have := lt_nextIndex (reserved.erase (letters (n + 1))) (n + 1)
    refine ih ?_
    rw [NameMap.mem_erase]
    exact ⟨h, fun he => by have := letters_injective he; omega⟩
  | case2 => assumption

theorem letters_mem_of_lt_nextIndex {reserved : NameSet} {n k : Nat} (hn : n < k)
    (hk : k < nextIndex reserved n) : letters k ∈ reserved := by
  fun_induction nextIndex reserved n with
  | case1 reserved n h ih =>
    by_cases he : k = n + 1
    · exact he ▸ h
    · exact (NameMap.mem_erase.1 (ih (by omega) hk)).1
  | case2 => omega

structure NameSupply where
  /-- The index of the last name looked at; reserved names count. -/
  issued : Nat
  reserved : NameSet
  deriving DecidableEq

namespace NameSupply

def new : NameSupply := ⟨0, ∅⟩

def avoiding (reserved : NameSet) : NameSupply := ⟨0, reserved⟩

instance : Inhabited NameSupply := ⟨new⟩

def fresh : StateM NameSupply String := fun ν =>
  let n := nextIndex ν.reserved ν.issued
  (letters n, { ν with issued := n })

def draw : Nat → StateM NameSupply (List String)
  | 0 => pure []
  | k + 1 => do
    let v ← fresh
    return v :: (← draw k)

end NameSupply

end LetPoly
