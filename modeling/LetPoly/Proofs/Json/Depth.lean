import LetPoly.Json.Reader

set_option autoImplicit false

namespace LetPoly.Json

mutual
/-- Levels of arrays and objects, empty ones included. -/
def depth : Json → Nat
  | .array js => itemsDepth js + 1
  | .object fs => fieldsDepth fs + 1
  | _ => 0

def itemsDepth : List Json → Nat
  | [] => 0
  | j :: js => max j.depth (itemsDepth js)

def fieldsDepth : List (Option String × Json) → Nat
  | [] => 0
  | (_, j) :: fs => max j.depth (fieldsDepth fs)
end

@[simp] theorem depth_null : null.depth = 0 := by simp [depth]

@[simp] theorem depth_number (n : Numeral) : (number n).depth = 0 := by simp [depth]

@[simp] theorem depth_string (s : String) : (string s).depth = 0 := by simp [depth]

@[simp] theorem depth_array (js : List Json) : (array js).depth = itemsDepth js + 1 := by
  simp [depth]

@[simp] theorem depth_object (fs : List (Option String × Json)) :
    (object fs).depth = fieldsDepth fs + 1 := by
  simp [depth]

@[simp] theorem itemsDepth_nil : itemsDepth [] = 0 := by simp [itemsDepth]

@[simp] theorem itemsDepth_cons (j : Json) (js : List Json) :
    itemsDepth (j :: js) = max j.depth (itemsDepth js) := by
  simp [itemsDepth]

@[simp] theorem fieldsDepth_nil : fieldsDepth [] = 0 := by simp [fieldsDepth]

@[simp] theorem fieldsDepth_cons (k : Option String) (j : Json)
    (fs : List (Option String × Json)) :
    fieldsDepth ((k, j) :: fs) = max j.depth (fieldsDepth fs) := by
  simp [fieldsDepth]

@[simp] theorem depth_tagged (tag : String) (j : Json) : (tagged tag j).depth = j.depth + 1 := by
  simp [tagged]

theorem depth_le_fieldsDepth {fs : List (Option String × Json)} {k : Option String} {j : Json}
    (h : (k, j) ∈ fs) : j.depth ≤ fieldsDepth fs := by
  induction fs with
  | nil => cases h
  | cons f fs ih =>
    obtain ⟨k', j'⟩ := f
    rw [fieldsDepth_cons]
    obtain h | h := List.mem_cons.1 h
    · cases h
      omega
    · have := ih h
      omega

mutual
theorem depth_cut_le : (n : Nat) → (j : Json) → (j.cut n).depth ≤ n
  | _, .null | _, .bool _ | _, .number _ | _, .string _ | _, .unreadable => by simp [cut, depth]
  | 0, .array _ | 0, .object _ => by simp [cut, depth]
  | n + 1, .array js => by simpa [cut] using itemsDepth_cutItems_le n js
  | n + 1, .object fs => by simpa [cut] using fieldsDepth_cutFields_le n fs

theorem itemsDepth_cutItems_le (n : Nat) : (js : List Json) → itemsDepth (cutItems n js) ≤ n
  | [] => by simp [cutItems]
  | j :: js => by
    rw [cutItems, itemsDepth_cons]
    exact Nat.max_le.2 ⟨depth_cut_le n j, itemsDepth_cutItems_le n js⟩

theorem fieldsDepth_cutFields_le (n : Nat) :
    (fs : List (Option String × Json)) → fieldsDepth (cutFields n fs) ≤ n
  | [] => by simp [cutFields]
  | (_, j) :: fs => by
    rw [cutFields, fieldsDepth_cons]
    exact Nat.max_le.2 ⟨depth_cut_le n j, fieldsDepth_cutFields_le n fs⟩
end

mutual
theorem cut_eq_self : (n : Nat) → (j : Json) → j.depth ≤ n → j.cut n = j
  | _, .null, _ | _, .bool _, _ | _, .number _, _ | _, .string _, _ | _, .unreadable, _ => by
    simp [cut]
  | 0, .array _, h | 0, .object _, h => by simp at h
  | n + 1, .array js, h => by
    rw [depth_array] at h
    rw [cut, cutItems_eq_self n js (by omega)]
  | n + 1, .object fs, h => by
    rw [depth_object] at h
    rw [cut, cutFields_eq_self n fs (by omega)]

theorem cutItems_eq_self (n : Nat) :
    (js : List Json) → itemsDepth js ≤ n → cutItems n js = js
  | [], _ => by rw [cutItems]
  | j :: js, h => by
    rw [itemsDepth_cons] at h
    rw [cutItems, cut_eq_self n j (by omega), cutItems_eq_self n js (by omega)]

theorem cutFields_eq_self (n : Nat) :
    (fs : List (Option String × Json)) → fieldsDepth fs ≤ n → cutFields n fs = fs
  | [], _ => by rw [cutFields]
  | (_, j) :: fs, h => by
    rw [fieldsDepth_cons] at h
    rw [cutFields, cut_eq_self n j (by omega), cutFields_eq_self n fs (by omega)]
end

end LetPoly.Json
