set_option autoImplicit false

namespace LetPoly

variable {α : Type}

structure OrderedMap (α : Type) where
  entries : List (String × α)
  distinct : (entries.map Prod.fst).Nodup

namespace OrderedMap

def empty : OrderedMap α := ⟨[], by simp⟩

instance : EmptyCollection (OrderedMap α) := ⟨empty⟩
instance : Inhabited (OrderedMap α) := ⟨empty⟩

def get? (m : OrderedMap α) (k : String) : Option α := m.entries.lookup k

def contains (m : OrderedMap α) (k : String) : Bool := (m.entries.map Prod.fst).contains k

def putEntry (k : String) (a : α) : List (String × α) → List (String × α)
  | [] => [(k, a)]
  | (j, b) :: es => if j = k then (j, a) :: es else (j, b) :: putEntry k a es

theorem keys_putEntry (k : String) (a : α) (es : List (String × α)) :
    (putEntry k a es).map Prod.fst =
      if k ∈ es.map Prod.fst then es.map Prod.fst else es.map Prod.fst ++ [k] := by
  induction es with
  | nil => simp [putEntry]
  | cons e es ih =>
    obtain ⟨j, b⟩ := e
    by_cases h : j = k
    · simp [putEntry, h]
    · have h' : k ≠ j := fun hk => h hk.symm
      simp only [putEntry, h, if_false, List.map_cons, ih, List.mem_cons, h', false_or]
      split <;> simp

def put (m : OrderedMap α) (k : String) (a : α) : OrderedMap α :=
  ⟨putEntry k a m.entries, by
    rw [keys_putEntry]
    split
    · exact m.distinct
    · rename_i h
      exact List.nodup_append.2 ⟨m.distinct, by simp, by
        intro x hx y hy hxy
        simp only [List.mem_singleton] at hy
        exact h (hy ▸ hxy ▸ hx)⟩⟩

def ofList (es : List (String × α)) : OrderedMap α := es.foldl (fun m e => m.put e.1 e.2) ∅

theorem lookup_putEntry (k : String) (a : α) (es : List (String × α)) (q : String) :
    (putEntry k a es).lookup q = if q = k then some a else es.lookup q := by
  induction es with
  | nil => by_cases h : q = k <;> simp [putEntry, List.lookup_cons, h, beq_false_of_ne]
  | cons e es ih =>
    obtain ⟨j, b⟩ := e
    simp only [putEntry]
    by_cases hj : j = k
    · subst hj
      by_cases h : q = j <;> simp [List.lookup_cons, h, beq_false_of_ne]
    · by_cases h : q = j
      · subst h
        simp [hj]
      · simp [hj, List.lookup_cons, h, beq_false_of_ne, ih]

@[simp] theorem get?_put (m : OrderedMap α) (k : String) (a : α) (q : String) :
    (m.put k a).get? q = if q = k then some a else m.get? q :=
  lookup_putEntry k a m.entries q

end OrderedMap

end LetPoly
