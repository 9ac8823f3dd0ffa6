/-!
Finite maps keyed by names, and sets of names. The entries stand in ascending order of their keys,
each key once, so a map is determined by its look-ups (`NameMap.ext_get?`).
-/

set_option autoImplicit false

namespace LetPoly

variable {α β : Type}

/-- Keys ascend by code point, so no key stands twice. -/
abbrev Ascending (es : List (String × α)) : Prop :=
  es.Pairwise fun x y => x.1 < y.1

structure NameMap (α : Type) where
  entries : List (String × α)
  ascending : Ascending entries
  deriving DecidableEq

abbrev NameSet := NameMap Unit

namespace NameMap

theorem lt_or_eq_or_lt (a b : String) : a < b ∨ a = b ∨ b < a := by
  by_cases h : a < b
  · exact .inl h
  · by_cases h' : b < a
    · exact .inr (.inr h')
    · exact .inr (.inl (String.le_antisymm (String.not_lt.1 h') (String.not_lt.1 h)))

def insertEntry (k : String) (a : α) : List (String × α) → List (String × α)
  | [] => [(k, a)]
  | (j, b) :: es =>
    if k < j then (k, a) :: (j, b) :: es
    else if k = j then (k, a) :: es
    else (j, b) :: insertEntry k a es

def mergeEntry (k : String) (a : α) (rest : List (String × α) → List (String × α)) :
    List (String × α) → List (String × α)
  | [] => (k, a) :: rest []
  | (j, b) :: es =>
    if k < j then (k, a) :: rest ((j, b) :: es)
    else if k = j then (j, b) :: rest es
    else (j, b) :: mergeEntry k a rest es

/-- Merges two ascending lists; where both have a key, the second list's entry stays. -/
def mergeEntries : List (String × α) → List (String × α) → List (String × α)
  | [] => fun es => es
  | (k, a) :: ds => mergeEntry k a (mergeEntries ds)

theorem mem_insertEntry {k : String} {a : α} {es : List (String × α)} {x : String × α}
    (h : x ∈ insertEntry k a es) : x = (k, a) ∨ x ∈ es := by
  fun_induction insertEntry k a es <;> simp_all <;> grind

theorem ascending_insertEntry {k : String} {a : α} {es : List (String × α)} (h : Ascending es) :
    Ascending (insertEntry k a es) := by
  fun_induction insertEntry k a es with
  | case1 => simp
  | case2 j b es hlt =>
    refine List.pairwise_cons.2 ⟨fun x hx => ?_, h⟩
    rcases List.mem_cons.1 hx with rfl | hx
    · exact hlt
    · exact String.lt_trans hlt ((List.pairwise_cons.1 h).1 x hx)
  | case3 b es =>
    exact List.pairwise_cons.2 ⟨(List.pairwise_cons.1 h).1, (List.pairwise_cons.1 h).2⟩
  | case4 j b es hlt hne ih =>
    refine List.pairwise_cons.2 ⟨fun x hx => ?_, ih (List.pairwise_cons.1 h).2⟩
    rcases mem_insertEntry hx with rfl | hx
    · exact (lt_or_eq_or_lt k j).resolve_left hlt |>.resolve_left hne
    · exact (List.pairwise_cons.1 h).1 x hx

theorem mem_mergeEntry {k : String} {a : α} {rest : List (String × α) → List (String × α)}
    {ds es : List (String × α)} {x : String × α}
    (hr : ∀ es, x ∈ rest es → x ∈ ds ∨ x ∈ es) (h : x ∈ mergeEntry k a rest es) :
    x ∈ (k, a) :: ds ∨ x ∈ es := by
  fun_induction mergeEntry k a rest es <;> grind

theorem mem_mergeEntries {ds es : List (String × α)} {x : String × α}
    (h : x ∈ mergeEntries ds es) : x ∈ ds ∨ x ∈ es := by
  induction ds generalizing es with
  | nil => exact .inr h
  | cons d ds ih => exact mem_mergeEntry (fun _ => ih) h

theorem ascending_mergeEntry {k : String} {a : α} {rest : List (String × α) → List (String × α)}
    {ds es : List (String × α)} (hm : ∀ es x, x ∈ rest es → x ∈ ds ∨ x ∈ es)
    (hr : ∀ es, Ascending es → Ascending (rest es))
    (hd : Ascending ((k, a) :: ds)) (he : Ascending es) : Ascending (mergeEntry k a rest es) := by
  have hk := (List.pairwise_cons.1 hd).1
  fun_induction mergeEntry k a rest es with
  | case1 =>
    refine List.pairwise_cons.2 ⟨fun x hx => ?_, hr _ he⟩
    rcases hm _ _ hx with hx | hx
    · exact hk x hx
    · simp at hx
  | case2 j b es hlt =>
    refine List.pairwise_cons.2 ⟨fun x hx => ?_, hr _ he⟩
    rcases hm _ _ hx with hx | hx
    · exact hk x hx
    · rcases List.mem_cons.1 hx with rfl | hx
      · exact hlt
      · exact String.lt_trans hlt ((List.pairwise_cons.1 he).1 x hx)
  | case3 b es =>
    refine List.pairwise_cons.2 ⟨fun x hx => ?_, hr _ (List.pairwise_cons.1 he).2⟩
    rcases hm _ _ hx with hx | hx
    · exact hk x hx
    · exact (List.pairwise_cons.1 he).1 x hx
  | case4 j b es hlt hne ih =>
    have hjk := (lt_or_eq_or_lt k j).resolve_left hlt |>.resolve_left hne
    refine List.pairwise_cons.2 ⟨fun x hx => ?_, ih (List.pairwise_cons.1 he).2⟩
    rcases mem_mergeEntry (fun es => hm es x) hx with hx | hx
    · rcases List.mem_cons.1 hx with rfl | hx
      · exact hjk
      · exact String.lt_trans hjk (hk x hx)
    · exact (List.pairwise_cons.1 he).1 x hx

theorem ascending_mergeEntries {ds es : List (String × α)} (hd : Ascending ds)
    (he : Ascending es) : Ascending (mergeEntries ds es) := by
  induction ds generalizing es with
  | nil => exact he
  | cons d ds ih =>
    exact ascending_mergeEntry (fun _ _ => mem_mergeEntries)
      (fun _ => ih (List.pairwise_cons.1 hd).2) hd he

theorem lookup_cons (x : String × α) (es : List (String × α)) (q : String) :
    (x :: es).lookup q = if q = x.1 then some x.2 else es.lookup q := by
  rw [List.lookup_cons]
  by_cases h : q = x.1
  · simp [h]
  · simp [h, beq_false_of_ne h]

theorem lookup_eq_none_of_lt {k : String} {es : List (String × α)} (h : ∀ x ∈ es, k < x.1) :
    es.lookup k = none := by
  rw [List.lookup_eq_none_iff]
  intro x hx
  rw [bne_iff_ne]
  rintro rfl
  exact String.lt_irrefl _ (h x hx)

theorem lookup_eq_none_of_not_mem {k : String} {es : List (String × α)}
    (h : k ∉ es.map Prod.fst) : es.lookup k = none := by
  rw [List.lookup_eq_none_iff]
  intro x hx
  rw [bne_iff_ne]
  rintro rfl
  exact h (List.mem_map_of_mem hx)

theorem lookup_insertEntry {k : String} {a : α} {es : List (String × α)} (q : String) :
    (insertEntry k a es).lookup q = if q = k then some a else es.lookup q := by
  fun_induction insertEntry k a es <;> grind [lookup_cons]

theorem lookup_mergeEntry {k : String} {a : α} {rest : List (String × α) → List (String × α)}
    {ds es : List (String × α)} {q : String}
    (hr : ∀ es, Ascending es → (rest es).lookup q = (es.lookup q).or (ds.lookup q))
    (hd : Ascending ((k, a) :: ds)) (he : Ascending es) :
    (mergeEntry k a rest es).lookup q = (es.lookup q).or (((k, a) :: ds).lookup q) := by
  fun_induction mergeEntry k a rest es with
  | case1 =>
    simp only [lookup_cons, hr _ he]
    split <;> simp
  | case2 j b es hlt =>
    simp only [lookup_cons, hr _ he]
    by_cases hq : q = k
    · subst hq
      have hj : q ≠ j := by rintro rfl; exact String.lt_irrefl _ hlt
      have he' : es.lookup q = none := lookup_eq_none_of_lt fun x hx =>
        String.lt_trans hlt ((List.pairwise_cons.1 he).1 x hx)
      simp [hj, he']
    · simp [hq]
  | case3 b es =>
    simp only [lookup_cons, hr _ (List.pairwise_cons.1 he).2]
    split <;> simp
  | case4 j b es hlt hne ih =>
    simp only [lookup_cons, ih (List.pairwise_cons.1 he).2]
    by_cases hq : q = j <;> simp [hq]

theorem lookup_mergeEntries {ds es : List (String × α)} (hd : Ascending ds) (he : Ascending es)
    (q : String) : (mergeEntries ds es).lookup q = (es.lookup q).or (ds.lookup q) := by
  induction ds generalizing es with
  | nil => simp [mergeEntries]
  | cons d ds ih =>
    exact lookup_mergeEntry (fun es he => ih (List.pairwise_cons.1 hd).2 he) hd he

theorem entries_ext {ds es : List (String × α)} (hd : Ascending ds) (he : Ascending es)
    (h : ∀ q, ds.lookup q = es.lookup q) : ds = es := by
  induction ds generalizing es with
  | nil =>
    cases es with
    | nil => rfl
    | cons e es => have := h e.1; simp [lookup_cons] at this
  | cons d ds ih =>
    obtain ⟨k, a⟩ := d
    cases es with
    | nil => have := h k; simp at this
    | cons e es =>
      obtain ⟨j, b⟩ := e
      have hd' := List.pairwise_cons.1 hd
      have he' := List.pairwise_cons.1 he
      have hk : k = j := by
        rcases lt_or_eq_or_lt k j with hlt | heq | hlt
        · have hn : ((j, b) :: es).lookup k = none := lookup_eq_none_of_lt fun x hx => by
            rcases List.mem_cons.1 hx with rfl | hx
            · exact hlt
            · exact String.lt_trans hlt (he'.1 x hx)
          have := h k
          simp [hn] at this
        · exact heq
        · have hn : ((k, a) :: ds).lookup j = none := lookup_eq_none_of_lt fun x hx => by
            rcases List.mem_cons.1 hx with rfl | hx
            · exact hlt
            · exact String.lt_trans hlt (hd'.1 x hx)
          have := h j
          simp [hn] at this
      subst hk
      have hab : a = b := by simpa [lookup_cons] using h k
      subst hab
      congr 1
      refine ih hd'.2 he'.2 fun q => ?_
      by_cases hq : q = k
      · subst hq
        rw [lookup_eq_none_of_lt hd'.1, lookup_eq_none_of_lt he'.1]
      · simpa [lookup_cons, hq] using h q

def empty : NameMap α := ⟨[], .nil⟩

instance : EmptyCollection (NameMap α) := ⟨empty⟩
instance : Inhabited (NameMap α) := ⟨empty⟩

def get? (m : NameMap α) (k : String) : Option α := m.entries.lookup k

def contains (m : NameMap α) (k : String) : Bool := (m.get? k).isSome

instance : Membership String (NameMap α) := ⟨fun m k => m.contains k = true⟩

instance (m : NameMap α) (k : String) : Decidable (k ∈ m) :=
  inferInstanceAs (Decidable (m.contains k = true))

def keys (m : NameMap α) : List String := m.entries.map Prod.fst

def size (m : NameMap α) : Nat := m.entries.length

def isEmpty (m : NameMap α) : Bool := m.entries.isEmpty

def insert (m : NameMap α) (k : String) (a : α) : NameMap α :=
  ⟨insertEntry k a m.entries, ascending_insertEntry m.ascending⟩

def singleton (k : String) (a : α) : NameMap α := ⟨[(k, a)], by simp⟩

def filterKeys (p : String → Bool) (m : NameMap α) : NameMap α :=
  ⟨m.entries.filter fun x => p x.1, m.ascending.filter _⟩

def erase (m : NameMap α) (k : String) : NameMap α := m.filterKeys (· ≠ k)

def without (m : NameMap α) (s : NameSet) : NameMap α := m.filterKeys fun k => !s.contains k

def map (f : α → β) (m : NameMap α) : NameMap β :=
  ⟨m.entries.map fun x => (x.1, f x.2), by
    simpa [Ascending, List.pairwise_map] using m.ascending⟩

/-- All entries of both; where both have a key, that of `n`. -/
def union (m n : NameMap α) : NameMap α :=
  ⟨mergeEntries m.entries n.entries, ascending_mergeEntries m.ascending n.ascending⟩

def ofList (es : List (String × α)) : NameMap α :=
  es.foldl (fun m x => m.insert x.1 x.2) ∅

def domain (m : NameMap α) : NameSet := m.map fun _ => ()

@[ext] theorem ext_get? {m n : NameMap α} (h : ∀ k, m.get? k = n.get? k) : m = n := by
  obtain ⟨ds, hd⟩ := m
  obtain ⟨es, he⟩ := n
  have := entries_ext hd he h
  subst this
  rfl

theorem mem_iff {m : NameMap α} {k : String} : k ∈ m ↔ ∃ a, m.get? k = some a := by
  show (m.get? k).isSome = true ↔ _
  exact Option.isSome_iff_exists

theorem not_mem_iff {m : NameMap α} {k : String} : k ∉ m ↔ m.get? k = none := by
  rw [mem_iff]
  cases m.get? k <;> simp

@[simp] theorem contains_iff {m : NameMap α} {k : String} : m.contains k = true ↔ k ∈ m := Iff.rfl

@[simp] theorem contains_eq_false {m : NameMap α} {k : String} : m.contains k = false ↔ k ∉ m := by
  rw [← Bool.not_eq_true, contains_iff]

@[simp] theorem get?_empty (k : String) : (∅ : NameMap α).get? k = none := rfl

@[simp] theorem not_mem_empty (k : String) : k ∉ (∅ : NameMap α) := by simp [not_mem_iff]

@[simp] theorem get?_insert (m : NameMap α) (k : String) (a : α) (q : String) :
    (m.insert k a).get? q = if q = k then some a else m.get? q :=
  lookup_insertEntry q

theorem insert_insert (m : NameMap α) (k : String) (a b : α) :
    (m.insert k a).insert k b = m.insert k b := by
  apply ext_get?
  intro q
  by_cases h : q = k <;> simp [h]

theorem insert_comm (m : NameMap α) {j k : String} (a b : α) (h : j ≠ k) :
    (m.insert j a).insert k b = (m.insert k b).insert j a := by
  apply ext_get?
  intro q
  by_cases hj : q = j <;> by_cases hk : q = k <;> simp_all

theorem get?_foldl_insert {es : List (String × α)} (h : (es.map Prod.fst).Nodup) (m : NameMap α)
    (q : String) :
    (es.foldl (fun m x => m.insert x.1 x.2) m).get? q = (es.lookup q).or (m.get? q) := by
  induction es generalizing m with
  | nil => simp
  | cons x es ih =>
    simp only [List.map_cons, List.nodup_cons] at h
    rw [List.foldl_cons, ih h.2, get?_insert, lookup_cons]
    by_cases hq : q = x.1
    · have hn : es.lookup x.1 = none := lookup_eq_none_of_not_mem h.1
      simp [hn, hq]
    · simp [hq]

theorem get?_ofList {es : List (String × α)} (h : (es.map Prod.fst).Nodup) (q : String) :
    (ofList es).get? q = es.lookup q := by
  rw [ofList, get?_foldl_insert h, get?_empty, Option.or_none]

@[simp] theorem get?_singleton (k : String) (a : α) (q : String) :
    (singleton k a).get? q = if q = k then some a else none := by
  simp only [get?, singleton, lookup_cons]
  by_cases h : q = k <;> simp [h]

@[simp] theorem get?_union (m n : NameMap α) (q : String) :
    (m.union n).get? q = (n.get? q).or (m.get? q) :=
  lookup_mergeEntries m.ascending n.ascending q

@[simp] theorem mem_union {m n : NameMap α} {k : String} : k ∈ m.union n ↔ k ∈ m ∨ k ∈ n := by
  simp only [mem_iff, get?_union]
  cases m.get? k <;> cases n.get? k <;> simp

@[simp] theorem get?_map (f : α → β) (m : NameMap α) (q : String) :
    (m.map f).get? q = (m.get? q).map f := by
  simp only [get?, map]
  induction m.entries with
  | nil => rfl
  | cons x es ih => simp only [List.map_cons, lookup_cons, ih]; split <;> simp

@[simp] theorem get?_filterKeys (p : String → Bool) (m : NameMap α) (q : String) :
    (m.filterKeys p).get? q = if p q then m.get? q else none := by
  simp only [get?, filterKeys]
  induction m.entries with
  | nil => simp
  | cons x es ih =>
    simp only [List.filter_cons, lookup_cons]
    by_cases hp : p x.1 <;> by_cases hq : q = x.1 <;> grind [lookup_cons]

@[simp] theorem mem_filterKeys {p : String → Bool} {m : NameMap α} {k : String} :
    k ∈ m.filterKeys p ↔ p k = true ∧ k ∈ m := by
  by_cases h : p k <;> simp [mem_iff, h]

@[simp] theorem get?_erase (m : NameMap α) (k q : String) :
    (m.erase k).get? q = if q = k then none else m.get? q := by
  by_cases h : q = k <;> simp [erase, h]

theorem mem_erase {m : NameMap α} {k q : String} : q ∈ m.erase k ↔ q ∈ m ∧ q ≠ k := by
  by_cases h : q = k <;> simp [erase, h]

@[simp] theorem get?_without (m : NameMap α) (s : NameSet) (q : String) :
    (m.without s).get? q = if q ∈ s then none else m.get? q := by
  by_cases h : q ∈ s
  · simp [without, h]
  · simp [without, h]

@[simp] theorem mem_without {m : NameMap α} {s : NameSet} {k : String} :
    k ∈ m.without s ↔ k ∈ m ∧ k ∉ s := by
  simp [without, and_comm]

@[simp] theorem mem_domain {m : NameMap α} {k : String} : k ∈ m.domain ↔ k ∈ m := by
  simp [mem_iff, domain]

theorem mem_keys {m : NameMap α} {k : String} : k ∈ m.keys ↔ k ∈ m := by
  show k ∈ m.entries.map Prod.fst ↔ (m.entries.lookup k).isSome = true
  induction m.entries with
  | nil => simp
  | cons x es ih => by_cases h : k = x.1 <;> simp [lookup_cons, h, ← ih]

theorem mem_entries {m : NameMap α} {k : String} {a : α} :
    (k, a) ∈ m.entries ↔ m.get? k = some a := by
  obtain ⟨es, he⟩ := m
  simp only [get?]
  induction es with
  | nil => simp
  | cons x es ih =>
    obtain ⟨j, b⟩ := x
    have hes := List.pairwise_cons.1 he
    by_cases hk : k = j
    · subst hk
      have : (k, a) ∉ es := fun h => String.lt_irrefl k (hes.1 (k, a) h)
      simp [this, eq_comm]
    · simp [lookup_cons, hk, ih hes.2]

theorem keys_pairwise (m : NameMap α) : m.keys.Pairwise (· < ·) := by
  rw [keys, List.pairwise_map]
  exact m.ascending

theorem nodup_keys (m : NameMap α) : m.keys.Nodup := by
  refine m.keys_pairwise.imp ?_
  rintro j k h rfl
  exact String.lt_irrefl _ h

@[simp] theorem length_keys (m : NameMap α) : m.keys.length = m.size := by simp [keys, size]

theorem size_filterKeys_lt {p : String → Bool} {m : NameMap α} {k : String} (hk : k ∈ m)
    (hp : p k = false) : (m.filterKeys p).size < m.size := by
  obtain ⟨a, ha⟩ := mem_iff.1 hk
  have := mem_entries.2 ha
  simp only [size, filterKeys]
  refine Nat.lt_of_le_of_ne (List.length_filter_le _ _) fun h => ?_
  have := List.length_filter_eq_length_iff.1 h _ this
  simp [hp] at this

theorem size_erase_lt {m : NameMap α} {k : String} (hk : k ∈ m) : (m.erase k).size < m.size :=
  size_filterKeys_lt hk (by simp)

end NameMap

namespace NameSet

def ofNames (names : List String) : NameSet :=
  names.foldl (fun s n => s.insert n ()) ∅

theorem mem_foldl_insert {names : List String} {s : NameSet} {k : String} :
    k ∈ names.foldl (fun s n => NameMap.insert s n ()) s ↔ k ∈ names ∨ k ∈ s := by
  induction names generalizing s with
  | nil => simp
  | cons n names ih =>
    simp only [List.foldl_cons, ih, List.mem_cons, NameMap.mem_iff, NameMap.get?_insert]
    by_cases h : k = n <;> simp [h]

@[simp] theorem mem_ofNames {names : List String} {k : String} : k ∈ ofNames names ↔ k ∈ names := by
  simp [ofNames, mem_foldl_insert]

theorem ext_mem {s t : NameSet} (h : ∀ k, k ∈ s ↔ k ∈ t) : s = t := by
  apply NameMap.ext_get?
  intro k
  have := h k
  simp only [NameMap.mem_iff] at this
  cases hs : s.get? k <;> cases ht : t.get? k <;> simp_all

theorem eq_filterKeys_of_subset {s t : NameSet} (h : ∀ k ∈ s, k ∈ t) :
    s = t.filterKeys s.contains := by
  apply ext_mem
  intro k
  simpa using h k

theorem size_le_of_subset {s t : NameSet} (h : ∀ k ∈ s, k ∈ t) : s.size ≤ t.size := by
  rw [eq_filterKeys_of_subset h]
  exact List.length_filter_le _ _

theorem size_lt_of_subset {s t : NameSet} {k : String} (h : ∀ k ∈ s, k ∈ t) (ht : k ∈ t)
    (hs : k ∉ s) : s.size < t.size := by
  rw [eq_filterKeys_of_subset h]
  exact NameMap.size_filterKeys_lt ht (by simpa using hs)

end NameSet

end LetPoly
