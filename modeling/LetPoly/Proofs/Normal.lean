import LetPoly.Scheme
import LetPoly.Proofs.Renaming

set_option autoImplicit false

namespace LetPoly

variable {π : String → String} {vs : List String}

theorem eraseDups_induction {P : List String → Prop} (nil : P [])
    (cons : ∀ v vs, P (vs.filter fun w => !w == v) → P (v :: vs)) (vs : List String) : P vs :=
  match vs with
  | [] => nil
  | v :: vs => cons v vs (eraseDups_induction nil cons (vs.filter fun w => !w == v))
termination_by vs.length
decreasing_by
  have := List.length_filter_le (fun w => !w == v) vs
  simp only [List.length_cons]
  omega

theorem nodup_eraseDups (vs : List String) : vs.eraseDups.Nodup := by
  induction vs using eraseDups_induction with
  | nil => simp
  | cons v vs ih =>
    rw [List.eraseDups_cons, List.nodup_cons]
    exact ⟨by simp, ih⟩

theorem eraseDups_map (h : ∀ v ∈ vs, ∀ w ∈ vs, π v = π w → v = w) :
    (vs.map π).eraseDups = vs.eraseDups.map π := by
  induction vs using eraseDups_induction with
  | nil => simp
  | cons v vs ih =>
    have hf : (vs.map π).filter (fun w => !w == π v) = (vs.filter fun w => !w == v).map π := by
      rw [List.filter_map]
      congr 1
      apply List.filter_congr
      intro w hw
      have := h w (by simp [hw]) v (by simp)
      by_cases he : w = v <;> grind
    rw [List.map_cons, List.eraseDups_cons, List.eraseDups_cons, List.map_cons, hf, ih]
    intro u hu w hw
    exact h u (List.mem_cons_of_mem v (List.mem_of_mem_filter hu)) w
      (List.mem_cons_of_mem v (List.mem_of_mem_filter hw))

theorem lookup_zip_idxOf {α : Type} {ns : List α} {v : String} (h : v ∈ vs) :
    (vs.zip ns).lookup v = ns[vs.idxOf v]? := by
  induction vs generalizing ns with
  | nil => cases h
  | cons w vs ih =>
    cases ns with
    | nil => simp
    | cons n ns =>
      rw [List.zip_cons_cons, NameMap.lookup_cons]
      by_cases hv : v = w
      · simp [hv]
      · rw [if_neg hv, ih (by simpa [hv] using h), List.idxOf_cons_ne vs (Ne.symm hv),
          List.getElem?_cons_succ]

theorem idxOf_map {v : String} (h : ∀ w ∈ vs, π v = π w → v = w) :
    (vs.map π).idxOf (π v) = vs.idxOf v := by
  induction vs with
  | nil => rfl
  | cons w vs ih =>
    rw [List.map_cons]
    by_cases hv : v = w
    · simp [hv]
    · have hπ : π w ≠ π v := fun he => hv (h w (by simp) he.symm)
      rw [List.idxOf_cons_ne _ hπ, List.idxOf_cons_ne _ (Ne.symm hv),
        ih fun u hu => h u (by simp [hu])]

namespace Ty

variable {t t' : Ty} {f g : String → Ty}

theorem vars_rename (π : String → String) (t : Ty) : (t.rename π).vars = t.vars.map π := by
  induction t <;> simp_all [vars]

def normalVars (n : Nat) : List Ty := (List.range n).map fun i => .var (letters (i + 1))

theorem keys_zip_normalVars (vs : List String) :
    (vs.zip (normalVars vs.length)).map Prod.fst = vs :=
  List.map_fst_zip (by simp [normalVars])

theorem normalize_eq_bind (t : Ty) :
    t.normalize = t.bind fun v =>
      ((t.varsInOrder.zip (normalVars t.varsInOrder.length)).lookup v).getD (.var v) := by
  have hd : ((t.varsInOrder.zip (normalVars t.varsInOrder.length)).map Prod.fst).Nodup := by
    rw [keys_zip_normalVars]
    exact nodup_eraseDups t.vars
  show t.apply (.ofList (t.varsInOrder.zip (normalVars t.varsInOrder.length))) = _
  rw [apply_eq_bind]
  apply bind_congr
  intro v _
  rw [apply, NameMap.get?_ofList hd]

def normalName (t : Ty) (v : String) : String := letters (t.varsInOrder.idxOf v + 1)

theorem normalize_eq_rename (t : Ty) : t.normalize = t.rename t.normalName := by
  rw [normalize_eq_bind, rename]
  apply bind_congr
  intro v hv
  have hv := mem_varsInOrder.2 hv
  rw [lookup_zip_idxOf hv, normalVars, List.getElem?_map,
    List.getElem?_range (List.idxOf_lt_length_iff.2 hv)]
  rfl

theorem normalName_injOn (t : Ty) :
    ∀ v ∈ t.vars, ∀ w ∈ t.vars, t.normalName v = t.normalName w → v = w := by
  intro v hv w _ h
  have hi := letters_injective h
  exact (List.idxOf_inj (mem_varsInOrder.2 hv)).1 (Nat.succ.inj hi)

theorem varsInOrder_rename (h : ∀ v ∈ t.vars, ∀ w ∈ t.vars, π v = π w → v = w) :
    (t.rename π).varsInOrder = t.varsInOrder.map π := by
  rw [varsInOrder, vars_rename, eraseDups_map h]
  rfl

/-- The names of variables do not matter to the normal form. -/
theorem normalize_rename (h : ∀ v ∈ t.vars, ∀ w ∈ t.vars, π v = π w → v = w) :
    (t.rename π).normalize = t.normalize := by
  rw [normalize_eq_rename, normalize_eq_rename, rename_rename]
  apply rename_congr
  intro v hv
  rw [normalName, normalName, varsInOrder_rename h,
    idxOf_map fun w hw => h v hv w (mem_varsInOrder.1 hw)]

theorem bind_eq_bind_iff : t.bind f = t.bind g ↔ ∀ v ∈ t.vars, f v = g v := by
  refine ⟨fun h => ?_, bind_congr⟩
  induction t with
  | con c => simp [vars]
  | var v => simpa [vars] using h
  | app a b iha ihb =>
    simp only [bind_app, app.injEq] at h
    intro v hv
    rcases List.mem_append.1 hv with hv | hv
    · exact iha h.1 v hv
    · exact ihb h.2 v hv

/-- What can be undone is a renaming. -/
theorem exists_rename_of_bind_bind (h : (t.bind f).bind g = t) :
    ∃ π, (∀ v ∈ t.vars, ∀ w ∈ t.vars, π v = π w → v = w) ∧ t.bind f = t.rename π := by
  have hv : ∀ v ∈ t.vars, (f v).bind g = .var v := by
    rw [← bind_eq_bind_iff, ← bind_bind, h, bind_id]
  have hf : ∀ v, ∃ w, v ∈ t.vars → f v = .var w := by
    intro v
    by_cases ht : v ∈ t.vars
    · have := hv v ht
      cases hf : f v with
      | var w => exact ⟨w, fun _ => rfl⟩
      | con c => simp [hf] at this
      | app a b => simp [hf] at this
    · exact ⟨v, fun h => absurd h ht⟩
  choose π hπ using hf
  refine ⟨π, fun v hv' w hw he => ?_, bind_congr hπ⟩
  have hvw : Ty.var v = .var w := by rw [← hv v hv', ← hv w hw, hπ v hv', hπ w hw, he]
  exact Ty.var.inj hvw

theorem normalize_eq_of_instances (h : t' = t.bind f) (h' : t = t'.bind g) :
    t.normalize = t'.normalize := by
  subst h
  obtain ⟨π, hπ, hr⟩ := exists_rename_of_bind_bind h'.symm
  rw [hr, normalize_rename hπ]

/-- `t'` is `t` with its variables renamed one to one. -/
def IsRenaming (t t' : Ty) : Prop :=
  ∃ π : String → String, (∀ v ∈ t.vars, ∀ w ∈ t.vars, π v = π w → v = w) ∧ t' = t.rename π

theorem IsRenaming.normalize_eq (h : t.IsRenaming t') : t.normalize = t'.normalize := by
  obtain ⟨π, hπ, rfl⟩ := h
  rw [normalize_rename hπ]

theorem exists_rename_back (h : ∀ v ∈ t.vars, ∀ w ∈ t.vars, π v = π w → v = w) :
    ∃ π', (t.rename π).rename π' = t := by
  have hinj : Set.InjOn π {v | v ∈ t.vars} := fun v hv w hw => h v hv w hw
  refine ⟨Function.invFunOn π {v | v ∈ t.vars}, ?_⟩
  rw [rename_rename, rename]
  exact bind_eq_self fun v hv => congrArg var (hinj.leftInvOn_invFunOn hv)

theorem isRenaming_normalize (t : Ty) : t.IsRenaming t.normalize :=
  ⟨t.normalName, t.normalName_injOn, t.normalize_eq_rename⟩

theorem isRenaming_of_normalize_eq (h : t.normalize = t'.normalize) : t.IsRenaming t' := by
  obtain ⟨π, hπ⟩ := exists_rename_back t.normalName_injOn
  obtain ⟨π', hπ'⟩ := exists_rename_back t'.normalName_injOn
  rw [← normalize_eq_rename] at hπ hπ'
  have ht' : t' = t.bind fun v => .var (π' (t.normalName v)) := by
    rw [← hπ', ← h, normalize_eq_rename, rename_rename]
    rfl
  have ht : t = t'.bind fun v => .var (π (t'.normalName v)) := by
    rw [← hπ, h, normalize_eq_rename, rename_rename]
    rfl
  obtain ⟨ρ, hρ, hr⟩ := exists_rename_of_bind_bind (ht' ▸ ht).symm
  exact ⟨ρ, hρ, ht'.trans hr⟩

theorem length_varsInOrder (t : Ty) : t.varsInOrder.length = t.freeVars.size := by
  rw [← NameMap.length_keys]
  apply List.Perm.length_eq
  rw [varsInOrder, List.perm_ext_iff_of_nodup (nodup_eraseDups _) t.freeVars.nodup_keys]
  intro v
  rw [List.mem_eraseDups, NameMap.mem_keys, mem_freeVars]

theorem varsInOrder_normalize (t : Ty) :
    t.normalize.varsInOrder = (List.range t.varsInOrder.length).map fun i => letters (i + 1) := by
  rw [normalize_eq_rename, varsInOrder_rename t.normalName_injOn]
  apply List.ext_getElem
  · simp
  · intro i hi _
    have hi : i < t.varsInOrder.length := by simpa using hi
    have hx := (nodup_eraseDups t.vars).idxOf_getElem i hi
    simp only [List.getElem_map, List.getElem_range, normalName]
    exact congrArg (fun j => letters (j + 1)) hx

/-- Two types have one normal form exactly if one is the other with its variables renamed one to
one. The normal form is such a renaming itself, calls its variables `a`, `b`, … in order of first
appearance, and is its own normal form. -/
theorem normalize_decides_isRenaming :
    (∀ t t' : Ty, t.normalize = t'.normalize ↔ t.IsRenaming t') ∧
    ∀ t : Ty, t.IsRenaming t.normalize ∧
      t.normalize.varsInOrder = (List.range t.freeVars.size).map (fun i => letters (i + 1)) ∧
      t.normalize.normalize = t.normalize := by
  refine ⟨fun t t' => ⟨isRenaming_of_normalize_eq, IsRenaming.normalize_eq⟩, fun t => ?_⟩
  have hvars := t.varsInOrder_normalize
  rw [length_varsInOrder] at hvars
  exact ⟨t.isRenaming_normalize, hvars, t.isRenaming_normalize.normalize_eq.symm⟩

-- the names of the normal form are the old ones in other places
example : (Ty.fn (.var "b") (.fn (.var "a") (.var "b"))).normalize =
    .fn (.var "a") (.fn (.var "b") (.var "a")) := by
  cbv

end Ty

end LetPoly
