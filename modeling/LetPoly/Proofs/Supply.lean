import LetPoly.Scheme
import LetPoly.Proofs.Substitution
import Mathlib.Logic.Function.Basic

set_option autoImplicit false

namespace LetPoly

namespace NameSupply

/-- Still to be drawn. -/
def Pending (ν : NameSupply) (v : String) : Prop :=
  v ∉ ν.reserved ∧ ∃ k, ν.issued < k ∧ letters k = v

/-- Later in the same supply. -/
structure Reaches (ν ν' : NameSupply) : Prop where
  reserved : ν'.reserved = ν.reserved
  issued : ν.issued ≤ ν'.issued

theorem Reaches.refl (ν : NameSupply) : ν.Reaches ν := ⟨rfl, Nat.le_refl _⟩

theorem Reaches.trans {ν₁ ν₂ ν₃ : NameSupply} (h₁ : ν₁.Reaches ν₂) (h₂ : ν₂.Reaches ν₃) :
    ν₁.Reaches ν₃ :=
  ⟨h₂.reserved.trans h₁.reserved, Nat.le_trans h₁.issued h₂.issued⟩

theorem Reaches.pending {ν ν' : NameSupply} (h : ν.Reaches ν') {v : String} (hv : ν'.Pending v) :
    ν.Pending v := by
  obtain ⟨hr, k, hk, rfl⟩ := hv
  exact ⟨h.reserved ▸ hr, k, Nat.lt_of_le_of_lt h.issued hk, rfl⟩

theorem reaches_fresh (ν : NameSupply) : ν.Reaches (fresh ν).2 :=
  ⟨rfl, Nat.le_of_lt (lt_nextIndex _ _)⟩

theorem pending_fresh (ν : NameSupply) : ν.Pending (fresh ν).1 :=
  ⟨letters_nextIndex_not_mem _ _, _, lt_nextIndex _ _, rfl⟩

theorem pending_fresh_iff (ν : NameSupply) (v : String) :
    (fresh ν).2.Pending v ↔ ν.Pending v ∧ v ≠ (fresh ν).1 := by
  constructor
  · rintro ⟨hr, k, hk, rfl⟩
    refine ⟨⟨hr, k, Nat.lt_trans (lt_nextIndex _ _) hk, rfl⟩, fun he => ?_⟩
    exact Nat.lt_irrefl _ (letters_injective he ▸ hk)
  · rintro ⟨⟨hr, k, hk, rfl⟩, hne⟩
    refine ⟨hr, k, ?_, rfl⟩
    show nextIndex ν.reserved ν.issued < k
    by_cases hlt : k < nextIndex ν.reserved ν.issued
    · exact absurd (letters_mem_of_lt_nextIndex hk hlt) hr
    · have hne' : k ≠ nextIndex ν.reserved ν.issued := fun he => hne (he ▸ rfl)
      omega

theorem not_pending_fresh (ν : NameSupply) : ¬ (fresh ν).2.Pending (fresh ν).1 :=
  fun h => ((pending_fresh_iff ν _).1 h).2 rfl

theorem draw_succ (k : Nat) (ν : NameSupply) :
    draw (k + 1) ν = ((fresh ν).1 :: (draw k (fresh ν).2).1, (draw k (fresh ν).2).2) := rfl

theorem length_draw (k : Nat) (ν : NameSupply) : (draw k ν).1.length = k := by
  induction k generalizing ν with
  | zero => rfl
  | succ k ih => rw [draw_succ, List.length_cons, ih]

theorem reaches_draw (k : Nat) (ν : NameSupply) : ν.Reaches (draw k ν).2 := by
  induction k generalizing ν with
  | zero => exact .refl ν
  | succ k ih => exact (reaches_fresh ν).trans (ih _)

theorem mem_draw_iff (k : Nat) (ν : NameSupply) (v : String) :
    v ∈ (draw k ν).1 ↔ ν.Pending v ∧ ¬ (draw k ν).2.Pending v := by
  induction k generalizing ν with
  | zero =>
    constructor
    · intro h
      cases h
    · exact fun h => absurd h.1 h.2
  | succ k ih =>
    have hr := reaches_draw k (fresh ν).2
    rw [draw_succ, List.mem_cons, ih, pending_fresh_iff]
    constructor
    · rintro (rfl | h)
      · exact ⟨pending_fresh ν, fun h => not_pending_fresh ν (hr.pending h)⟩
      · exact ⟨h.1.1, h.2⟩
    · intro h
      by_cases hv : v = (fresh ν).1
      · exact .inl hv
      · exact .inr ⟨⟨h.1, hv⟩, h.2⟩

theorem nodup_draw (k : Nat) (ν : NameSupply) : (draw k ν).1.Nodup := by
  induction k generalizing ν with
  | zero => exact .nil
  | succ k ih =>
    rw [draw_succ, List.nodup_cons]
    refine ⟨fun h => ?_, ih _⟩
    exact not_pending_fresh ν ((mem_draw_iff k _ _).1 h).1

end NameSupply

theorem exists_assignment {ks ns : List String} (hk : ks.Nodup) (hn : ns.Nodup)
    (hl : ks.length = ns.length) :
    ∃ a : String → String, (∀ k ∈ ks, (ks.zip ns).lookup k = some (a k)) ∧
      (∀ k ∈ ks, a k ∈ ns) ∧ (∀ j ∈ ks, ∀ k ∈ ks, a j = a k → j = k) ∧
      ∀ n ∈ ns, ∃ k ∈ ks, a k = n := by
  induction ks generalizing ns with
  | nil =>
    cases ns with
    | nil => exact ⟨id, by simp, by simp, by simp, by simp⟩
    | cons n ns => simp at hl
  | cons k ks ih =>
    cases ns with
    | nil => simp at hl
    | cons n ns =>
      rw [List.nodup_cons] at hk hn
      obtain ⟨a, hz, hm, hi, hs⟩ := ih hk.2 hn.2 (by simpa using hl)
      have hne : ∀ j ∈ ks, j ≠ k := fun j hj he => hk.1 (he ▸ hj)
      have hna : ∀ j ∈ ks, a j ≠ n := fun j hj he => hn.1 (he ▸ hm j hj)
      refine ⟨fun v => if v = k then n else a v, fun j hj => ?_, fun j hj => ?_,
        fun i hi' j hj he => ?_, fun m hm' => ?_⟩
      · rw [List.zip_cons_cons, NameMap.lookup_cons]
        rcases List.mem_cons.1 hj with rfl | hj
        · simp
        · simp [hne j hj, hz j hj]
      · rcases List.mem_cons.1 hj with rfl | hj
        · simp
        · simp [hne j hj, hm j hj]
      · rcases List.mem_cons.1 hi' with hik | hik
        · rcases List.mem_cons.1 hj with hjk | hjk
          · rw [hik, hjk]
          · simp [hik, hne j hjk, (hna j hjk).symm] at he
        · rcases List.mem_cons.1 hj with hjk | hjk
          · simp [hjk, hne i hik, hna i hik] at he
          · exact hi i hik j hjk (by simpa [hne i hik, hne j hjk] using he)
      · rcases List.mem_cons.1 hm' with rfl | hm'
        · exact ⟨k, by simp, by simp⟩
        · obtain ⟨j, hj, rfl⟩ := hs m hm'
          exact ⟨j, by simp [hj], by simp [hne j hj]⟩

theorem exists_extension {α : Type} {vs : NameSet} {a : String → String}
    (ha : ∀ p ∈ vs, ∀ q ∈ vs, a p = a q → p = q) (θ ρ : String → α) :
    ∃ r : String → α, (∀ q ∈ vs, r (a q) = ρ q) ∧ ∀ v, (∀ q ∈ vs, a q ≠ v) → r v = θ v := by
  have hinj : Function.Injective fun q : { q // q ∈ vs } => a q :=
    fun p q h => Subtype.ext (ha p p.2 q q.2 h)
  refine ⟨Function.extend (fun q : { q // q ∈ vs } => a q) (fun q => ρ q) θ, fun q hq => ?_,
    fun v hv => ?_⟩
  · exact hinj.extend_apply _ _ ⟨q, hq⟩
  · exact Function.extend_apply' _ _ _ fun ⟨q, he⟩ => hv q q.2 he

theorem lookup_zip_map (ks ns : List String) (v : String) :
    (ks.zip (ns.map Ty.var)).lookup v = ((ks.zip ns).lookup v).map Ty.var := by
  induction ks generalizing ns with
  | nil => simp
  | cons k ks ih =>
    cases ns with
    | nil => simp
    | cons n ns =>
      simp only [List.map_cons, List.zip_cons_cons, NameMap.lookup_cons, ih]
      split <;> simp

namespace Scheme

/-- An instance is the body under a substitution that puts a drawn name of its own in the place of
each quantified one, and uses up all names that were drawn for it. -/
theorem instantiate_eq_apply (σ : Scheme) (ν : NameSupply) :
    ∃ (r : Subst) (a : String → String),
      (σ.instantiate ν).1 = σ.body.apply r ∧
      (∀ v, r.get? v = if v ∈ σ.vars then some (.var (a v)) else none) ∧
      (∀ q ∈ σ.vars, ν.Pending (a q) ∧ ¬ (σ.instantiate ν).2.Pending (a q)) ∧
      (∀ p ∈ σ.vars, ∀ q ∈ σ.vars, a p = a q → p = q) ∧
      ∀ v, ν.Pending v → ¬ (σ.instantiate ν).2.Pending v → ∃ q ∈ σ.vars, a q = v := by
  have hl : σ.vars.keys.length = (NameSupply.draw σ.vars.size ν).1.length := by
    rw [NameSupply.length_draw, NameMap.length_keys]
  obtain ⟨a, hz, hm, hi, hs⟩ :=
    exists_assignment σ.vars.nodup_keys (NameSupply.nodup_draw σ.vars.size ν) hl
  simp only [NameMap.mem_keys] at hz hm hi hs
  refine ⟨_, a, rfl, fun v => ?_, fun q hq => ?_, hi, fun v hp hn => ?_⟩
  · have hd : ((σ.vars.keys.zip ((NameSupply.draw σ.vars.size ν).1.map Ty.var)).map
        Prod.fst).Nodup := by
      rw [List.map_fst_zip (by simp [hl])]
      exact σ.vars.nodup_keys
    refine (NameMap.get?_ofList hd v).trans ?_
    rw [lookup_zip_map]
    by_cases hv : v ∈ σ.vars
    · rw [hz v hv, if_pos hv, Option.map_some]
    · have hn : (σ.vars.keys.zip (NameSupply.draw σ.vars.size ν).1).lookup v = none := by
        rw [List.lookup_eq_none_iff]
        intro x hx
        rw [bne_iff_ne]
        rintro rfl
        exact hv (NameMap.mem_keys.1 (List.of_mem_zip hx).1)
      rw [hn, if_neg hv, Option.map_none]
  · exact (NameSupply.mem_draw_iff _ _ _).1 (hm q hq)
  · exact hs v ((NameSupply.mem_draw_iff _ _ _).2 ⟨hp, hn⟩)

theorem instantiate_eq (σ : Scheme) (ν : NameSupply) :
    ∃ a : String → String,
      (σ.instantiate ν).1 = σ.body.bind (fun v => .var (if v ∈ σ.vars then a v else v)) ∧
      (∀ q ∈ σ.vars, ν.Pending (a q) ∧ ¬ (σ.instantiate ν).2.Pending (a q)) ∧
      (∀ p ∈ σ.vars, ∀ q ∈ σ.vars, a p = a q → p = q) ∧
      ∀ v, ν.Pending v → ¬ (σ.instantiate ν).2.Pending v → ∃ q ∈ σ.vars, a q = v := by
  obtain ⟨r, a, ht, hr, ha⟩ := σ.instantiate_eq_apply ν
  refine ⟨a, ?_, ha⟩
  rw [ht, Ty.apply_eq_bind]
  apply Ty.bind_congr
  intro v _
  rw [Ty.apply, hr]
  split <;> rfl

theorem reaches_instantiate (σ : Scheme) (ν : NameSupply) : ν.Reaches (σ.instantiate ν).2 :=
  NameSupply.reaches_draw _ ν

end Scheme

end LetPoly
