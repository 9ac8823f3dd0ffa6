import LetPoly.Proofs.Run
import LetPoly.Proofs.Unification

set_option autoImplicit false

namespace LetPoly

def NameSupply.Drawn (ν ν' : NameSupply) (v : String) : Prop := ν.Pending v ∧ ¬ ν'.Pending v

/-- Puts a variable of `R` for each name of `D`, one to one, and uses all of `R`. -/
structure Subst.RenamesOnto (r : Subst) (D R : String → Prop) : Prop where
  domain : ∀ v, v ∈ r ↔ D v
  value : ∀ v t, r.get? v = some t → ∃ w, R w ∧ t = .var w
  injective : ∀ v w t, r.get? v = some t → r.get? w = some t → v = w
  onto : ∀ w, R w → ∃ v, r.get? v = some (.var w)

/-- A renaming to names that a type does not have keeps all its variables apart, also those that it
leaves in place. -/
theorem Subst.RenamesOnto.apply_injective {r : Subst} {D R : String → Prop} {t : Ty}
    (h : r.RenamesOnto D R) (hnew : ∀ v, R v → v ∉ t.vars) :
    ∀ v ∈ t.vars, ∀ w ∈ t.vars, (Ty.var v).apply r = (Ty.var w).apply r → v = w := by
  intro v hv w hw he
  simp only [Ty.apply] at he
  cases hrv : r.get? v with
  | none =>
    cases hrw : r.get? w with
    | none => simpa [hrv, hrw] using he
    | some u =>
      obtain ⟨x, hx, rfl⟩ := h.value w u hrw
      have hvx : v = x := by simpa [hrv, hrw] using he
      exact absurd (hvx ▸ hv) (hnew x hx)
  | some u =>
    obtain ⟨x, hx, rfl⟩ := h.value v u hrv
    cases hrw : r.get? w with
    | none =>
      have hxw : x = w := by simpa [hrv, hrw] using he
      exact absurd (hxw ▸ hw) (hnew x hx)
    | some u' =>
      have hu : u' = .var x := by simpa [hrv, hrw] using he.symm
      exact h.injective v w _ hrv (hu ▸ hrw)

namespace Scheme

variable {σ : Scheme} {ν ν₁ ν₂ : NameSupply} {v : String}

theorem exists_renamesOnto (σ : Scheme) (ν : NameSupply) :
    ∃ r : Subst, (σ.instantiate ν).1 = σ.body.apply r ∧
      r.RenamesOnto (· ∈ σ.vars) (ν.Drawn (σ.instantiate ν).2) := by
  obtain ⟨r, a, ht, hr, ha, hinj, honto⟩ := σ.instantiate_eq_apply ν
  have hval : ∀ v t, r.get? v = some t → v ∈ σ.vars ∧ t = .var (a v) := by
    intro v t hv
    rw [hr] at hv
    split at hv
    · exact ⟨‹_›, (Option.some.inj hv).symm⟩
    · cases hv
  refine ⟨r, ht, fun v => ?_, fun v t hv => ?_, fun v w t hv hw => ?_, fun w hw => ?_⟩
  · by_cases hv : v ∈ σ.vars <;> simp [NameMap.mem_iff, hr, hv]
  · exact ⟨a v, ha v (hval v t hv).1, (hval v t hv).2⟩
  · obtain ⟨hvq, htv⟩ := hval v t hv
    obtain ⟨hwq, htw⟩ := hval w t hw
    exact hinj v hvq w hwq (Ty.var.inj (htv.symm.trans htw))
  · obtain ⟨q, hq, rfl⟩ := honto w hw.1 hw.2
    exact ⟨q, by rw [hr, if_pos hq]⟩

/-- Sending every variable to one type makes a type equal to each of its renamings, so instance and
body have a unifier. -/
theorem unify_instantiate (σ : Scheme) (ν : NameSupply) :
    ∃ s, unify (σ.instantiate ν).1 σ.body = .ok s := by
  obtain ⟨a, ht, -⟩ := σ.instantiate_eq ν
  have he : (σ.instantiate ν).1.bind (fun _ => Ty.unit) = σ.body.bind fun _ => Ty.unit := by
    rw [ht, Ty.bind_bind]
    rfl
  obtain ⟨s, hs, -⟩ := unify_complete _ _ _ he
  exact ⟨s, hs⟩

theorem mem_vars_instantiate (h : v ∈ (σ.instantiate ν).1.vars) :
    v ∈ σ.freeVars ∨ ν.Drawn (σ.instantiate ν).2 v := by
  obtain ⟨a, ht, ha, -⟩ := σ.instantiate_eq ν
  rw [ht] at h
  obtain ⟨w, hw, hv⟩ := Ty.mem_vars_bind.1 h
  have hv := Ty.mem_vars_var.1 hv
  by_cases hq : w ∈ σ.vars
  · rw [hv, if_pos hq]
    exact .inr (ha w hq)
  · rw [hv, if_neg hq]
    exact .inl (mem_freeVars.2 ⟨hw, hq⟩)

theorem mem_freeVars_of_instances (h : (σ.instantiate ν₁).2.Reaches ν₂)
    (hv₁ : v ∈ (σ.instantiate ν₁).1.vars) (hv₂ : v ∈ (σ.instantiate ν₂).1.vars) :
    v ∈ σ.freeVars := by
  rcases mem_vars_instantiate hv₁ with hv | hd₁
  · exact hv
  · rcases mem_vars_instantiate hv₂ with hv | hd₂
    · exact hv
    · exact absurd (h.pending hd₂.1) hd₁.2

end Scheme

/-- The instance of a generalisation unifies with the type, whatever names the supply hands out. If
these are new to the type, the instance is the type under a renaming of exactly those of its
variables that are not free in the context to exactly the names that were drawn, and the others
stay. These alone are shared with the next instance. -/
theorem instantiate_generalize {Γ : Context} {t i : Ty} {ν ν' : NameSupply}
    (h : (Γ.generalize t).instantiate ν = (i, ν')) :
    (∃ s, unify i t = .ok s) ∧
    ((∀ v, ν.Drawn ν' v → v ∉ t.vars) →
      ∃ r : Subst, i = t.apply r ∧
        r.RenamesOnto (fun v => v ∈ t.vars ∧ v ∉ Γ.freeVars) (ν.Drawn ν') ∧
        (∀ v ∈ t.vars, ∀ w ∈ t.vars, (Ty.var v).apply r = (Ty.var w).apply r → v = w) ∧
        ∀ v ∈ Γ.freeVars, (Ty.var v).apply r = .var v) ∧
    ∀ v ∈ i.vars, v ∈ ((Γ.generalize t).instantiate ν').1.vars → v ∈ t.vars ∧ v ∈ Γ.freeVars := by
  obtain rfl : ((Γ.generalize t).instantiate ν).1 = i := congrArg Prod.fst h
  obtain rfl : ((Γ.generalize t).instantiate ν).2 = ν' := congrArg Prod.snd h
  refine ⟨(Γ.generalize t).unify_instantiate ν, fun hnew => ?_, fun v hv₁ hv₂ => ?_⟩
  · obtain ⟨r, hi, hr⟩ := (Γ.generalize t).exists_renamesOnto ν
    have hdom : ∀ v, v ∈ r ↔ v ∈ t.vars ∧ v ∉ Γ.freeVars :=
      fun v => (hr.domain v).trans Context.mem_vars_generalize
    refine ⟨r, hi, { hr with domain := hdom }, hr.apply_injective hnew, fun v hv => ?_⟩
    exact Ty.apply_var_of_not_mem fun hm => ((hdom v).1 hm).2 hv
  · have hfree := Scheme.mem_freeVars_of_instances (.refl _) hv₁ hv₂
    exact ⟨(Scheme.mem_freeVars.1 hfree).1, Context.mem_freeVars_generalize hfree⟩

/-- `x : 'a`, where `'a` must stay. -/
def pinnedContext : Context := .singleton "x" (.mono (.var "a"))

theorem instantiate_generalize_pinned :
    (pinnedContext.generalize (.fn (.var "a") (.fn (.var "b") (.var "c")))).instantiate ⟨3, ∅⟩ =
      (.fn (.var "a") (.fn (.var "d") (.var "e")), ⟨5, ∅⟩) ∧
    (∀ v, NameSupply.Drawn ⟨3, ∅⟩ ⟨5, ∅⟩ v →
      v ∉ (Ty.fn (.var "a") (.fn (.var "b") (.var "c"))).vars) ∧
    ∃ r : Subst, Ty.fn (.var "a") (.fn (.var "d") (.var "e")) =
        (Ty.fn (.var "a") (.fn (.var "b") (.var "c"))).apply r ∧
      (Ty.var "a").apply r = .var "a" := by
  have h : (pinnedContext.generalize (.fn (.var "a") (.fn (.var "b") (.var "c")))).instantiate
      ⟨3, ∅⟩ = (.fn (.var "a") (.fn (.var "d") (.var "e")), ⟨5, ∅⟩) := by
    cbv
  have hdraw : NameSupply.draw 2 ⟨3, ∅⟩ = (["d", "e"], ⟨5, ∅⟩) := by
    cbv
  have hnew : ∀ v, NameSupply.Drawn ⟨3, ∅⟩ ⟨5, ∅⟩ v →
      v ∉ (Ty.fn (.var "a") (.fn (.var "b") (.var "c"))).vars := by
    intro v hv
    have hmem : v ∈ (NameSupply.draw 2 ⟨3, ∅⟩).1 := by
      rw [NameSupply.mem_draw_iff, hdraw]
      exact hv
    rw [hdraw] at hmem
    have hother : ∀ w ∈ ["d", "e"], w ∉ (Ty.fn (.var "a") (.fn (.var "b") (.var "c"))).vars := by
      decide
    exact hother v hmem
  obtain ⟨r, hi, -, -, hstay⟩ := (instantiate_generalize h).2.1 hnew
  exact ⟨h, hnew, r, hi, hstay "a" (by decide)⟩

-- the first name drawn is `'a`, and two variables of the type fall together
example : ((pinnedContext.generalize (.fn (.var "b") (.var "a"))).instantiate .new).1 =
    .fn (.var "a") (.var "a") := by
  cbv

end LetPoly
