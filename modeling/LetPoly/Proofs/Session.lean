import LetPoly.Proofs.Closed

set_option autoImplicit false

namespace LetPoly

/-- An expression or a binding to be checked, in a context of its own. -/
inductive Call where
  | expr (e : Expr) (Γ : Context)
  | binding (b : Binding) (Γ : Context)

namespace Call

def context : Call → Context
  | .expr _ Γ | .binding _ Γ => Γ

def infer : Call → Check (Subst × Ty)
  | .expr e Γ => e.infer Γ
  | .binding b Γ => b.infer Γ

end Call

abbrev Answer := Except TypeError (Subst × Ty) × NameSupply

/-- The answers to calls made one after the other. -/
def session : List Call → NameSupply → List Answer
  | [], _ => []
  | c :: cs, ν => c.infer.exec ν :: session cs (c.infer.exec ν).2

def resultVars (s : Subst) (t : Ty) : List String :=
  s.keys ++ s.entries.flatMap (·.2.vars) ++ t.vars

def Answer.vars : Answer → List String
  | (.ok (s, t), _) => resultVars s t
  | (.error _, _) => []

theorem Call.advances_infer (c : Call) : c.infer.Advances := by
  cases c with
  | expr e Γ => exact e.advances_infer Γ
  | binding b Γ => exact Check.advances_function b.body.advances_infer Γ

theorem Call.outcome {c : Call} {ν ν' : NameSupply} {s : Subst} {t : Ty}
    (hc : ν.Avoids c.context) (h : c.infer.exec ν = (.ok (s, t), ν')) :
    Outcome c.context ν s t ν' := by
  cases c with
  | expr e Γ => exact e.tidy hc h
  | binding b Γ => exact b.outcome hc h

theorem Outcome.inPlay_resultVars {Γ : Context} {ν ν' : NameSupply} {s : Subst} {t : Ty}
    (o : Outcome Γ ν s t ν') {v : String} (hv : v ∈ resultVars s t) : Γ.InPlay ν ν' v := by
  simp only [resultVars, List.mem_append, List.mem_flatMap] at hv
  rcases hv with (hv | ⟨⟨w, u⟩, hu, hv⟩) | hv
  · exact o.subst.key v (NameMap.mem_keys.1 hv)
  · exact (o.subst.value w u (NameMap.mem_entries.1 hu) v hv).1
  · exact (o.type v hv).1

/-- In a closed context every variable of an answer is drawn by that very call. -/
theorem Call.drawn_of_mem_vars {c : Call} (hc : c.context.Closed) (ν : NameSupply) {v : String}
    (hv : v ∈ Answer.vars (c.infer.exec ν)) :
    ν.Pending v ∧ ¬ (c.infer.exec ν).2.Pending v := by
  have havoid : ν.Avoids c.context := fun w hw => absurd hw (hc.not_mem_freeVars w)
  cases hr : c.infer.exec ν with
  | mk r ν' =>
    rw [hr] at hv
    cases r with
    | error e => cases hv
    | ok st =>
      have o : Outcome c.context ν st.1 st.2 ν' := Call.outcome havoid hr
      exact (o.inPlay_resultVars hv).resolve_left (hc.not_mem_freeVars v)

theorem reaches_session {calls : List Call} (h : ∀ c ∈ calls, c.context.Closed) {ν : NameSupply}
    {r : Answer} (hr : r ∈ session calls ν) :
    ν.Reaches r.2 ∧ ∀ v ∈ r.vars, ν.Pending v := by
  induction calls generalizing ν with
  | nil => cases hr
  | cons c cs ih =>
    rcases List.mem_cons.1 hr with rfl | hr
    · exact ⟨c.advances_infer ν, fun v hv => (Call.drawn_of_mem_vars (h c (by simp)) ν hv).1⟩
    · obtain ⟨hreach, hpending⟩ := ih (fun d hd => h d (by simp [hd])) hr
      have hc := c.advances_infer ν
      exact ⟨hc.trans hreach, fun v hv => hc.pending (hpending v hv)⟩

theorem pairwise_session {calls : List Call} (h : ∀ c ∈ calls, c.context.Closed)
    (ν : NameSupply) :
    (session calls ν).Pairwise fun r r' => r.vars.Disjoint r'.vars ∧ r.2.issued ≤ r'.2.issued := by
  induction calls generalizing ν with
  | nil => exact .nil
  | cons c cs ih =>
    have hcs : ∀ d ∈ cs, d.context.Closed := fun d hd => h d (by simp [hd])
    refine List.pairwise_cons.2 ⟨fun r hr => ?_, ih hcs _⟩
    -- what a later answer is over was pending when this call was done
    obtain ⟨hreach, hpending⟩ := reaches_session hcs hr
    refine ⟨fun v hv hv' => ?_, hreach.issued⟩
    exact (Call.drawn_of_mem_vars (h c (by simp)) ν hv).2 (hpending v hv')

/-- Whatever was called before, and whether or not it failed: two different calls of a session have
no variable in common in their results, and the number of names drawn so far never decreases. -/
theorem session_apart {calls : List Call} (h : ∀ c ∈ calls, c.context.Closed) (ν : NameSupply) :
    (∀ (i j : Nat) (r r' : Answer), i ≠ j → (session calls ν)[i]? = some r →
      (session calls ν)[j]? = some r' → r.vars.Disjoint r'.vars) ∧
    (ν.issued :: (session calls ν).map fun r => r.2.issued).Pairwise (· ≤ ·) := by
  have hpair := pairwise_session h ν
  refine ⟨fun i j r r' hne hr hr' => ?_, List.pairwise_cons.2 ⟨fun n hn => ?_, ?_⟩⟩
  · obtain ⟨hi, rfl⟩ := List.getElem?_eq_some_iff.1 hr
    obtain ⟨hj, rfl⟩ := List.getElem?_eq_some_iff.1 hr'
    rw [List.pairwise_iff_getElem] at hpair
    rcases Nat.lt_or_gt_of_ne hne with hlt | hlt
    · exact (hpair i j hi hj hlt).1
    · exact (hpair j i hj hi hlt).1.symm
  · obtain ⟨r, hr, rfl⟩ := List.mem_map.1 hn
    exact (reaches_session h hr).1.issued
  · exact List.pairwise_map.2 (hpair.imp fun hr => hr.2)

/-- `\x -> x`, then `f 1` with `f` unbound, which fails after its result variable was drawn, then
`g x = k x` with `k` quantified over all its variables. -/
def retriedCalls : List Call :=
  [.expr (.lambda ⟨"x", none⟩ (.var ⟨"x", none⟩)) ∅,
    .expr (.app (.var ⟨"f", none⟩) (.lit (.int 1))) ∅,
    .binding ⟨⟨"g", none⟩, [.var ⟨"x", none⟩], .app (.var ⟨"k", none⟩) (.var ⟨"x", none⟩)⟩
      (.singleton "k" (.closed (.fn (.var "a") (.var "a"))))]

theorem session_retriedCalls_apart :
    session retriedCalls .new =
      [(.ok (∅, .fn (.var "a") (.var "a")), ⟨1, ∅⟩), (.error (.unbound "f"), ⟨2, ∅⟩),
        (.ok (.ofList [("c", .var "d"), ("e", .var "d")], .fn (.var "d") (.var "d")), ⟨5, ∅⟩)] ∧
    (resultVars ∅ (.fn (.var "a") (.var "a"))).Disjoint
      (resultVars (.ofList [("c", .var "d"), ("e", .var "d")]) (.fn (.var "d") (.var "d"))) := by
  have h : session retriedCalls .new =
      [(.ok (∅, .fn (.var "a") (.var "a")), ⟨1, ∅⟩), (.error (.unbound "f"), ⟨2, ∅⟩),
        (.ok (.ofList [("c", .var "d"), ("e", .var "d")], .fn (.var "d") (.var "d")), ⟨5, ∅⟩)] := by
    cbv
  have hclosed : ∀ c ∈ retriedCalls, c.context.Closed := by decide
  have hapart := (session_apart hclosed .new).1 0 2
  rw [h] at hapart
  exact ⟨h, hapart _ _ (by decide) rfl rfl⟩

end LetPoly
