import LetPoly.Proofs.Json.Depth
import LetPoly.Proofs.Json.Tree
import Mathlib

/-!
Syntax trees as JSON text. A tree with no key twice and fewer than 128 levels is read back as it was
written, places and keys included, as long as its floats are (`Expr.ofJsonText?_jsonText`).
-/

set_option autoImplicit false

namespace LetPoly

theorem Json.depth_le_of_field? {fs : List (Option String × Json)} {k : String} {j : Json}
    (h : field? fs k = some (some j)) : j.depth ≤ fieldsDepth fs := by
  have hmem : (some k, j) ∈ fs := by
    unfold field? at h
    split at h
    · cases h
    · rename_i k' j' hf
      cases h
      have hm : (k', j) ∈ fs.filter (·.1 = some k) := hf ▸ List.mem_singleton_self _
      obtain ⟨hm, hk⟩ := List.mem_filter.1 hm
      exact of_decide_eq_true hk ▸ hm
    · cases h
  exact depth_le_fieldsDepth hmem

theorem Span.depth_toJson (s : Span) : s.toJson.depth = 1 := by
  simp [toJson, Json.fields, Json.nat]

theorem Span.depth_pos_of_ofJson? {j : Json} {s : Span} (h : ofJson? j = some s) :
    0 < j.depth := by
  unfold ofJson? at h
  split at h
  · simp
  · simp
  · cases h

theorem Ident.depth_toJson (x : Ident) : x.toJson.depth = if x.span.isSome then 2 else 1 := by
  obtain ⟨name, span⟩ := x
  cases span with
  | none => simp [toJson, Json.fields]
  | some s => simp [toJson, Json.fields, s.depth_toJson]

theorem Span.depth_pos_of_optionOfJson? {j : Json} {s : Span}
    (h : optionOfJson? j = some (some s)) : 0 < j.depth := by
  unfold optionOfJson? at h
  split at h
  · cases h
  · obtain ⟨t, ht, -⟩ := Option.map_eq_some_iff.1 h
    exact depth_pos_of_ofJson? ht

theorem Ident.depth_toJson_le_of_ofJson? {j : Json} {x : Ident} (h : ofJson? j = some x) :
    x.toJson.depth ≤ j.depth := by
  rw [depth_toJson]
  unfold ofJson? at h
  split at h
  · simp only [Option.bind_eq_bind, Option.bind_eq_some_iff, Option.pure_def,
      Option.some.injEq] at h
    obtain ⟨name, -, rfl⟩ := h
    simp
  · rename_i name span
    simp only [Option.bind_eq_bind, Option.bind_eq_some_iff, Option.pure_def,
      Option.some.injEq] at h
    obtain ⟨n, -, s, hs, rfl⟩ := h
    cases s with
    | none => simp
    | some s =>
      have hd : 0 < span.depth := Span.depth_pos_of_optionOfJson? hs
      simp
      omega
  · split at h
    · simp only [Option.bind_eq_bind, Option.bind_eq_some_iff, Option.pure_def,
        Option.some.injEq] at h
      obtain ⟨-, -, name, -, span, hspan, n, -, s, hs, rfl⟩ := h
      cases s with
      | none => simp
      | some s =>
        cases span with
        | none => simp [Span.optionOfJson?] at hs
        | some j =>
          have hd : 0 < j.depth := Span.depth_pos_of_optionOfJson? hs
          have hle := Json.depth_le_of_field? hspan
          simp
          omega
    · cases h
  · cases h

/-- Finite floats, and a value of at most `d` levels. -/
structure Literal.WellFormed (l : Literal) (d : Nat) : Prop where
  floats : ∀ x ∈ l.floats, x.isFinite = true
  depth : l.toJson.depth ≤ d

structure Pattern.WellFormed (p : Pattern) (d : Nat) : Prop where
  floats : ∀ x ∈ p.floats, x.isFinite = true
  depth : p.toJson.depth ≤ d

structure Pattern.AllWellFormed (ps : List Pattern) (d : Nat) : Prop where
  floats : ∀ x ∈ Pattern.floatsAll ps, x.isFinite = true
  depth : Json.itemsDepth (Pattern.toJsonAll ps) ≤ d

/-- No key twice either. -/
structure Expr.WellFormed (e : Expr) (d : Nat) : Prop where
  keys : e.keysDistinct = true
  floats : ∀ x ∈ e.floats, x.isFinite = true
  depth : e.toJson.depth ≤ d

structure Bindings.WellFormed (bs : Bindings) (d : Nat) : Prop where
  keys : bs.keysDistinct = true
  floats : ∀ x ∈ bs.floats, x.isFinite = true
  depth : Json.fieldsDepth (Expr.bindingsJson bs) ≤ d

structure Binding.WellFormed (b : Binding) (d : Nat) : Prop where
  keys : b.body.keysDistinct = true
  params : ∀ x ∈ Pattern.floatsAll b.params, x.isFinite = true
  floats : ∀ x ∈ b.body.floats, x.isFinite = true
  depth : b.toJson.depth ≤ d

structure Expr.PartialBinding.WellFormed (b : Expr.PartialBinding) (d : Nat) : Prop where
  name : ∀ x, b.name = some x → x.toJson.depth ≤ d
  params : ∀ ps, b.params = some ps → ∃ n < d, Pattern.AllWellFormed ps n
  body : ∀ e, b.body = some e → e.WellFormed d

theorem Literal.wellFormed_of_ofJson? {j : Json} {l : Literal} (h : ofJson? j = some l) :
    l.WellFormed j.depth := by
  unfold ofJson? at h
  split at h
  · obtain ⟨v, -, h⟩ := Option.bind_eq_some_iff.1 h
    split at h
    · cases h
      exact ⟨by simp [floats], by simp [toJson]⟩
    · cases h
  · obtain ⟨x, hx, rfl⟩ := Option.map_eq_some_iff.1 h
    have hf : x.isFinite = true := Numeral.isFinite_of_toBinary64? hx
    exact ⟨by simpa [floats] using hf, by simp [toJson, floatJson, hf]⟩
  · cases h
    exact ⟨by simp [floats], by simp [toJson]⟩
  · cases h
    exact ⟨by simp [floats], by simp [toJson]⟩
  · cases h
    exact ⟨by simp [floats], by simp [toJson]⟩
  · cases h

theorem Pattern.wellFormed_of_ofJson? :
    (∀ j p, ofJson? j = some p → p.WellFormed j.depth) ∧
      ∀ js ps, ofJsonAll? js = some ps → AllWellFormed ps (Json.itemsDepth js) := by
  refine ofJson?.mutual_induct
    (fun j => ∀ p, ofJson? j = some p → p.WellFormed j.depth)
    (fun js => ∀ ps, ofJsonAll? js = some ps → AllWellFormed ps (Json.itemsDepth js))
    ?var ?wildcard ?word ?lit ?named ?con ?other ?nil ?cons
  case var =>
    intro x p h
    rw [ofJson?] at h
    obtain ⟨y, hy, rfl⟩ := Option.map_eq_some_iff.1 h
    exact ⟨by simp [floats], by simpa [toJson] using Ident.depth_toJson_le_of_ofJson? hy⟩
  case wildcard =>
    intro p h
    cases h
    exact ⟨by simp [floats], by simp [toJson]⟩
  case word =>
    intro p h
    cases h
    exact ⟨by simp [floats], by simp [toJson]⟩
  case lit =>
    intro l p h
    rw [ofJson?] at h
    obtain ⟨m, hm, rfl⟩ := Option.map_eq_some_iff.1 h
    have hw := Literal.wellFormed_of_ofJson? hm
    exact ⟨hw.floats, by simpa [toJson] using hw.depth⟩
  case named =>
    intro x p ih q h
    simp only [ofJson?, Option.bind_eq_bind, Option.bind_eq_some_iff, Option.pure_def,
      Option.some.injEq] at h
    obtain ⟨y, hy, r, hr, rfl⟩ := h
    have hx := Ident.depth_toJson_le_of_ofJson? hy
    have hp := (ih r hr).depth
    refine ⟨(ih r hr).floats, ?_⟩
    simp [toJson]
    omega
  case con =>
    intro c args ih q h
    simp only [ofJson?, Option.bind_eq_bind, Option.bind_eq_some_iff, Option.pure_def,
      Option.some.injEq] at h
    obtain ⟨d, hd, ps, hps, rfl⟩ := h
    have hc := Ident.depth_toJson_le_of_ofJson? hd
    have ha := (ih ps hps).depth
    refine ⟨(ih ps hps).floats, ?_⟩
    simp [toJson]
    omega
  case other =>
    intro j _ _ _ _ _ _ p h
    rw [ofJson?] at h
    all_goals first | assumption | cases h
  case nil =>
    intro ps h
    cases h
    exact ⟨by simp [floatsAll], by simp [toJsonAll]⟩
  case cons =>
    intro j js ihj ihjs ps h
    simp only [ofJsonAll?, Option.bind_eq_bind, Option.bind_eq_some_iff, Option.pure_def,
      Option.some.injEq] at h
    obtain ⟨p, hp, qs, hqs, rfl⟩ := h
    have hj := (ihj p hp).depth
    have hjs := (ihjs qs hqs).depth
    refine ⟨List.forall_mem_append.2 ⟨(ihj p hp).floats, (ihjs qs hqs).floats⟩, ?_⟩
    simp [toJsonAll]
    omega

theorem Pattern.wellFormed_of_paramsOfJson? {j : Json} {ps : List Pattern}
    (h : paramsOfJson? (some j) = some ps) : ∃ n < j.depth, AllWellFormed ps n := by
  unfold paramsOfJson? at h
  split at h
  · contradiction
  · rename_i js hj
    cases hj
    exact ⟨Json.itemsDepth js, by simp, wellFormed_of_ofJson?.2 js ps h⟩
  · cases h

theorem Binding.depth_toJson (b : Binding) : b.toJson.depth =
    max b.name.toJson.depth
      (max (Json.itemsDepth (Pattern.toJsonAll b.params) + 1) b.body.toJson.depth) + 1 := by
  simp [toJson, fieldsJson, Json.fields]

theorem Bindings.mem_floats_put {k : String} {b : Binding} {x : Binary64} : (bs : Bindings) →
    x ∈ (bs.put k b).floats →
      x ∈ Pattern.floatsAll b.params ∨ x ∈ b.body.floats ∨ x ∈ bs.floats
  | .nil, h => by simpa [put, floats] using h
  | .cons j y ps e rest, h => by
    rw [put] at h
    split at h
    · simp only [floats, List.mem_append] at h ⊢
      obtain (h | h) | h := h
      · exact .inl h
      · exact .inr (.inl h)
      · exact .inr (.inr (.inr h))
    · simp only [floats, List.mem_append] at h ⊢
      obtain h | h := h
      · exact .inr (.inr (.inl h))
      · exact (mem_floats_put rest h).imp_right (.imp_right .inr)

theorem Bindings.depth_put_le {k : String} {b : Binding} {d : Nat} (hb : b.toJson.depth ≤ d) :
    (bs : Bindings) → Json.fieldsDepth (Expr.bindingsJson bs) ≤ d →
      Json.fieldsDepth (Expr.bindingsJson (bs.put k b)) ≤ d
  | .nil, _ => by simpa [put, Expr.bindingsJson, Binding.toJson] using hb
  | .cons j y ps e rest, h => by
    rw [Expr.bindingsJson, Json.fieldsDepth_cons, Nat.max_le] at h
    rw [put]
    split
    · rw [Expr.bindingsJson, Json.fieldsDepth_cons]
      exact Nat.max_le.2 ⟨hb, h.2⟩
    · rw [Expr.bindingsJson, Json.fieldsDepth_cons]
      exact Nat.max_le.2 ⟨h.1, depth_put_le hb rest h.2⟩

theorem Bindings.WellFormed.put {bs : Bindings} {b : Binding} {d : Nat} (h : bs.WellFormed d)
    (hb : b.WellFormed d) (k : String) : (bs.put k b).WellFormed d := by
  refine ⟨keysDistinct_put hb.keys bs h.keys, fun x hx => ?_, depth_put_le hb.depth bs h.depth⟩
  obtain hx | hx | hx := bs.mem_floats_put hx
  · exact hb.params x hx
  · exact hb.floats x hx
  · exact h.floats x hx

theorem Binding.WellFormed.mono {b : Binding} {m n : Nat} (h : b.WellFormed m) (hmn : m ≤ n) :
    b.WellFormed n :=
  ⟨h.keys, h.params, h.floats, h.depth.trans hmn⟩

namespace Expr.WellFormed

variable {f a b e : Expr} {p : Pattern} {bs : Bindings} {m n : Nat}

theorem mono (h : e.WellFormed m) (hmn : m ≤ n) : e.WellFormed n :=
  ⟨h.keys, h.floats, h.depth.trans hmn⟩

theorem app (hf : f.WellFormed m) (ha : a.WellFormed n) :
    (Expr.app f a).WellFormed (max m n + 2) := by
  have hfd := hf.depth
  have had := ha.depth
  refine ⟨by simp [keysDistinct, hf.keys, ha.keys],
    List.forall_mem_append.2 ⟨hf.floats, ha.floats⟩, ?_⟩
  simp [toJson]
  omega

theorem abs (hp : p.WellFormed m) (hb : b.WellFormed n) :
    (Expr.abs p b).WellFormed (max m n + 2) := by
  have hpd := hp.depth
  have hbd := hb.depth
  refine ⟨hb.keys, List.forall_mem_append.2 ⟨hp.floats, hb.floats⟩, ?_⟩
  simp [toJson]
  omega

theorem group (he : e.WellFormed m) : (Expr.group e).WellFormed (m + 1) :=
  ⟨he.keys, he.floats, by simpa [toJson] using he.depth⟩

theorem letIn (hbs : bs.WellFormed m) (hb : b.WellFormed n) :
    (Expr.letIn bs b).WellFormed (max (m + 1) n + 2) := by
  have hbsd := hbs.depth
  have hbd := hb.depth
  refine ⟨by simp [keysDistinct, hbs.keys, hb.keys],
    List.forall_mem_append.2 ⟨hbs.floats, hb.floats⟩, ?_⟩
  simp [toJson]
  omega

end Expr.WellFormed

theorem Expr.PartialBinding.WellFormed.finish {b : PartialBinding} {c : Binding} {d : Nat}
    (h : b.WellFormed d) (hf : b.finish? = some c) : c.WellFormed (d + 1) := by
  simp only [finish?, Option.bind_eq_bind, Option.bind_eq_some_iff, Option.pure_def,
    Option.some.injEq] at hf
  obtain ⟨x, hx, e, he, rfl⟩ := hf
  have hname := h.name x hx
  have hbody := h.body e he
  -- The empty list that stands for missing parameters is as deep as a name without place.
  have hparams : ∃ n < d, Pattern.AllWellFormed (b.params.getD []) n := by
    cases hp : b.params with
    | none =>
      have hpos : 0 < x.toJson.depth := by
        rw [x.depth_toJson]
        split <;> omega
      exact ⟨0, by omega, by simp [Pattern.floatsAll], by simp [Pattern.toJsonAll]⟩
    | some ps => exact h.params ps hp
  obtain ⟨n, hn, hps⟩ := hparams
  have hdepth := hps.depth
  have hdepth' := hbody.depth
  refine ⟨hbody.keys, hps.floats, hbody.floats, ?_⟩
  rw [Binding.depth_toJson]
  dsimp only
  omega

theorem Expr.wellFormed_of_ofJson? (j : Json) :
    ∀ e, ofJson? j = some e → e.WellFormed j.depth := by
  -- Along the reader: expressions, the bindings of a `let`, one binding, the fields of a binding.
  -- What was read before is well formed, and stays so.
  refine ofJson?.induct (fun j => ∀ e, ofJson? j = some e → e.WellFormed j.depth)
    (fun acc fs => ∀ d, Json.fieldsDepth fs ≤ d → acc.WellFormed d →
      ∀ bs, bindingsOfJson? acc fs = some bs → bs.WellFormed d)
    (fun j => ∀ b, bindingOfJson? j = some b → b.WellFormed j.depth)
    (fun acc fs => ∀ d, Json.fieldsDepth fs ≤ d → acc.WellFormed d →
      ∀ b, bindingFields? acc fs = some b → b.WellFormed d)
    ?lit ?var ?app ?abs ?group ?letIn ?other ?arrayBinding ?objectBinding ?otherBinding ?noBinding
    ?binding ?noField ?nameAgain ?name ?paramsAgain ?params ?body ?unknown ?unreadable j
  case lit =>
    intro l e h
    rw [ofJson?] at h
    obtain ⟨m, hm, rfl⟩ := Option.map_eq_some_iff.1 h
    have hw := Literal.wellFormed_of_ofJson? hm
    exact ⟨rfl, hw.floats, by simpa [toJson] using hw.depth⟩
  case var =>
    intro x e h
    rw [ofJson?] at h
    obtain ⟨y, hy, rfl⟩ := Option.map_eq_some_iff.1 h
    have hd := Ident.depth_toJson_le_of_ofJson? hy
    exact ⟨rfl, by simp [Expr.floats], by simpa [toJson] using hd⟩
  case app =>
    intro f a ihf iha e h
    simp only [ofJson?, Option.bind_eq_bind, Option.bind_eq_some_iff, Option.pure_def,
      Option.some.injEq] at h
    obtain ⟨f', hf, a', ha, rfl⟩ := h
    simpa using (ihf f' hf).app (iha a' ha)
  case abs =>
    intro p b ihb e h
    simp only [ofJson?, Option.bind_eq_bind, Option.bind_eq_some_iff, Option.pure_def,
      Option.some.injEq] at h
    obtain ⟨q, hq, b', hb, rfl⟩ := h
    simpa using WellFormed.abs (Pattern.wellFormed_of_ofJson?.1 p q hq) (ihb b' hb)
  case group =>
    intro j ih e h
    rw [ofJson?] at h
    obtain ⟨e', he, rfl⟩ := Option.map_eq_some_iff.1 h
    simpa using (ih e' he).group
  case letIn =>
    intro fs b ihfs ihb e h
    simp only [ofJson?, Option.bind_eq_bind, Option.bind_eq_some_iff, Option.pure_def,
      Option.some.injEq] at h
    obtain ⟨bs, hbs, b', hb, rfl⟩ := h
    have hnil : Bindings.nil.WellFormed (Json.fieldsDepth fs) :=
      ⟨rfl, by simp [Bindings.floats], by simp [bindingsJson]⟩
    simpa using WellFormed.letIn (ihfs _ (Nat.le_refl _) hnil bs hbs) (ihb b' hb)
  case other =>
    intro j _ _ _ _ _ _ e h
    rw [ofJson?] at h
    all_goals first | assumption | cases h
  case arrayBinding =>
    intro x ps b ihb c h
    simp only [bindingOfJson?, Option.bind_eq_bind, Option.bind_eq_some_iff, Option.pure_def,
      Option.some.injEq] at h
    obtain ⟨x', hx, ps', hps, b', hb, rfl⟩ := h
    have hxd := Ident.depth_toJson_le_of_ofJson? hx
    obtain ⟨n, hn, hps⟩ := Pattern.wellFormed_of_paramsOfJson? hps
    have hpsd := hps.depth
    have hbd := (ihb b' hb).depth
    refine ⟨(ihb b' hb).keys, hps.floats, (ihb b' hb).floats, ?_⟩
    rw [Binding.depth_toJson]
    simp
    omega
  case objectBinding =>
    intro fs ih c h
    simp only [bindingOfJson?, Option.bind_eq_bind, Option.bind_eq_some_iff] at h
    obtain ⟨b, hb, hc⟩ := h
    rw [Json.depth_object]
    exact (ih _ (Nat.le_refl _) ⟨by simp, by simp, by simp⟩ b hb).finish hc
  case otherBinding =>
    intro j _ _ c h
    rw [bindingOfJson?] at h
    all_goals first | assumption | cases h
  case noBinding =>
    intro acc d _ hacc bs h
    rw [bindingsOfJson?] at h
    cases h
    exact hacc
  case binding =>
    intro acc k j fs ihj ihfs d hd hacc bs h
    simp only [bindingsOfJson?, Option.bind_eq_bind, Option.bind_eq_some_iff] at h
    obtain ⟨k', -, b, hb, h⟩ := h
    rw [Json.fieldsDepth_cons, Nat.max_le] at hd
    exact ihfs k' b d hd.2 (hacc.put ((ihj b hb).mono hd.1) k') bs h
  case noField =>
    intro acc d _ hacc b h
    rw [bindingFields?] at h
    cases h
    exact hacc
  case nameAgain =>
    intro acc j fs hs d _ _ b h
    rw [bindingFields?, if_pos hs] at h
    cases h
  case name =>
    intro acc j fs hs ih d hd hacc b h
    rw [Json.fieldsDepth_cons, Nat.max_le] at hd
    rw [bindingFields?, if_neg hs] at h
    obtain ⟨x, hx, h⟩ := Option.bind_eq_some_iff.1 h
    refine ih x d hd.2 ⟨fun y hy => ?_, hacc.params, hacc.body⟩ b h
    cases hy
    exact (Ident.depth_toJson_le_of_ofJson? hx).trans hd.1
  case paramsAgain =>
    intro acc j fs hs d _ _ b h
    rw [bindingFields?, if_pos hs] at h
    cases h
  case params =>
    intro acc j fs hs ih d hd hacc b h
    rw [Json.fieldsDepth_cons, Nat.max_le] at hd
    rw [bindingFields?, if_neg hs] at h
    obtain ⟨ps, hps, h⟩ := Option.bind_eq_some_iff.1 h
    refine ih ps d hd.2 ⟨hacc.name, fun qs hqs => ?_, hacc.body⟩ b h
    cases hqs
    obtain ⟨n, hn, hps⟩ := Pattern.wellFormed_of_paramsOfJson? hps
    exact ⟨n, Nat.lt_of_lt_of_le hn hd.1, hps⟩
  case body =>
    intro acc j fs ihj ih d hd hacc b h
    rw [Json.fieldsDepth_cons, Nat.max_le] at hd
    simp only [bindingFields?, Option.bind_eq_bind, Option.bind_eq_some_iff] at h
    obtain ⟨e, he, h⟩ := h
    split at h
    · cases h
    · refine ih e d hd.2 ⟨hacc.name, hacc.params, fun e' he' => ?_⟩ b h
      cases he'
      exact (ihj e he).mono hd.1
  case unknown =>
    intro acc k j fs h₁ h₂ h₃ ih d hd hacc b h
    rw [Json.fieldsDepth_cons, Nat.max_le] at hd
    rw [bindingFields?] at h
    · exact ih d hd.2 hacc b h
    all_goals assumption
  case unreadable =>
    intro acc j fs d _ _ b h
    rw [bindingFields?] at h
    cases h

theorem Expr.ofJsonText?_eq (e : Expr) :
    ofJsonText? e.jsonText = ofJson? (e.toJson.cut Json.maxDepth) := by
  rw [ofJsonText?, jsonText, Json.read?_compact e.proper_toJson]
  rfl

/-- A tree is no deeper than any text from which it is read. -/
theorem Expr.wellFormed_of_ofJsonText? {src : String} {e : Expr} (h : ofJsonText? src = some e) :
    e.WellFormed Json.maxDepth := by
  simp only [ofJsonText?, Json.read?, Option.bind_eq_bind, Option.bind_eq_some_iff,
    Option.pure_def, Option.some.injEq] at h
  obtain ⟨-, ⟨ts, -, j, -, rfl⟩, he⟩ := h
  exact (wellFormed_of_ofJson? _ e he).mono (Json.depth_cut_le _ _)

/-- A tree is read back from its text as it is, if it has fewer than 128 levels and only then. So is
every tree that was read from any text. -/
theorem Expr.ofJsonText?_jsonText :
    (∀ e : Expr, e.keysDistinct = true →
      (∀ x ∈ e.floats, x.isFinite = true) → (∀ x ∈ e.floats, x.ReadsBack) →
        (ofJsonText? e.jsonText = some e ↔ e.toJson.depth < 128)) ∧
    ∀ (src : String) (e : Expr), ofJsonText? src = some e → (∀ x ∈ e.floats, x.ReadsBack) →
      ofJsonText? e.jsonText = some e := by
  have hwritten : ∀ e : Expr, e.WellFormed Json.maxDepth → (∀ x ∈ e.floats, x.ReadsBack) →
      ofJsonText? e.jsonText = some e := by
    intro e hw hf
    rw [ofJsonText?_eq, Json.cut_eq_self _ _ hw.depth]
    exact e.ofJson?_toJson hw.keys fun x hx => ⟨hw.floats x hx, hf x hx⟩
  refine ⟨fun e hk hx hf => ⟨fun h => ?_, fun hd => ?_⟩, fun src e h hf => ?_⟩
  · exact Nat.lt_succ_of_le (wellFormed_of_ofJsonText? h).depth
  · exact hwritten e ⟨hk, hx, Nat.le_of_lt_succ hd⟩ hf
  · exact hwritten e (wellFormed_of_ofJsonText? h) hf

/-- Written `let f 1.5 = "\u0001" in f`, with a reversed place and a key of its own for `f`. -/
def keyedLet : Expr :=
  .letIn (.cons "\"g\"" ⟨"f", some ⟨7, 3⟩⟩ [.lit (.float ⟨0x3FF8000000000000⟩)]
    (.lit (.string "\x01")) .nil) (.var ⟨"f", none⟩)

/-- Of `n + 1` levels. -/
def nestedGroups : Nat → Expr
  | 0 => .lit .unit
  | n + 1 => .group (nestedGroups n)

/-- A name may be read from an array, too. The level that is one too many is not read. -/
theorem Expr.ofJsonText?_jsonText_keyedLet :
    ofJsonText? keyedLet.jsonText = some keyedLet ∧
      ofJsonText? (nestedGroups 126).jsonText = some (nestedGroups 126) ∧
      ofJsonText? (nestedGroups 127).jsonText ≠ some (nestedGroups 127) ∧
      ofJsonText? "\x7b\"Var\":[\"x\",[7,3]]\x7d" = some (.var ⟨"x", some ⟨7, 3⟩⟩) ∧
      ofJsonText? (var ⟨"x", some ⟨7, 3⟩⟩).jsonText = some (.var ⟨"x", some ⟨7, 3⟩⟩) := by
  have hread : ofJsonText? "\x7b\"Var\":[\"x\",[7,3]]\x7d" = some (.var ⟨"x", some ⟨7, 3⟩⟩) := by
    cbv
  refine ⟨(ofJsonText?_jsonText.1 keyedLet ?_ ?_ ?_).2 ?_,
    (ofJsonText?_jsonText.1 (nestedGroups 126) ?_ ?_ ?_).2 ?_,
    (ofJsonText?_jsonText.1 (nestedGroups 127) ?_ ?_ ?_).not.2 ?_,
    hread, ofJsonText?_jsonText.2 _ _ hread (by simp [floats])⟩
  all_goals decide +kernel

end LetPoly
