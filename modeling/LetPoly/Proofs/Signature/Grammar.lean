import LetPoly.Signature.Parser

/-!
The grammar of type signatures as a relation between tokens and what they denote. The parser accepts
exactly the texts whose tokens can be derived, and returns what is derived
(`parseScheme_iff_derives`).
-/

set_option autoImplicit false

namespace LetPoly.Signature

mutual
/-- `type := application ("->" type)?` -/
inductive DerivesType : List Token → Ty → Prop
  | application {ts : List Token} {t : Ty} : DerivesApplication ts t → DerivesType ts t
  | arrow {ts us : List Token} {a b : Ty} :
      DerivesApplication ts a → DerivesType us b → DerivesType (ts ++ .arrow :: us) (.fn a b)

/-- `application := atom atom*` -/
inductive DerivesApplication : List Token → Ty → Prop
  | atom {ts : List Token} {t : Ty} : DerivesAtom ts t → DerivesApplication ts t
  | apply {ts us : List Token} {f a : Ty} :
      DerivesApplication ts f → DerivesAtom us a → DerivesApplication (ts ++ us) (.app f a)

/-- `atom := constructor | variable | "()" | "(->)" | "(" type ")"` -/
inductive DerivesAtom : List Token → Ty → Prop
  | con (c : String) : DerivesAtom [.con c] (.con c)
  | var (v : String) : DerivesAtom [.var v] (.var v)
  | unit : DerivesAtom [.openParen, .closeParen] .unit
  | arrow : DerivesAtom [.openParen, .arrow, .closeParen] .arrow
  | parens {ts : List Token} {t : Ty} :
      DerivesType ts t → DerivesAtom (.openParen :: ts ++ [.closeParen]) t
end

/-- `scheme := quantifier variable+ "." type | type` -/
inductive DerivesScheme : List Token → Scheme → Prop
  | quantified {vs : List String} {ts : List Token} {t : Ty} :
      vs ≠ [] → DerivesType ts t → (∀ v ∈ t.vars, v ∈ vs) →
      DerivesScheme (.quantifier :: vs.map .var ++ .dot :: ts) (.poly vs t)
  | implicit {ts : List Token} {t : Ty} : DerivesType ts t → DerivesScheme ts (.closed t)

def Token.startsType : Token → Bool
  | .con _ | .var _ | .openParen => true
  | _ => false

theorem DerivesAtom.head {ts : List Token} {t : Ty} (h : DerivesAtom ts t) :
    ∃ a us, ts = a :: us ∧ a.startsType = true := by
  cases h <;> exact ⟨_, _, rfl, rfl⟩

theorem DerivesApplication.head {ts : List Token} {t : Ty} : DerivesApplication ts t →
    ∃ a us, ts = a :: us ∧ a.startsType = true
  | .atom h => h.head
  | .apply h _ => by
    obtain ⟨a, us, rfl, ha⟩ := h.head
    exact ⟨a, _, rfl, ha⟩

theorem DerivesType.head {ts : List Token} {t : Ty} (h : DerivesType ts t) :
    ∃ a us, ts = a :: us ∧ a.startsType = true := by
  cases h with
  | application h => exact h.head
  | arrow h _ =>
    obtain ⟨a, us, rfl, ha⟩ := h.head
    exact ⟨a, _, rfl, ha⟩

/-- The parser goes over `ts`, wherever they stand, and puts `t` to the level at hand. -/
def ReadsAtom (ts : List Token) (t : Ty) : Prop :=
  ∀ us : List (Token × Nat), us.map Prod.fst = ts → ∀ l outer rest,
    readType l outer (us ++ rest) = readType (l.push t) outer rest

def ReadsApplication (ts : List Token) (t : Ty) : Prop :=
  ∀ us : List (Token × Nat), us.map Prod.fst = ts → ∀ params outer rest,
    readType ⟨params, none⟩ outer (us ++ rest) = readType ⟨params, some t⟩ outer rest

/-- The level that is left may hold some parameters of `t`, and would close to the same type. -/
def ReadsType (ts : List Token) (t : Ty) : Prop :=
  ∀ us : List (Token × Nat), us.map Prod.fst = ts → ∀ params outer rest,
    ∃ params' u, (Level.mk params' (some u)).close u = (Level.mk params none).close t ∧
      readType ⟨params, none⟩ outer (us ++ rest) = readType ⟨params', some u⟩ outer rest

theorem ReadsApplication.of_atom {ts : List Token} {t : Ty} (h : ReadsAtom ts t) :
    ReadsApplication ts t := by
  intro us hus params outer rest
  rw [h us hus]
  rfl

theorem ReadsApplication.apply {ts us : List Token} {f a : Ty} (hf : ReadsApplication ts f)
    (ha : ReadsAtom us a) : ReadsApplication (ts ++ us) (.app f a) := by
  intro ws hws params outer rest
  obtain ⟨xs, ys, rfl, hxs, hys⟩ := List.map_eq_append_iff.1 hws
  rw [List.append_assoc, hf xs hxs, ha ys hys]
  rfl

theorem ReadsType.of_application {ts : List Token} {t : Ty} (h : ReadsApplication ts t) :
    ReadsType ts t :=
  fun us hus params outer rest => ⟨params, t, rfl, h us hus params outer rest⟩

theorem ReadsType.arrow {ts us : List Token} {a b : Ty} (ha : ReadsApplication ts a)
    (hb : ReadsType us b) : ReadsType (ts ++ .arrow :: us) (.fn a b) := by
  intro ws hws params outer rest
  obtain ⟨xs, zs, rfl, hxs, hzs⟩ := List.map_eq_append_iff.1 hws
  obtain ⟨⟨t, n⟩, ys, rfl, rfl, hys⟩ := List.map_eq_cons_iff.1 hzs
  obtain ⟨params', u, hclose, hread⟩ := hb ys hys (a :: params) outer rest
  refine ⟨params', u, hclose, ?_⟩
  rw [List.append_assoc, ha xs hxs, List.cons_append, readType]
  exact hread

theorem ReadsAtom.parens {ts : List Token} {t : Ty} (hd : DerivesType ts t) (h : ReadsType ts t) :
    ReadsAtom (.openParen :: ts ++ [.closeParen]) t := by
  intro ws hws l outer rest
  obtain ⟨⟨o, n⟩, zs, rfl, rfl, hzs⟩ := List.map_eq_cons_iff.1 hws
  obtain ⟨xs, ys, rfl, hxs, hys⟩ := List.map_eq_append_iff.1 hzs
  obtain ⟨⟨c, m⟩, ns, rfl, rfl, hns⟩ := List.map_eq_cons_iff.1 hys
  obtain rfl := List.map_eq_nil_iff.1 hns
  obtain ⟨params', u, hclose, hread⟩ := h xs hxs [] (l :: outer) ((.closeParen, m) :: rest)
  -- the first token of a type is neither `)` nor `->`, so a new level is opened
  have hopen : readType l outer ((.openParen, n) :: (xs ++ (.closeParen, m) :: rest)) =
      readType .start (l :: outer) (xs ++ (.closeParen, m) :: rest) := by
    obtain ⟨a, us, rfl, ha⟩ := hd.head
    obtain ⟨⟨a, k⟩, ys, rfl, rfl, -⟩ := List.map_eq_cons_iff.1 hxs
    cases a <;> first | rfl | cases ha
  have hpush : readType ⟨params', some u⟩ (l :: outer) ((.closeParen, m) :: rest) =
      readType (l.push t) outer rest := by
    show readType (l.push ((Level.mk params' (some u)).close u)) outer rest = _
    rw [hclose]
    rfl
  calc readType l outer ((.openParen, n) :: (xs ++ [(.closeParen, m)]) ++ rest)
      = readType l outer ((.openParen, n) :: (xs ++ (.closeParen, m) :: rest)) := by simp
    _ = readType .start (l :: outer) (xs ++ (.closeParen, m) :: rest) := hopen
    _ = readType (l.push t) outer rest := hread.trans hpush

theorem DerivesType.reads {ts : List Token} {t : Ty} (h : DerivesType ts t) : ReadsType ts t := by
  refine @DerivesType.rec (fun ts t _ => ReadsType ts t) (fun ts t _ => ReadsApplication ts t)
    (fun ts t _ => ReadsAtom ts t) ?_ ?_ ?_ ?_ ?_ ?_ ?_ ?_ ?_ ts t h
  · exact fun _ => .of_application
  · exact fun _ _ => .arrow
  · exact fun _ => .of_atom
  · exact fun _ _ => .apply
  · intro c us hus l outer rest
    simp only [List.map_eq_cons_iff, List.map_eq_nil_iff] at hus
    obtain ⟨⟨_, n⟩, _, rfl, rfl, rfl⟩ := hus
    rfl
  · intro v us hus l outer rest
    simp only [List.map_eq_cons_iff, List.map_eq_nil_iff] at hus
    obtain ⟨⟨_, n⟩, _, rfl, rfl, rfl⟩ := hus
    rfl
  · intro us hus l outer rest
    simp only [List.map_eq_cons_iff, List.map_eq_nil_iff] at hus
    obtain ⟨⟨_, n⟩, _, rfl, rfl, ⟨_, m⟩, _, rfl, rfl, rfl⟩ := hus
    rfl
  · intro us hus l outer rest
    simp only [List.map_eq_cons_iff, List.map_eq_nil_iff] at hus
    obtain ⟨⟨_, n⟩, _, rfl, rfl, ⟨_, m⟩, _, rfl, rfl, ⟨_, k⟩, _, rfl, rfl, rfl⟩ := hus
    rfl
  · exact fun hd => .parens hd

theorem readType_of_derives {us : List (Token × Nat)} {t : Ty}
    (h : DerivesType (us.map Prod.fst) t) : readType .start [] us = .ok t := by
  obtain ⟨params, u, hclose, hread⟩ := h.reads us rfl [] [] []
  rw [List.append_nil] at hread
  calc readType .start [] us = .ok ((Level.mk params (some u)).close u) := hread
    _ = .ok t := by rw [hclose]; rfl

theorem DerivesType.unique {ts : List Token} {t t' : Ty} (h : DerivesType ts t)
    (h' : DerivesType ts t') : t = t' := by
  have hts : (ts.map fun a => (a, 0)).map Prod.fst = ts := by simp [Function.comp_def]
  rw [← hts] at h h'
  exact Except.ok.inj ((readType_of_derives h).symm.trans (readType_of_derives h'))

/-- The tokens that were read since the level was opened. -/
inductive Level.Holds : Level → List Token → Prop
  | start : Holds .start []
  | push {l : Level} {ts us : List Token} {t : Ty} :
      l.Holds ts → DerivesAtom us t → (l.push t).Holds (ts ++ us)
  | arrow {l : Level} {ts : List Token} {t : Ty} :
      l.Holds ts → l.head = some t → Holds ⟨t :: l.params, none⟩ (ts ++ [.arrow])

/-- The tokens that were read with these levels open. -/
inductive Holding : Level → List Level → List Token → Prop
  | outermost {l : Level} {ts : List Token} : l.Holds ts → Holding l [] ts
  | nested {l up : Level} {outer : List Level} {ts us : List Token} :
      Holding up outer ts → l.Holds us → Holding l (up :: outer) (ts ++ .openParen :: us)

theorem Level.Holds.split {l : Level} {ts : List Token} (h : l.Holds ts) :
    ∃ us ws, ts = us ++ ws ∧ (∀ xs t, DerivesType xs t → DerivesType (us ++ xs) (l.close t)) ∧
      match l.head with
      | none => ws = []
      | some f => DerivesApplication ws f := by
  induction h with
  | start => exact ⟨[], [], rfl, fun _ _ h => h, rfl⟩
  | @push l ts xs t _ ha ih =>
    obtain ⟨us, ws, rfl, hclose, hw⟩ := ih
    obtain ⟨params, head⟩ := l
    cases head with
    | none =>
      obtain rfl : ws = [] := hw
      exact ⟨us, xs, by simp, hclose, .atom ha⟩
    | some f => exact ⟨us, ws ++ xs, by simp, hclose, .apply hw ha⟩
  | @arrow l ts t _ hl ih =>
    obtain ⟨us, ws, rfl, hclose, hw⟩ := ih
    rw [hl] at hw
    refine ⟨us ++ (ws ++ [.arrow]), [], by simp, fun xs b hb => ?_, rfl⟩
    rw [List.append_assoc, List.append_assoc]
    exact hclose _ _ (.arrow hw hb)

section Steps

variable {l up : Level} {outer : List Level} {ts us : List Token} {t : Ty}

theorem Level.Holds.close (h : l.Holds ts) (hl : l.head = some t) : DerivesType ts (l.close t) := by
  obtain ⟨us, ws, rfl, hclose, hw⟩ := h.split
  rw [hl] at hw
  exact hclose ws t (.application hw)

theorem Holding.push (h : Holding l outer ts) (ha : DerivesAtom us t) :
    Holding (l.push t) outer (ts ++ us) := by
  cases h with
  | outermost h => exact .outermost (.push h ha)
  | nested hup h => simpa using .nested hup (.push h ha)

theorem Holding.arrow (h : Holding l outer ts) (hl : l.head = some t) :
    Holding ⟨t :: l.params, none⟩ outer (ts ++ [.arrow]) := by
  cases h with
  | outermost h => exact .outermost (.arrow h hl)
  | nested hup h => simpa using .nested hup (.arrow h hl)

theorem Holding.close (h : Holding l (up :: outer) ts) (hl : l.head = some t) :
    Holding (up.push (l.close t)) outer (ts ++ [.closeParen]) := by
  cases h with
  | nested hup h => simpa using hup.push (.parens (h.close hl))

end Steps

theorem derives_of_readType {l : Level} {outer : List Level} {us : List (Token × Nat)}
    {ts : List Token} {t : Ty} (h : Holding l outer ts) (hr : readType l outer us = .ok t) :
    DerivesType (ts ++ us.map Prod.fst) t := by
  fun_induction readType l outer us generalizing ts with
  | case1 l u hl =>
    cases hr
    cases h with
    | outermost h => simpa using h.close hl
  | case3 l outer c n us ih => simpa using ih (h.push (.con c)) hr
  | case4 l outer v n us ih => simpa using ih (h.push (.var v)) hr
  | case5 l outer n m us ih => simpa using ih (h.push .unit) hr
  | case6 l outer n m k us ih => simpa using ih (h.push .arrow) hr
  | case7 l outer n us _ _ ih => simpa using ih (.nested h .start) hr
  | case8 l outer n us u hl ih => simpa using ih (h.arrow hl) hr
  | case10 l n us u up outer hl ih => simpa using ih (h.close hl) hr
  | case2 | case9 | case11 | case12 | case13 => cases hr

theorem readType_iff_derives {us : List (Token × Nat)} {t : Ty} :
    readType .start [] us = .ok t ↔ DerivesType (us.map Prod.fst) t :=
  ⟨fun h => by simpa using derives_of_readType (.outermost .start) h, readType_of_derives⟩

theorem readVars_of_map {vs : List String} (acc : List String) {us : List (Token × Nat)}
    {ts : List Token} (h : us.map Prod.fst = vs.map .var ++ .dot :: ts)
    (hne : vs.reverse ++ acc ≠ []) :
    ∃ rest, rest.map Prod.fst = ts ∧ readVars acc us = .ok (vs.reverse ++ acc, rest) := by
  induction vs generalizing acc us with
  | nil =>
    obtain ⟨⟨d, n⟩, rest, rfl, rfl, hrest⟩ := List.map_eq_cons_iff.1 h
    exact ⟨rest, hrest, if_neg hne⟩
  | cons v vs ih =>
    obtain ⟨⟨d, n⟩, us, rfl, rfl, hus⟩ := List.map_eq_cons_iff.1 h
    obtain ⟨rest, hrest, hread⟩ := ih (v :: acc) hus (by simp)
    exact ⟨rest, hrest, by simpa [readVars] using hread⟩

theorem map_of_readVars {acc vars : List String} {us rest : List (Token × Nat)}
    (h : readVars acc us = .ok (vars, rest)) :
    vars ≠ [] ∧ ∃ vs : List String, vars = vs.reverse ++ acc ∧
      us.map Prod.fst = vs.map .var ++ .dot :: rest.map Prod.fst := by
  fun_induction readVars acc us with
  | case2 acc v n us ih =>
    obtain ⟨hne, vs, rfl, hus⟩ := ih h
    exact ⟨hne, v :: vs, by simp, by simp [hus]⟩
  | case4 acc n us hne =>
    cases h
    exact ⟨hne, [], rfl, rfl⟩
  | case1 | case3 | case5 => cases h

theorem bindVars_iff {vars : List String} {t : Ty} {σ : Scheme} :
    bindVars vars t = .ok σ ↔ (∀ v ∈ t.vars, v ∈ vars) ∧ σ = .poly vars t := by
  have hfind : t.freeVars.keys.find? (· ∉ vars) = none ↔ ∀ v ∈ t.vars, v ∈ vars := by
    simp [List.find?_eq_none, NameMap.mem_keys, Ty.mem_freeVars]
  rw [bindVars, ← hfind]
  cases t.freeVars.keys.find? (· ∉ vars) <;> simp [eq_comm]

theorem poly_congr {vs ws : List String} (t : Ty) (h : ∀ v, v ∈ vs ↔ v ∈ ws) :
    Scheme.poly vs t = .poly ws t := by
  have hs : NameSet.ofNames vs = .ofNames ws := NameSet.ext_mem fun v => by simp [h]
  simp [Scheme.poly, hs]

theorem bind_eq_ok {α β : Type} {x : Except Error α} {f : α → Except Error β} {b : β} :
    (x >>= f) = .ok b ↔ ∃ a, x = .ok a ∧ f a = .ok b := by
  cases x with
  | error e => exact ⟨fun h => (by cases h), fun ⟨_, h, _⟩ => (by cases h)⟩
  | ok a => exact ⟨fun h => ⟨a, rfl, h⟩, fun ⟨_, rfl, h⟩ => h⟩

theorem readScheme_quantifier {n : Nat} {us : List (Token × Nat)} {σ : Scheme} :
    readScheme ((.quantifier, n) :: us) = .ok σ ↔
      DerivesScheme (.quantifier :: us.map Prod.fst) σ := by
  constructor
  · intro h
    obtain ⟨⟨vars, rest⟩, hvars, h⟩ := bind_eq_ok.1 h
    obtain ⟨t, ht, hb⟩ := bind_eq_ok.1 h
    obtain ⟨hne, vs, rfl, hus⟩ := map_of_readVars hvars
    obtain ⟨hbound, rfl⟩ := bindVars_iff.1 hb
    have hmem : ∀ v, v ∈ vs ↔ v ∈ vs.reverse ++ [] := by simp
    rw [hus, ← poly_congr t hmem]
    refine .quantified (by simpa using hne) (readType_iff_derives.1 ht) fun v hv => ?_
    exact (hmem v).2 (hbound v hv)
  · intro h
    generalize hts : Token.quantifier :: us.map Prod.fst = ts at h
    cases h with
    | @quantified vs ts t hne ht hbound =>
      have hus := (List.cons.inj hts).2
      obtain ⟨rest, rfl, hread⟩ := readVars_of_map [] hus (by simpa using hne)
      have hmem : ∀ v, v ∈ vs ↔ v ∈ vs.reverse ++ [] := by simp
      refine bind_eq_ok.2 ⟨_, hread, bind_eq_ok.2 ⟨t, readType_iff_derives.2 ht, ?_⟩⟩
      exact bindVars_iff.2 ⟨fun v hv => (hmem v).1 (hbound v hv), poly_congr t hmem⟩
    | implicit ht =>
      obtain ⟨a, ts, rfl, ha⟩ := ht.head
      cases hts
      cases ha

theorem readScheme_iff_derives {us : List (Token × Nat)} {σ : Scheme} :
    readScheme us = .ok σ ↔ DerivesScheme (us.map Prod.fst) σ := by
  by_cases hq : ∃ n ts, us = (.quantifier, n) :: ts
  · obtain ⟨n, ts, rfl⟩ := hq
    exact readScheme_quantifier
  · have hread : readScheme us = readType .start [] us >>= fun t => .ok (.closed t) := by
      rw [readScheme]
      · rfl
      · exact fun n ts h => hq ⟨n, ts, h⟩
    rw [hread]
    constructor
    · intro h
      obtain ⟨t, ht, h⟩ := bind_eq_ok.1 h
      cases h
      exact .implicit (readType_iff_derives.1 ht)
    · intro h
      generalize hts : us.map Prod.fst = ts at h
      cases h with
      | quantified hne ht hbound =>
        obtain ⟨⟨q, n⟩, ts, rfl, rfl, -⟩ := List.map_eq_cons_iff.1 hts
        exact absurd ⟨n, ts, rfl⟩ hq
      | implicit ht => exact bind_eq_ok.2 ⟨_, readType_iff_derives.2 (hts ▸ ht), rfl⟩

theorem DerivesScheme.unique {ts : List Token} {σ σ' : Scheme} (h : DerivesScheme ts σ)
    (h' : DerivesScheme ts σ') : σ = σ' := by
  have hts : (ts.map fun a => (a, 0)).map Prod.fst = ts := by simp [Function.comp_def]
  rw [← hts] at h h'
  exact Except.ok.inj ((readScheme_iff_derives.2 h).symm.trans (readScheme_iff_derives.2 h'))

theorem DerivesScheme.freeVars_eq {ts : List Token} {σ : Scheme} (h : DerivesScheme ts σ) :
    σ.freeVars = ∅ := by
  apply NameSet.ext_mem
  intro v
  cases h with
  | quantified _ _ hbound => simpa [Scheme.mem_freeVars, Scheme.poly] using hbound v
  | implicit _ => simp [Scheme.mem_freeVars, Scheme.closed, Ty.mem_freeVars]

theorem parseScheme_eq_ok {src : String} {σ : Scheme} :
    parseScheme src = .ok σ ↔ ∃ us, tokens src = .ok us ∧ DerivesScheme (us.map Prod.fst) σ := by
  simp only [parseScheme, bind_eq_ok, readScheme_iff_derives]

theorem parseType_eq_ok {src : String} {t : Ty} :
    parseType src = .ok t ↔ parseScheme src = .ok ⟨∅, t⟩ := by
  rw [parseType, bind_eq_ok]
  constructor
  · intro ⟨σ, hσ, ht⟩
    split at ht
    · cases ht
    · rename_i hk
      cases ht
      have hv : σ.vars = ∅ := NameSet.ext_mem fun v => by rw [← NameMap.mem_keys, hk]; simp
      rw [hσ, ← hv]
  · exact fun h => ⟨_, h, rfl⟩

/-- The parser accepts a text exactly if the grammar derives its tokens, and returns the one scheme
that is derived, in which every variable is quantified. A signature without variables is a type. -/
theorem parseScheme_iff_derives :
    (∀ src σ, parseScheme src = .ok σ ↔
      ∃ us, tokens src = .ok us ∧ DerivesScheme (us.map Prod.fst) σ) ∧
    (∀ ts t t', DerivesType ts t → DerivesType ts t' → t = t') ∧
    (∀ ts σ σ', DerivesScheme ts σ → DerivesScheme ts σ' → σ = σ') ∧
    (∀ src σ, parseScheme src = .ok σ → σ.freeVars = ∅) ∧
    ∀ src t, parseType src = .ok t ↔ parseScheme src = .ok ⟨∅, t⟩ := by
  refine ⟨fun _ _ => parseScheme_eq_ok, fun _ _ _ => DerivesType.unique,
    fun _ _ _ => DerivesScheme.unique,
    fun src σ h => ?_, fun _ _ => parseType_eq_ok⟩
  obtain ⟨us, -, hd⟩ := parseScheme_eq_ok.1 h
  exact hd.freeVars_eq

/-- The bare arrow, applied to both of its arguments, is a function type. -/
theorem parseScheme_bare_arrow :
    (∃ us, tokens "forall a. (->) a (a -> ())" = .ok us ∧ DerivesScheme (us.map Prod.fst)
      (.poly ["a"] (.fn (.var "a") (.fn (.var "a") .unit)))) ∧
    (Scheme.poly ["a"] (.fn (.var "a") (.fn (.var "a") .unit))).freeVars = ∅ := by
  have h : parseScheme "forall a. (->) a (a -> ())" =
      .ok (.poly ["a"] (.fn (.var "a") (.fn (.var "a") .unit))) := by rfl
  exact ⟨(parseScheme_iff_derives.1 _ _).1 h, parseScheme_iff_derives.2.2.2.1 _ _ h⟩

end LetPoly.Signature
