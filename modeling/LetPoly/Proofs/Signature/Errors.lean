import LetPoly.Proofs.Signature.RoundTrip
import LetPoly.Proofs.Text.Utf8

/-!
What the errors of a signature point at. An unexpected character stands where the error says, an
unexpected token too, and what was read before it is the beginning of some signature
(`Error.PointsInto`). The parser only ever holds tokens that can be completed: a type that is
missing can be put in, and every open parenthesis closed (`Holding.unfinished`).
-/

set_option autoImplicit false

namespace LetPoly.Signature

open Text (bytes StandsAt)

theorem bind_eq_error {α β : Type} {x : Except Error α} {f : α → Except Error β} {e : Error} :
    (x >>= f) = .error e ↔ x = .error e ∨ ∃ a, x = .ok a ∧ f a = .error e := by
  cases x with
  | error d => simp [Bind.bind, Except.bind]
  | ok a => simp [Bind.bind, Except.bind]

def Token.spellings : Token → List String
  | .quantifier => ["forall", "∀"]
  | .con c => [c]
  | .var v => [v, "'" ++ v]
  | .arrow => ["->"]
  | .openParen => ["("]
  | .closeParen => [")"]
  | .dot => ["."]

/-- The text by which an error names a token, in back quotes: a quantifier always by its word, a
variable always with a quote in front. -/
inductive Token.Rendering : Token → String → Prop
  | quantifier : Rendering .quantifier "`forall`"
  | con (c : String) : Rendering (.con c) ("`" ++ c ++ "`")
  | var (v : String) : Rendering (.var v) ("`'" ++ v ++ "`")
  | arrow : Rendering .arrow "`->`"
  | openParen : Rendering .openParen "`(`"
  | closeParen : Rendering .closeParen "`)`"
  | dot : Rendering .dot "`.`"

theorem Token.rendering_text (t : Token) : t.Rendering t.text := by
  cases t <;> constructor

/-- In a text that starts at offset `n`, `w` stands at offset `m`. -/
def Places (n : Nat) (cs : List Char) (m : Nat) (w : List Char) : Prop :=
  ∃ before after, cs = before ++ (w ++ after) ∧ m = n + byteLength before

theorem byteLength_append (cs ds : List Char) :
    byteLength (cs ++ ds) = byteLength cs + byteLength ds := by
  induction cs with
  | nil => simp [byteLength]
  | cons c cs ih => simp [byteLength, ih, Nat.add_assoc]

theorem byteLength_eq_utf8ByteSize (cs : List Char) :
    byteLength cs = (String.ofList cs).utf8ByteSize := by
  induction cs with
  | nil => rfl
  | cons c cs ih =>
    have hcons : String.ofList (c :: cs) = String.singleton c ++ String.ofList cs := by
      apply String.toList_injective
      simp
    rw [byteLength, ih, hcons, String.utf8ByteSize_append, String.utf8ByteSize_singleton]

section Places

variable {n m : Nat} {cs w : List Char}

theorem places_here (n : Nat) (w cs : List Char) : Places n (w ++ cs) n w :=
  ⟨[], cs, rfl, rfl⟩

theorem Places.later (ds : List Char) (h : Places (n + byteLength ds) cs m w) :
    Places n (ds ++ cs) m w := by
  obtain ⟨before, after, rfl, rfl⟩ := h
  exact ⟨ds ++ before, after, by simp, by rw [byteLength_append, Nat.add_assoc]⟩

theorem Places.inside (h : Places n cs m w) (ds : List Char) : Places n (cs ++ ds) m w := by
  obtain ⟨before, after, rfl, rfl⟩ := h
  exact ⟨before, after ++ ds, by simp, rfl⟩

theorem Places.standsAt {src : String} (h : Places 0 src.toList m w) :
    StandsAt src m (String.ofList w) := by
  obtain ⟨before, after, hsrc, rfl⟩ := h
  have happ : src = String.ofList before ++ (String.ofList w ++ String.ofList after) := by
    rw [← String.ofList_append, ← String.ofList_append, ← hsrc, String.ofList_toList]
  rw [Nat.zero_add, byteLength_eq_utf8ByteSize]
  exact Text.standsAt_of_append happ

end Places

theorem ne_nil_of_mem_lexemes {cs w : List Char} (h : .word w ∈ lexemes cs) : w ≠ [] := by
  fun_induction lexemes cs generalizing w with
  | case1 => simp at h
  | case2 c cs _ w' ls hls ih =>
    rcases List.mem_cons.1 h with h | h
    · cases h
      simp
    · exact ih (hls ▸ List.mem_cons_of_mem _ h)
  | case3 c cs _ _ ih =>
    rcases List.mem_cons.1 h with h | h
    · cases h
      simp
    · exact ih h
  | case4 c cs _ ih => exact ih (by simpa using h)

theorem spelled_of_wordToken {n : Nat} {w : List Char} {t : Token} (h : wordToken n w = .ok t) :
    String.ofList w ∈ t.spellings := by
  unfold wordToken at h
  split at h
  · rename_i hw
    cases h
    simp [Token.spellings, hw]
  split at h
  · cases h
  · cases h
  · split at h
    · cases h
      have hq : ∀ cs : List Char, String.ofList ('\x27' :: cs) = "'" ++ String.ofList cs := by
        intro cs
        apply String.toList_injective
        simp
      simp [Token.spellings, hq]
    · cases h
  · split at h
    · cases h
      simp [Token.spellings]
    · split at h
      · cases h
        simp [Token.spellings]
      · cases h

theorem places_of_wordToken_error {n : Nat} {w : List Char} {e : Error} (hw : w ≠ [])
    (h : wordToken n w = .error e) : ∃ c m, e = .unexpectedChar c m ∧ Places n w m [c] := by
  unfold wordToken at h
  split at h
  · cases h
  split at h
  · exact absurd rfl hw
  · cases h
    exact ⟨_, _, rfl, places_here n ['\x27'] []⟩
  · split at h
    · cases h
    · cases h
      exact ⟨_, _, rfl, ['\x27'], _, rfl, rfl⟩
  · split at h
    · cases h
    · split at h
      · cases h
      · cases h
        exact ⟨_, _, rfl, [], _, rfl, rfl⟩

theorem spelled_of_markToken? {c : Char} {t : Token} (h : markToken? c = some t) :
    String.ofList [c] ∈ t.spellings := by
  unfold markToken? at h
  split at h <;> cases h <;> decide

/-- Every token stands, in one of its spellings, where it says, and an error names a character that
stands where it says. -/
def Located (n : Nat) (cs : List Char) : Except Error (List (Token × Nat)) → Prop
  | .ok us => ∀ u ∈ us, ∃ w, String.ofList w ∈ u.1.spellings ∧ Places n cs u.2 w
  | .error e => ∃ c m, e = .unexpectedChar c m ∧ Places n cs m [c]

section Located

variable {n : Nat} {cs : List Char} {x : Except Error (List (Token × Nat))}

theorem Located.later (ds : List Char) (h : Located (n + byteLength ds) cs x) :
    Located n (ds ++ cs) x := by
  cases x with
  | ok us =>
    intro u hu
    obtain ⟨w, hw, hp⟩ := h u hu
    exact ⟨w, hw, hp.later ds⟩
  | error e =>
    obtain ⟨c, m, he, hp⟩ := h
    exact ⟨c, m, he, hp.later ds⟩

theorem Located.cons {w : List Char} {t : Token} (h : Located (n + byteLength w) cs x)
    (ht : String.ofList w ∈ t.spellings) :
    Located n (w ++ cs) (do return (t, n) :: (← x)) := by
  have hl := h.later w
  cases x with
  | ok us =>
    intro u hu
    rcases List.mem_cons.1 hu with rfl | hu
    · exact ⟨w, ht, places_here n w cs⟩
    · exact hl u hu
  | error e => exact hl

end Located

theorem located_tokensFrom {n : Nat} {ls : List Lexeme} (hls : ∀ w, .word w ∈ ls → w ≠ []) :
    Located n (ls.flatMap Lexeme.chars) (tokensFrom n ls) := by
  fun_induction tokensFrom n ls with
  | case1 => exact fun u hu => by cases hu
  | case2 n ls ih =>
    have hrest := ih fun w hw => hls w (by simp [hw])
    exact hrest.cons (w := ['-', '>']) (by decide)
  | case3 n w ls ih =>
    have hrest := ih fun w hw => hls w (by simp [hw])
    rw [List.flatMap_cons]
    cases ht : wordToken n w with
    | ok t => exact hrest.cons (spelled_of_wordToken ht)
    | error e =>
      obtain ⟨c, m, he, hp⟩ := places_of_wordToken_error (hls w (by simp)) ht
      exact ⟨c, m, he, hp.inside _⟩
  | case4 n c ls _ _ ih => exact (ih fun w hw => hls w (by simp [hw])).later [c]
  | case5 n c ls _ _ t ht ih =>
    have hrest := ih fun w hw => hls w (by simp [hw])
    exact hrest.cons (w := [c]) (spelled_of_markToken? ht)
  | case6 n c ls => exact ⟨c, n, rfl, places_here n [c] _⟩

theorem located_tokens (src : String) : Located 0 src.toList (tokens src) := by
  have hwords : ∀ w, .word w ∈ lexemes src.toList → w ≠ [] := fun w => ne_nil_of_mem_lexemes
  have h := located_tokensFrom (n := 0) hwords
  rwa [flatMap_lexemes] at h

/-- `scheme := quantifier variable+ "." type | type`, by its form alone: the variables of the type
need not be among those that are listed. -/
inductive DerivesForm : List Token → Option (List String) → Ty → Prop
  | quantified {vs : List String} {ts : List Token} {t : Ty} :
      vs ≠ [] → DerivesType ts t →
      DerivesForm (.quantifier :: vs.map .var ++ .dot :: ts) (some vs) t
  | implicit {ts : List Token} {t : Ty} : DerivesType ts t → DerivesForm ts none t

def Grammatical (ts : List Token) : Prop := ∃ listed t, DerivesForm ts listed t

section Completion

variable {l : Level} {outer : List Level} {ts : List Token}

theorem Holding.closes {t : Ty} (h : Holding l outer ts) (hl : l.head = some t) :
    ∃ u, DerivesType (ts ++ List.replicate outer.length .closeParen) u := by
  induction outer generalizing l ts t with
  | nil =>
    cases h with
    | outermost h => exact ⟨_, by simpa using h.close hl⟩
  | cons up outer ih =>
    obtain ⟨u, hu⟩ := ih (h.close hl) rfl
    exact ⟨u, by simpa [List.replicate_succ] using hu⟩

theorem Holding.unfinished (h : Holding l outer ts) (hl : l.head = none ∨ outer ≠ []) :
    ∃ w ws t, DerivesType (ts ++ w :: ws) t := by
  cases hhead : l.head with
  | none =>
    obtain ⟨u, hu⟩ := (h.push (.con "T")).closes rfl
    exact ⟨.con "T", _, u, by simpa using hu⟩
  | some t =>
    obtain ⟨u, hu⟩ := h.closes hhead
    cases outer with
    | nil => simp [hhead] at hl
    | cons up outer => exact ⟨.closeParen, _, u, hu⟩

theorem Holding.viable (h : Holding l outer ts) : ∃ ws t, DerivesType (ts ++ ws) t := by
  cases hhead : l.head with
  | none =>
    obtain ⟨w, ws, t, ht⟩ := h.unfinished (.inl hhead)
    exact ⟨w :: ws, t, ht⟩
  | some t =>
    obtain ⟨u, hu⟩ := h.closes hhead
    exact ⟨_, u, hu⟩

end Completion

/-- Where a reader of `us` gives up, with `ts` behind it, if it reads the lists of `G`: at a token
before which some list of `G` begins, or at the end of tokens with which some longer list of `G`
begins. -/
def Error.GivesUp (G : List Token → Prop) (ts : List Token) (us : List (Token × Nat)) :
    Error → Prop
  | .expected _ found n => ∃ a pre post, us = pre ++ (a, n) :: post ∧ found = a.text ∧
      ∃ ws, G (ts ++ (pre.map Prod.fst ++ ws))
  | .unexpectedEnd _ => ∃ w ws, G (ts ++ (us.map Prod.fst ++ w :: ws))
  | .unexpectedChar _ _ | .unboundVariable _ => False

section GivesUp

variable {G H : List Token → Prop} {ts ts' : List Token} {us : List (Token × Nat)} {e : Error}

theorem Error.GivesUp.imp (h : e.GivesUp G ts us) (hGH : ∀ ws, G (ts ++ ws) → H (ts' ++ ws)) :
    e.GivesUp H ts' us := by
  cases e with
  | expected w found n =>
    obtain ⟨a, pre, post, hus, hfound, ws, hws⟩ := h
    exact ⟨a, pre, post, hus, hfound, ws, hGH _ hws⟩
  | unexpectedEnd w =>
    obtain ⟨a, ws, hws⟩ := h
    exact ⟨a, ws, hGH _ hws⟩
  | unexpectedChar c n => exact h
  | unboundVariable v => exact h

theorem Error.GivesUp.read (xs : List (Token × Nat)) (h : e.GivesUp G (ts ++ xs.map Prod.fst) us) :
    e.GivesUp G ts (xs ++ us) := by
  cases e with
  | expected w found n =>
    obtain ⟨a, pre, post, rfl, hfound, ws, hws⟩ := h
    exact ⟨a, xs ++ pre, post, by simp, hfound, ws, by simpa using hws⟩
  | unexpectedEnd w =>
    obtain ⟨a, ws, hws⟩ := h
    exact ⟨a, ws, by simpa using hws⟩
  | unexpectedChar c n => exact h
  | unboundVariable v => exact h

theorem Error.givesUp_head {what : Expectation} {a : Token} {n : Nat} (h : ∃ ws, G (ts ++ ws)) :
    Error.GivesUp G ts ((a, n) :: us) (.expected what a.text n) :=
  ⟨a, [], us, rfl, rfl, h⟩

end GivesUp

theorem givesUp_of_readType {l : Level} {outer : List Level} {us : List (Token × Nat)}
    {ts : List Token} {e : Error} (h : Holding l outer ts) (hr : readType l outer us = .error e) :
    e.GivesUp (fun ts => ∃ t, DerivesType ts t) ts us := by
  fun_induction readType l outer us generalizing ts with
  | case1 => cases hr
  | case2 l outer hopen =>
    cases hr
    refine h.unfinished ?_
    cases hl : l.head with
    | none => exact .inl rfl
    | some t => exact .inr fun ho => hopen t hl ho
  | case3 l outer c n us ih => exact (ih (h.push (.con c)) hr).read [(.con c, n)]
  | case4 l outer v n us ih => exact (ih (h.push (.var v)) hr).read [(.var v, n)]
  | case5 l outer n m us ih =>
    exact (ih (h.push .unit) hr).read [(.openParen, n), (.closeParen, m)]
  | case6 l outer n m k us ih =>
    exact (ih (h.push .arrow) hr).read [(.openParen, n), (.arrow, m), (.closeParen, k)]
  | case7 l outer n us _ _ ih => exact (ih (.nested h .start) hr).read [(.openParen, n)]
  | case8 l outer n us u hl ih => exact (ih (h.arrow hl) hr).read [(.arrow, n)]
  | case10 l n us u up outer hl ih =>
    exact (ih (h.close hl) hr).read [(.closeParen, n)]
  | case9 | case11 | case12 | case13 =>
    cases hr
    exact Error.givesUp_head h.viable

theorem grammatical_listing (vs : List String) :
    Grammatical (.quantifier :: vs.map .var ++ [.var "a", .dot, .con "T"]) := by
  have hform : DerivesForm (.quantifier :: (vs ++ ["a"]).map .var ++ .dot :: [.con "T"])
      (some (vs ++ ["a"])) (.con "T") :=
    .quantified (by simp) (.application (.atom (.con "T")))
  exact ⟨_, _, by simpa using hform⟩

theorem givesUp_of_readVars {acc : List String} {us : List (Token × Nat)} {e : Error}
    (h : readVars acc us = .error e) :
    e.GivesUp Grammatical (.quantifier :: acc.reverse.map .var) us := by
  fun_induction readVars acc us with
  | case1 acc =>
    cases h
    exact ⟨_, _, grammatical_listing acc.reverse⟩
  | case2 acc v n us ih =>
    have hrest := ih h
    rw [List.reverse_cons, List.map_append, ← List.cons_append] at hrest
    exact hrest.read [(.var v, n)]
  | case3 n us =>
    cases h
    exact Error.givesUp_head ⟨_, grammatical_listing []⟩
  | case4 => cases h
  | case5 acc t n us =>
    cases h
    exact Error.givesUp_head ⟨_, grammatical_listing acc.reverse⟩

theorem suffix_of_readVars {acc vars : List String} {us rest : List (Token × Nat)}
    (h : readVars acc us = .ok (vars, rest)) : rest <:+ us := by
  fun_induction readVars acc us with
  | case2 acc v n us ih => exact (ih h).trans (List.suffix_cons _ us)
  | case4 acc n us =>
    cases h
    exact List.suffix_cons _ _
  | case1 | case3 | case5 => cases h

theorem exists_listing_of_readVars {vars : List String} {us rest : List (Token × Nat)}
    (h : readVars [] us = .ok (vars, rest)) :
    ∃ xs vs, us = xs ++ rest ∧ xs.map Prod.fst = vs.map .var ++ [.dot] ∧ vs ≠ [] ∧
      ∀ v, v ∈ vars ↔ v ∈ vs := by
  obtain ⟨hne, vs, rfl, hus⟩ := map_of_readVars h
  obtain ⟨xs, rfl⟩ := suffix_of_readVars h
  refine ⟨xs, vs, rfl, ?_, by simpa using hne, by simp⟩
  have hcat : xs.map Prod.fst ++ rest.map Prod.fst =
      (vs.map .var ++ [.dot]) ++ rest.map Prod.fst := by
    simpa using hus
  exact List.append_cancel_right hcat

/-- The first variable of `t`, byte by byte, that is not listed. -/
structure LeastUnlisted (vs : List String) (t : Ty) (v : String) : Prop where
  occurs : v ∈ t.vars
  unlisted : v ∉ vs
  least : ∀ w ∈ t.vars, w ∉ vs → bytes v ≤ bytes w

theorem leastUnlisted_of_bindVars {vs : List String} {t : Ty} {e : Error}
    (h : bindVars vs t = .error e) : ∃ v, e = .unboundVariable v ∧ LeastUnlisted vs t v := by
  unfold bindVars at h
  split at h
  · rename_i v hv
    cases h
    obtain ⟨hp, before, after, hkeys, hbefore⟩ := List.find?_eq_some_iff_append.1 hv
    have hsorted := t.freeVars.keys_pairwise
    have hmem : ∀ w, w ∈ t.vars ↔ w ∈ before ++ v :: after := by
      intro w
      rw [← hkeys, NameMap.mem_keys, Ty.mem_freeVars]
    rw [hkeys] at hsorted
    refine ⟨v, rfl, (hmem v).2 (by simp), by simpa using hp, fun w hw hn => ?_⟩
    rcases List.mem_append.1 ((hmem w).1 hw) with hw | hw
    · exact absurd (hbefore w hw) (by simpa using hn)
    · rcases List.mem_cons.1 hw with rfl | hw
      · exact List.lt_irrefl _
      · have hlt := (List.pairwise_cons.1 (List.pairwise_append.1 hsorted).2.1).1 w hw
        exact List.lt_asymm (Text.bytes_lt_bytes hlt)
  · cases h

/-- The parser gives up at a token that no signature has there, or finds a signature of which some
variable is not listed. -/
theorem givesUp_of_readScheme {us : List (Token × Nat)} {e : Error}
    (h : readScheme us = .error e) :
    e.GivesUp Grammatical [] us ∨ ∃ v vs t, e = .unboundVariable v ∧
      DerivesForm (us.map Prod.fst) (some vs) t ∧ LeastUnlisted vs t v := by
  unfold readScheme at h
  split at h
  · rename_i n us
    rcases bind_eq_error.1 h with hvars | ⟨⟨vars, rest⟩, hvars, hrest⟩
    · exact .inl ((givesUp_of_readVars hvars).read [(.quantifier, n)])
    · obtain ⟨xs, vs, rfl, hxs, hne, hmem⟩ := exists_listing_of_readVars hvars
      have hform : ∀ ws t, DerivesType ws t →
          DerivesForm (.quantifier :: xs.map Prod.fst ++ ws) (some vs) t := by
        intro ws t ht
        simpa [hxs] using DerivesForm.quantified hne ht
      rcases bind_eq_error.1 hrest with htype | ⟨t, htype, hbind⟩
      · have hgives := givesUp_of_readType (.outermost .start) htype
        refine .inl (.read ((.quantifier, n) :: xs) (hgives.imp fun ws hws => ?_))
        obtain ⟨t, ht⟩ := hws
        exact ⟨some vs, t, hform ws t ht⟩
      · obtain ⟨v, he, hv⟩ := leastUnlisted_of_bindVars hbind
        refine .inr ⟨v, vs, t, he, ?_, hv.occurs, fun hm => hv.unlisted ((hmem v).2 hm),
          fun w hw hn => hv.least w hw fun hm => hn ((hmem w).1 hm)⟩
        simpa using hform _ t (readType_iff_derives.1 htype)
  · rcases bind_eq_error.1 h with htype | ⟨t, -, ht⟩
    · refine .inl ((givesUp_of_readType (.outermost .start) htype).imp fun ws hws => ?_)
      obtain ⟨t, ht⟩ := hws
      exact ⟨none, t, .implicit ht⟩
    · cases ht

/-- What an error says of the text in which it was found. -/
def Error.PointsInto (src : String) : Error → Prop
  | .unexpectedChar c n =>
    ∃ (p : src.Pos) (h : p ≠ src.endPos), p.offset.byteIdx = n ∧ p.get h = c
  | .expected _ found n => ∃ a pre post, tokens src = .ok (pre ++ (a, n) :: post) ∧
      a.Rendering found ∧ (∃ w ∈ a.spellings, StandsAt src n w) ∧
      ∃ ws, Grammatical (pre.map Prod.fst ++ ws)
  | .unexpectedEnd _ => ∃ us, tokens src = .ok us ∧
      ∃ w ws, Grammatical (us.map Prod.fst ++ w :: ws)
  | .unboundVariable v => ∃ us vs t, tokens src = .ok us ∧
      DerivesForm (us.map Prod.fst) (some vs) t ∧ LeastUnlisted vs t v

theorem pointsInto_of_tokens {src : String} {e : Error} (h : tokens src = .error e) :
    e.PointsInto src := by
  have hl := located_tokens src
  rw [h] at hl
  obtain ⟨c, m, rfl, hp⟩ := hl
  exact StandsAt.get (String.singleton_eq_ofList ▸ hp.standsAt)

theorem standsAt_of_mem_tokens {src : String} {us : List (Token × Nat)} (h : tokens src = .ok us)
    {u : Token × Nat} (hu : u ∈ us) : ∃ w ∈ u.1.spellings, StandsAt src u.2 w := by
  have hl := located_tokens src
  rw [h] at hl
  obtain ⟨w, hw, hp⟩ := hl u hu
  exact ⟨_, hw, hp.standsAt⟩

/-- Every error of a signature points at the right place: an unexpected character stands in the text
at its offset; an unexpected token starts at its offset and is named by its rendering, and the
tokens before it are the beginning of a signature; where the text ends too early, its tokens go on
to a signature; and an unbound variable is the least that the quantifier in front does not list. -/
theorem parseScheme_error_pointsInto {src : String} {e : Error} (h : parseScheme src = .error e) :
    e.PointsInto src := by
  rcases bind_eq_error.1 h with htokens | ⟨us, htokens, hread⟩
  · exact pointsInto_of_tokens htokens
  · rcases givesUp_of_readScheme hread with hgives | ⟨v, vs, t, rfl, hform, hv⟩
    · cases e with
      | expected what found n =>
        obtain ⟨a, pre, post, rfl, rfl, hviable⟩ := hgives
        have hmem : (a, n) ∈ pre ++ (a, n) :: post := by simp
        exact ⟨a, pre, post, htokens, a.rendering_text, standsAt_of_mem_tokens htokens hmem,
          hviable⟩
      | unexpectedEnd what => exact ⟨us, htokens, hgives⟩
      | unexpectedChar c n => exact hgives.elim
      | unboundVariable v => exact hgives.elim
    · exact ⟨us, vs, t, htokens, hform, hv⟩

section Texts

-- `∀` is looked up in all of the tables of letters
set_option maxRecDepth 4096

/-- One text for each kind of error; `∀` takes three bytes. -/
theorem pointsInto_each_kind :
    (parseScheme "∀ a. a -> '_x" = .error (.unexpectedChar '_' 13) ∧
      Error.PointsInto "∀ a. a -> '_x" (.unexpectedChar '_' 13)) ∧
    (parseScheme "∀ a. List (a . Int" = .error (.expected .closeParen "`.`" 15) ∧
      Error.PointsInto "∀ a. List (a . Int" (.expected .closeParen "`.`" 15)) ∧
    (parseScheme "∀ a. (a ->" = .error (.unexpectedEnd .type) ∧
      Error.PointsInto "∀ a. (a ->" (.unexpectedEnd .type)) ∧
    (parseScheme "forall b. c -> a" = .error (.unboundVariable "a") ∧
      Error.PointsInto "forall b. c -> a" (.unboundVariable "a")) := by
  have h₁ : parseScheme "∀ a. a -> '_x" = .error (.unexpectedChar '_' 13) := by rfl
  have h₂ : parseScheme "∀ a. List (a . Int" = .error (.expected .closeParen "`.`" 15) := by rfl
  have h₃ : parseScheme "∀ a. (a ->" = .error (.unexpectedEnd .type) := by rfl
  have h₄ : parseScheme "forall b. c -> a" = .error (.unboundVariable "a") := by rfl
  exact ⟨⟨h₁, parseScheme_error_pointsInto h₁⟩, ⟨h₂, parseScheme_error_pointsInto h₂⟩,
    ⟨h₃, parseScheme_error_pointsInto h₃⟩, h₄, parseScheme_error_pointsInto h₄⟩

end Texts

end LetPoly.Signature
