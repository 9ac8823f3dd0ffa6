import LetPoly.Expr.Basic

/-!
The keys of bindings. A `let` is built by putting its bindings one after the other, so no key stands
in it twice (`Bindings.keysDistinct_put`).
-/

set_option autoImplicit false

namespace LetPoly

def Bindings.keys : Bindings → List String
  | .nil => []
  | .cons k _ _ _ rest => k :: rest.keys

mutual
/-- No `let` inside has a key twice. -/
def Expr.keysDistinct : Expr → Bool
  | .lit _ | .var _ => true
  | .app f a => f.keysDistinct && a.keysDistinct
  | .abs _ b => b.keysDistinct
  | .group e => e.keysDistinct
  | .letIn bs b => bs.keysDistinct && b.keysDistinct

def Bindings.keysDistinct : Bindings → Bool
  | .nil => true
  | .cons k _ _ e rest => k ∉ rest.keys && e.keysDistinct && rest.keysDistinct
end

namespace Bindings

variable {k : String} {x : Ident} {ps : List Pattern} {e : Expr} {b : Binding} {rest bs : Bindings}

theorem keysDistinct_cons : (cons k x ps e rest).keysDistinct = true ↔
    k ∉ rest.keys ∧ e.keysDistinct = true ∧ rest.keysDistinct = true := by
  simp [keysDistinct, and_assoc]

theorem keys_put (k : String) (b : Binding) (bs : Bindings) :
    (bs.put k b).keys = if k ∈ bs.keys then bs.keys else bs.keys ++ [k] :=
  match bs with
  | .nil => rfl
  | .cons j x ps e rest => by
    by_cases h : j = k
    · simp [put, keys, h]
    · have h' : k ≠ j := fun hk => h hk.symm
      simp only [put, h, if_false, keys, keys_put k b rest, List.mem_cons, h', false_or]
      split <;> simp

theorem keysDistinct_put (hb : b.body.keysDistinct = true) :
    (bs : Bindings) → bs.keysDistinct = true → (bs.put k b).keysDistinct = true
  | .nil, _ => by simp [put, keysDistinct, keys, hb]
  | .cons j x ps e rest, h => by
    obtain ⟨hj, he, hr⟩ := keysDistinct_cons.1 h
    by_cases hjk : j = k
    · simpa [put, hjk] using keysDistinct_cons.2 ⟨hjk ▸ hj, hb, hr⟩
    · have hrest := keysDistinct_put hb rest hr
      have hkey : j ∉ (rest.put k b).keys := by
        rw [keys_put]
        split
        · exact hj
        · simp [hj, hjk]
      simpa [put, hjk] using keysDistinct_cons.2 ⟨hkey, he, hrest⟩

end Bindings

end LetPoly
