set_option autoImplicit false

namespace LetPoly.Text

/-- First and last code point. -/
abbrev CodeRange := Nat × Nat

namespace CodeRange

/-- Membership in an ascending list: the search stops at the first range that starts later. -/
def covers : List CodeRange → Nat → Bool
  | [], _ => false
  | (lo, hi) :: rs, n => lo ≤ n && (n ≤ hi || covers rs n)

end CodeRange

end LetPoly.Text
