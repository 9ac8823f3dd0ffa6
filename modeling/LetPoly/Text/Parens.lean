set_option autoImplicit false

namespace LetPoly.Text

def parens (b : Bool) (s : String) : String := if b then "(" ++ s ++ ")" else s

end LetPoly.Text
