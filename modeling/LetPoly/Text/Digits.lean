set_option autoImplicit false

namespace LetPoly.Text

def decimalDigits (n : Nat) : List Char := Nat.toDigits 10 n

def decimalValue (ds : List Char) : Nat := ds.foldl (fun n c => 10 * n + (c.toNat - 48)) 0

def padded (w n : Nat) : List Char :=
  let ds := decimalDigits n
  List.replicate (w - ds.length) '0' ++ ds

def dropClosingZeros (ds : List Char) : List Char := (ds.reverse.dropWhile (· = '0')).reverse

def hexDigits (n : Nat) : List Char := Nat.toDigits 16 n

def hexDigit (n : Nat) : Char := if n < 10 then Char.ofNat (48 + n) else Char.ofNat (87 + n)

def hexValue? (c : Char) : Option Nat :=
  if '0' ≤ c ∧ c ≤ '9' then some (c.toNat - 48)
  else if 'a' ≤ c ∧ c ≤ 'f' then some (c.toNat - 87)
  else if 'A' ≤ c ∧ c ≤ 'F' then some (c.toNat - 55)
  else none

theorem hexValue?_hexDigit {n : Nat} (h : n < 16) : hexValue? (hexDigit n) = some n := by
  have : ∀ m : Fin 16, hexValue? (hexDigit m) = some m.val := by decide
  exact this ⟨n, h⟩

end LetPoly.Text
