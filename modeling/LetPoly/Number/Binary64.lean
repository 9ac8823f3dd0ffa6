/-!
Binary64 numbers as their 64 bits: sign, eleven bits of exponent, fifty-two of fraction. The bits
are the value, so every NaN keeps its sign and payload.
-/

set_option autoImplicit false

namespace LetPoly

def pow2 (k : Nat) : Nat := Nat.pow 2 k
def pow10 (k : Nat) : Nat := Nat.pow 10 k

structure Binary64 where
  bits : UInt64
  deriving DecidableEq, Inhabited

namespace Binary64

def magnitude (x : Binary64) : Nat := x.bits.toNat % pow2 63

def negative (x : Binary64) : Bool := pow2 63 ≤ x.bits.toNat

def infinityBits : Nat := 2047 * pow2 52

def isNaN (x : Binary64) : Bool := infinityBits < x.magnitude

def isFinite (x : Binary64) : Bool := x.magnitude < infinityBits

def isZero (x : Binary64) : Bool := x.magnitude = 0

def ofMagnitude (negative : Bool) (m : Nat) : Binary64 :=
  ⟨UInt64.ofNat (if negative then pow2 63 + m else m)⟩

/-- Numerical equality: no NaN equals anything, and both zeros are equal. -/
def same (x y : Binary64) : Bool :=
  !x.isNaN && !y.isNaN && (x.bits == y.bits || x.isZero && y.isZero)

def ratio (m : Nat) : Nat × Nat :=
  let e := m / pow2 52
  let f := m % pow2 52
  if e = 0 then (f, pow2 1074) else ((pow2 52 + f) * pow2 (e - 1075), pow2 (1075 - e))

/-- The nearest integer to `n / d`, a half going to the even neighbour. -/
def roundDiv (n d : Nat) : Nat :=
  let q := n / d
  let r := n % d
  if 2 * r < d then q else if d < 2 * r then q + 1 else q + q % 2

/-- The magnitude nearest to `n / d`, a half going to the even neighbour; none from infinity up.
A significand of 53 bits at the power `2 ^ (k - 1074)` has the magnitude `k * 2 ^ 52` plus
itself, also where rounding carries into a 54th bit. -/
def nearestRatio? (n d : Nat) : Option Nat :=
  if n = 0 then some 0
  else
    let k := n.log2 + 1021 - d.log2
    let quotient := fun k => n * pow2 (1074 - k) / (d * pow2 (k - 1074))
    let k := if quotient k < pow2 53 then k else k + 1
    let m := k * pow2 52 + roundDiv (n * pow2 (1074 - k)) (d * pow2 (k - 1074))
    if m < infinityBits then some m else none

/-- The magnitude nearest to `d * 10 ^ e`. Powers far outside the range are not computed. -/
def nearestDecimal? (d : Nat) (e : Int) : Option Nat :=
  let digits := (Nat.toDigits 10 d).length
  if d = 0 then some 0
  else if 310 < e + digits then none
  else if e + digits < -330 then some 0
  else nearestRatio? (d * pow10 e.toNat) (pow10 (-e).toNat)

def times? (x y : Nat) : Option Nat :=
  let (n, d) := ratio x
  let (p, q) := ratio y
  nearestRatio? (n * p) (d * q)

def over? (x y : Nat) : Option Nat :=
  let (n, d) := ratio x
  let (p, q) := ratio y
  nearestRatio? (n * q) (d * p)

def largestPower : Nat := 308

def power? (k : Nat) : Option Nat :=
  if k ≤ largestPower then nearestRatio? (pow10 k) 1 else none

/-- An estimate of `s * 10 ^ e` for `s` below `2 ^ 64`: both factors are rounded, and so is their
product, or for a negative power the quotient. A power below `10 ^ -308` is divided by in two
steps, and below `10 ^ -616` nothing is left of `s`. -/
def scaled? (s : Nat) (e : Int) : Option Nat := do
  let k := e.natAbs
  let x ← nearestRatio? s 1
  if s = 0 then some 0
  else if 0 ≤ e then times? x (← power? k)
  else if k ≤ largestPower then over? x (← power? k)
  else if k ≤ 2 * largestPower then
    let y ← over? x (← power? largestPower)
    over? y (← power? (k - largestPower))
  else some 0

end Binary64

end LetPoly
