import LetPoly.Number.Binary64
import LetPoly.Text.Digits

/-!
Numerals: a sign, digits before and after the point, a power of ten. A binary64 is written with
the fewest digits that no other binary64 is nearer to. Reading estimates the value from the leading
digits: the nearest binary64 for short numerals, for others perhaps one close by.
-/

set_option autoImplicit false

namespace LetPoly

structure Numeral where
  negative : Bool
  whole : List Char
  fraction : List Char
  exponent : Option Int
  deriving DecidableEq

namespace Numeral

open Text (decimalDigits decimalValue)

def ofNat (n : Nat) : Numeral := ⟨false, decimalDigits n, [], none⟩

def ofInt (n : Int) : Numeral := ⟨n < 0, decimalDigits n.natAbs, [], none⟩

/-- The integer of a numeral with neither point nor power, other than `-0`. -/
def toInt? (n : Numeral) : Option Int :=
  let v := decimalValue n.whole
  if n.fraction ≠ [] ∨ n.exponent ≠ none ∨ (n.negative ∧ v = 0) then none
  else some (if n.negative then -v else v)

def nearest? (n : Numeral) : Option Binary64 :=
  let e := n.exponent.getD 0 - n.fraction.length
  (Binary64.nearestDecimal? (decimalValue (n.whole ++ n.fraction)) e).map (.ofMagnitude n.negative)

/-- Sets digits behind `s` up to the first that would carry it to `2 ^ 64`, and returns the digits
from there on. -/
def absorb (s : Nat) : List Char → Nat × List Char
  | [] => (s, [])
  | c :: cs =>
    let t := 10 * s + (c.toNat - 48)
    if t < pow2 64 then absorb t cs else (s, c :: cs)

/-- A significand below `2 ^ 64` and the power of ten that goes with it. Digits left over before
the point raise the power, those after it are dropped. -/
def leading (n : Numeral) : Nat × Int :=
  let (s, whole) := absorb 0 n.whole
  let (s, fraction) := absorb s n.fraction
  (s, n.exponent.getD 0 + whole.length + fraction.length - n.fraction.length)

def toBinary64? (n : Numeral) : Option Binary64 :=
  let (s, e) := n.leading
  (Binary64.scaled? s e).map (.ofMagnitude n.negative)

def intText (plus : Bool) (n : Int) : List Char :=
  (if n < 0 then ['-'] else if plus then ['+'] else []) ++ decimalDigits n.natAbs

def chars (plus : Bool) (n : Numeral) : List Char :=
  (if n.negative then ['-'] else []) ++ n.whole ++
    (if n.fraction = [] then [] else '.' :: n.fraction) ++
    match n.exponent with
    | none => []
    | some e => 'e' :: intText plus e

def text (plus : Bool) (n : Numeral) : String := String.ofList (n.chars plus)

end Numeral

inductive Tie where
  | up
  | even

structure FloatFormat where
  /-- The powers of ten of the first digit that are written with a point only. -/
  lowest : Int
  highest : Int
  tie : Tie

namespace FloatFormat

/-- Sets the digits `ds`, the first of them at the power `10 ^ p`. With a point only, at least one
digit stands on either side of it. -/
def set (f : FloatFormat) (negative : Bool) (ds : List Char) (p : Int) : Numeral :=
  if f.lowest ≤ p ∧ p ≤ f.highest then
    if p < 0 then ⟨negative, ['0'], List.replicate (-p - 1).toNat '0' ++ ds, none⟩
    else
      let w := p.toNat + 1
      let fraction := ds.drop w
      ⟨negative, ds.take w ++ List.replicate (w - ds.length) '0',
        if fraction = [] then ['0'] else fraction, none⟩
  else ⟨negative, ds.take 1, ds.drop 1, some p⟩

def ofDecimal (f : FloatFormat) (negative : Bool) (d : Nat) (e : Int) : Numeral :=
  let ds := Text.decimalDigits d
  let short := Text.dropClosingZeros ds
  f.set negative (if short = [] then ['0'] else short) (e + ds.length - 1)

def neighbours (t : Tie) (n d : Nat) (e : Int) : List Nat :=
  let n := n * pow10 (-e).toNat
  let d := d * pow10 e.toNat
  let lo := n / d
  let r := n % d
  let down : Bool := match t with
    | .up => 2 * r < d
    | .even => 2 * r < d || 2 * r == d && lo % 2 == 0
  if down then [lo, lo + 1] else [lo + 1, lo]

def leadingPower (n d : Nat) : Int :=
  (Text.decimalDigits (n * pow10 400 / d)).length - 401

/-- Decimals of 1, 2, … 17 digits next to `x`. -/
def candidates (f : FloatFormat) (x : Binary64) : List Numeral :=
  let (n, d) := Binary64.ratio x.magnitude
  let p := leadingPower n d
  (List.range 17).flatMap fun (i : Nat) =>
    let e := p - i
    (neighbours f.tie n d e).map fun v => f.ofDecimal x.negative v e

def exact (f : FloatFormat) (x : Binary64) : Numeral :=
  let (n, d) := Binary64.ratio x.magnitude
  f.ofDecimal x.negative (n * Nat.pow 5 d.log2) (-d.log2)

/-- The first candidate to which the finite `x` is nearest. -/
def shortest (f : FloatFormat) (x : Binary64) : Numeral :=
  if x.isZero then f.set x.negative ['0'] 0
  else ((f.candidates x).find? (·.nearest? = some x)).getD (f.exact x)

end FloatFormat

end LetPoly
