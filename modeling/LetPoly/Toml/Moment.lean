import LetPoly.Text.Digits

/-!
Dates and times of day. TOML has several spellings for the same moment; the text of a moment is
one of them: a `T` between date and time, an upper case `Z`, no closing zeros in a fraction.
-/

set_option autoImplicit false

namespace LetPoly.Toml

open Text (decimalValue dropClosingZeros padded)

structure Date where
  year : Nat
  month : Nat
  day : Nat
  deriving DecidableEq

structure Time where
  hour : Nat
  minute : Nat
  second : Nat
  nanosecond : Nat
  deriving DecidableEq

inductive Offset where
  | unstated
  | zero
  | minutes (n : Int)
  deriving DecidableEq

inductive Moment where
  | date (d : Date)
  | time (t : Time)
  | dateTime (d : Date) (t : Time) (ahead : Offset)
  deriving DecidableEq

def number? (lo hi : Nat) (ds : List Char) : Option Nat :=
  let n := decimalValue ds
  if ds.all Char.isDigit ∧ lo ≤ n ∧ n ≤ hi then some n else none

namespace Date

def isLeap (year : Nat) : Bool := year % 4 = 0 && (year % 100 ≠ 0 || year % 400 = 0)

def daysIn (year month : Nat) : Nat :=
  match month with
  | 2 => if isLeap year then 29 else 28
  | 4 | 6 | 9 | 11 => 30
  | _ => 31

def parse? : List Char → Option Date
  | [a, b, c, d, '-', e, f, '-', g, h] => do
    let year ← number? 0 9999 [a, b, c, d]
    let month ← number? 1 12 [e, f]
    let day ← number? 1 (daysIn year month) [g, h]
    some ⟨year, month, day⟩
  | _ => none

def chars (d : Date) : List Char :=
  padded 4 d.year ++ '-' :: padded 2 d.month ++ '-' :: padded 2 d.day

end Date

namespace Time

/-- A fraction of a second, cut after nine digits. -/
def nanoseconds? : List Char → Option Nat
  | [] => some 0
  | ['.'] => none
  | '.' :: ds =>
    if ds.all Char.isDigit then some (decimalValue ((ds ++ List.replicate 9 '0').take 9))
    else none
  | _ => none

/-- Any minute may have a leap second. -/
def parse? : List Char → Option Time
  | a :: b :: ':' :: c :: d :: ':' :: e :: f :: fraction => do
    let hour ← number? 0 23 [a, b]
    let minute ← number? 0 59 [c, d]
    let second ← number? 0 60 [e, f]
    let nanosecond ← nanoseconds? fraction
    some ⟨hour, minute, second, nanosecond⟩
  | _ => none

def chars (t : Time) : List Char :=
  let fraction := dropClosingZeros (padded 9 t.nanosecond)
  padded 2 t.hour ++ ':' :: padded 2 t.minute ++ ':' :: padded 2 t.second ++
    if fraction = [] then [] else '.' :: fraction

end Time

namespace Offset

def parse? : List Char → Option Offset
  | [] => some .unstated
  | [c] => if c = 'Z' ∨ c = 'z' then some .zero else none
  | [sign, a, b, ':', c, d] => do
    let hours ← number? 0 23 [a, b]
    let minutes ← number? 0 59 [c, d]
    let n : Int := 60 * hours + minutes
    if sign = '+' then some (.minutes n) else if sign = '-' then some (.minutes (-n)) else none
  | _ => none

/-- An offset of no minutes counts as ahead. -/
def chars : Offset → List Char
  | .unstated => []
  | .zero => ['Z']
  | .minutes n =>
    (if n < 0 then '-' else '+') :: padded 2 (n.natAbs / 60) ++ ':' :: padded 2 (n.natAbs % 60)

end Offset

namespace Moment

def inTime (c : Char) : Bool := c.isDigit || c = ':' || c = '.'

def parse? (cs : List Char) : Option Moment :=
  match Date.parse? (cs.take 10), cs.drop 10 with
  | none, _ => (Time.parse? cs).map .time
  | some d, [] => some (.date d)
  | some d, c :: cs => do
    let t ← Time.parse? (cs.takeWhile inTime)
    let ahead ← Offset.parse? (cs.dropWhile inTime)
    if c = 'T' ∨ c = 't' ∨ c = ' ' then some (.dateTime d t ahead) else none

def chars : Moment → List Char
  | .date d => d.chars
  | .time t => t.chars
  | .dateTime d t ahead => d.chars ++ 'T' :: t.chars ++ ahead.chars

def text (m : Moment) : String := String.ofList m.chars

end Moment

end LetPoly.Toml
