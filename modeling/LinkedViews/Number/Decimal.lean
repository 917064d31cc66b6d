import LinkedViews.Number.Binary64

/-!
Decimal numbers and their relation to binary ones. Reading a decimal takes the nearest binary
number; writing a binary number takes the decimal with the fewest digits that is read as that
number again, and of those the nearest.
-/

namespace LinkedViews

structure Decimal where
  digits : Nat
  exponent : Int
deriving DecidableEq, Repr

namespace Decimal

/-- Which of two decimals is written when the number lies halfway between them. -/
inductive Tie where
  | upper
  | even
deriving DecidableEq, Repr

def ratio (d : Decimal) : Nat × Nat :=
  (d.digits * Nat.pow 10 d.exponent.toNat * Binary64.unitsPerOne, Nat.pow 10 (-d.exponent).toNat)

/-- The magnitude nearest to a decimal. Far above the largest number it is infinity and far below
the least it is zero, so an exponent of any length costs nothing. -/
def magnitude (d : Decimal) : Nat :=
  if d.digits = 0 then 0
  else if 400 ≤ d.exponent then Binary64.infiniteMagnitude
  else if d.exponent + (d.digits.log2 / 3 + 1 : Nat) ≤ -400 then 0
  else Binary64.nearestMagnitude d.ratio.1 d.ratio.2

def toBinary (negative : Bool) (d : Decimal) : Binary64 := .ofParts negative d.magnitude

/-- Moves zeros at the end of the digits into the exponent, at most `count` of them. -/
def dropZeros : Nat → Decimal → Decimal
  | 0, d => d
  | count + 1, d =>
    if d.digits ≠ 0 ∧ d.digits % 10 = 0 then dropZeros count ⟨d.digits / 10, d.exponent + 1⟩ else d

def belowPower (units : Nat) (place : Int) : Bool :=
  units * Nat.pow 10 (-place).toNat < Binary64.unitsPerOne * Nat.pow 10 place.toNat

/-- The place of the leading digit: the least `k` with the number below `10 ^ k`. It is estimated
from the binary length, with log₁₀ 2 taken as 0.30103, and moved by one where that misses. -/
def leadingPlace (units : Nat) : Int :=
  let estimate := Int.fdiv (((units.log2 : Int) - 1074) * 30103) 100000 + 1
  if belowPower units (estimate - 1) then estimate - 1
  else if belowPower units estimate then estimate
  else estimate + 1

/-- The two neighbours of a number among the multiples of `10 ^ place`, the nearer one first. -/
def neighbours (tie : Tie) (units : Nat) (place : Int) : List Decimal :=
  let numerator := units * Nat.pow 10 (-place).toNat
  let denominator := Binary64.unitsPerOne * Nat.pow 10 place.toNat
  let lower := numerator / denominator
  let upperFirst := match compare (2 * (numerator % denominator)) denominator with
    | .lt => false
    | .gt => true
    | .eq => match tie with
      | .upper => true
      | .even => lower % 2 = 1
  if upperFirst then [⟨lower + 1, place⟩, ⟨lower, place⟩] else [⟨lower, place⟩, ⟨lower + 1, place⟩]

/-- The number itself, written out in full. -/
def exact (units : Nat) : Decimal := ⟨units * Nat.pow 5 1074, -1074⟩

/-- The first of the two neighbours at a place that is read back as the given magnitude. -/
def readBackAt (tie : Tie) (magnitude : Nat) (place : Int) : Option Decimal :=
  (neighbours tie (Binary64.unitsOf magnitude) place).find? fun d => d.magnitude = magnitude

/-- The decimal of fewest digits that is read back as the given finite magnitude. Seventeen digits
are enough for every magnitude; the full expansion stands for the case that none is found. -/
def shortest (tie : Tie) (magnitude : Nat) : Decimal :=
  if magnitude = 0 then ⟨0, 0⟩
  else
    let units := Binary64.unitsOf magnitude
    let place := leadingPlace units
    let found := (List.range 17).findSome? fun (count : Nat) =>
      readBackAt tie magnitude (place - 1 - count)
    match found with
    | some d => dropZeros 17 d
    | none => dropZeros 1100 (exact units)

end Decimal

end LinkedViews
