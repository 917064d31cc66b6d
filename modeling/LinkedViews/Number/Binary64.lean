/-!
Binary floating-point numbers of 64 bits. Every finite magnitude is a whole number of units of
2⁻¹⁰⁷⁴, so sums, products and quotients are formed exactly on whole numbers and rounded once:
to the nearest magnitude, and on a tie to the one whose last bit is zero.
-/

namespace LinkedViews

/-- A number given by its sign bit, eleven exponent bits and fifty-two fraction bits. -/
structure Binary64 where
  bits : UInt64
deriving DecidableEq, Repr

namespace Binary64

def unitsPerOne : Nat := Nat.pow 2 1074

/-- The number of fractions, hence of magnitudes with the same exponent. -/
def fractionCount : Nat := Nat.pow 2 52

/-- The least magnitude that is no number: the one that stands for infinity. -/
def infiniteMagnitude : Nat := 2047 * fractionCount

def signBit : Nat := Nat.pow 2 63

/-- The bits below the sign. Read as a whole number they order the magnitudes. -/
def magnitude (x : Binary64) : Nat := x.bits.toNat % signBit

def isNegative (x : Binary64) : Bool := signBit ≤ x.bits.toNat

def isFinite (x : Binary64) : Bool := x.magnitude < infiniteMagnitude

def isNaN (x : Binary64) : Bool := infiniteMagnitude < x.magnitude

def isInfinite (x : Binary64) : Bool := x.magnitude = infiniteMagnitude

def isZero (x : Binary64) : Bool := x.magnitude = 0

def ofParts (negative : Bool) (magnitude : Nat) : Binary64 :=
  ⟨UInt64.ofNat (magnitude + if negative then signBit else 0)⟩

def zero : Binary64 := ofParts false 0

def infinity (negative : Bool) : Binary64 := ofParts negative infiniteMagnitude

/-- The quiet value without a sign that stands for "not a number". -/
def nan : Binary64 := ofParts false (infiniteMagnitude + fractionCount / 2)

def unitsOf (magnitude : Nat) : Nat :=
  let exponent := magnitude / fractionCount
  let fraction := magnitude % fractionCount
  if exponent = 0 then fraction else (fractionCount + fraction) * Nat.pow 2 (exponent - 1)

def units (x : Binary64) : Nat := unitsOf x.magnitude

def signedUnits (x : Binary64) : Int := if x.isNegative then -(x.units : Int) else x.units

/-- The whole number nearest to a quotient, the even one on a tie. -/
def nearestWhole (numerator denominator : Nat) : Nat :=
  let whole := numerator / denominator
  match compare (2 * (numerator % denominator)) denominator with
  | .lt => whole
  | .gt => whole + 1
  | .eq => whole + whole % 2

/-- The magnitude nearest to a quotient of units; infinity from half a step above the largest. -/
def nearestMagnitude (numerator denominator : Nat) : Nat :=
  let shift := (numerator / denominator).log2 - 52
  min infiniteMagnitude
    (shift * fractionCount + nearestWhole numerator (denominator * Nat.pow 2 shift))

def nearest (negative : Bool) (numerator denominator : Nat) : Binary64 :=
  ofParts negative (nearestMagnitude numerator denominator)

def ofSignedUnits (units : Int) : Binary64 := nearest (units < 0) units.natAbs 1

def ofInt (value : Int) : Binary64 := nearest (value < 0) (value.natAbs * unitsPerOne) 1

def one : Binary64 := ofInt 1

def neg (x : Binary64) : Binary64 := ofParts (!x.isNegative) x.magnitude

def add (x y : Binary64) : Binary64 :=
  if x.isNaN || y.isNaN then nan
  else if x.isInfinite then
    if y.isInfinite && x.isNegative != y.isNegative then nan else x
  else if y.isInfinite then y
  else if x.isZero && y.isZero then ofParts (x.isNegative && y.isNegative) 0
  else ofSignedUnits (x.signedUnits + y.signedUnits)

def sub (x y : Binary64) : Binary64 := x.add y.neg

def mul (x y : Binary64) : Binary64 :=
  let negative := x.isNegative != y.isNegative
  if x.isNaN || y.isNaN then nan
  else if x.isInfinite || y.isInfinite then
    if x.isZero || y.isZero then nan else infinity negative
  else nearest negative (x.units * y.units) unitsPerOne

def div (x y : Binary64) : Binary64 :=
  let negative := x.isNegative != y.isNegative
  if x.isNaN || y.isNaN then nan
  else if x.isInfinite then
    if y.isInfinite then nan else infinity negative
  else if y.isInfinite then ofParts negative 0
  else if y.isZero then
    if x.isZero then nan else infinity negative
  else nearest negative (x.units * unitsPerOne) y.units

def isWhole (x : Binary64) : Bool := x.isFinite && x.units % unitsPerOne = 0

/-- Negative numbers come first, the largest magnitude foremost. Every bit pattern has a rank of
its own: negative zero stands before zero, and each NaN lies outside the infinity of its sign. -/
def rank (x : Binary64) : Int :=
  if x.isNegative then -(x.magnitude : Int) - 1 else x.magnitude

end Binary64

end LinkedViews
