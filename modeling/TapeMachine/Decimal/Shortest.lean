/-!
# Shortest decimals

The decimal with the fewest digits that reads back as a given binary floating point number; of
several such decimals the one nearest to the number, and of two equally near the one with the even
last digit. All of it is exact arithmetic on natural numbers.

A finite positive number is `4 * mantissa` units of size `2 ^ (exponent - 2)`. The reals that round
to it reach from `below` units under it to two units above it, and the two ends belong to them
exactly when the mantissa is even.
-/

namespace TapeMachine.Decimal

/-- A positive binary number `mantissa * 2 ^ exponent` and the gap to its lower neighbour. -/
structure Binary where
  mantissa : Nat
  exponent : Int
  /-- Quarters of the distance to the next number that lie below it and still round to it. -/
  below : Nat

/-- A positive decimal `0.d₁d₂… * 10 ^ point`, whose first digit is not zero. -/
structure Digits where
  /-- The significant digits, most significant first. -/
  digits : List Char
  /-- Where the decimal point stands, counted from before the first digit. -/
  point : Int

/-- The weight of the sign in the bits of a number. -/
def signBit : Nat := 0x8000000000000000

/-- The weight of the significand's leading bit, which is not written down. -/
def leadingBit : Nat := 0x10000000000000

/-- The parts of a finite number other than zero, its sign left aside. -/
def Binary.ofFloat (x : Float) : Binary :=
  let bits := x.toBits.toNat % signBit
  let fraction := bits % leadingBit
  let scale : Nat := bits / leadingBit
  if scale = 0 then ⟨fraction, -1074, 2⟩
  else ⟨leadingBit + fraction, (scale : Int) - 1075, if fraction = 0 ∧ 1 < scale then 1 else 2⟩

namespace Binary

/-- Numerator of the size of a unit, a quarter of the distance between neighbours. -/
def unitNum (b : Binary) : Nat := Nat.pow 2 (b.exponent - 2).toNat

/-- Denominator of the size of a unit. -/
def unitDen (b : Binary) : Nat := Nat.pow 2 (2 - b.exponent).toNat

/-- The number of decimal digits of a natural number, none for zero. -/
def digitCount (n : Nat) : Nat :=
  if n = 0 then 0 else (Nat.toDigits 10 n).length

/-- The least `p` for which the number is less than `10 ^ p`. -/
def point (b : Binary) : Int :=
  let num := 4 * b.mantissa * b.unitNum
  if b.unitDen ≤ num then digitCount (num / b.unitDen)
  else 1 - digitCount ((b.unitDen + num - 1) / num - 1)

/-- Compares `d * 10 ^ k` with `u` units. -/
def compareGrid (b : Binary) (k : Int) (d u : Nat) : Ordering :=
  compare (d * Nat.pow 10 k.toNat * b.unitDen) (u * b.unitNum * Nat.pow 10 (-k).toNat)

/-- Tells whether `d * 10 ^ k` rounds to the number. -/
def readsBack (b : Binary) (k : Int) (d : Nat) : Bool :=
  let low := b.compareGrid k d (4 * b.mantissa - b.below)
  let high := b.compareGrid k d (4 * b.mantissa + 2)
  if b.mantissa % 2 = 0 then low != .lt && high != .gt else low == .gt && high == .lt

/-- The multiple of `10 ^ k` that rounds to the number and is nearest to it, if there is one. -/
def onGrid (b : Binary) (k : Int) : Option Nat :=
  let floor := 4 * b.mantissa * b.unitNum * Nat.pow 10 (-k).toNat / (Nat.pow 10 k.toNat * b.unitDen)
  let lower := b.readsBack k floor
  let upper := b.readsBack k (floor + 1)
  if lower && upper then
    match b.compareGrid k (2 * floor + 1) (8 * b.mantissa) with
    | .lt => some (floor + 1)
    | .gt => some floor
    | .eq => some (floor + floor % 2)
  else if lower then some floor
  else if upper then some (floor + 1)
  else none

/-- Tries grids of `count`, `count + 1`, … digits, the last after `more` further attempts. -/
def shortestFrom (b : Binary) : (more count : Nat) → Nat × Int
  | 0, count => ((b.onGrid (b.point - count)).getD 0, b.point - count)
  | more + 1, count =>
    match b.onGrid (b.point - count) with
    | some d => (d, b.point - count)
    | none => shortestFrom b more (count + 1)

/-- The shortest decimal that reads back as the number. Seventeen digits always do. -/
def shortest (b : Binary) : Digits :=
  let (d, k) := b.shortestFrom 16 1
  let written := Nat.toDigits 10 d
  let significant := (written.reverse.dropWhile (· = '0')).reverse
  ⟨significant, k + written.length⟩

end Binary

end TapeMachine.Decimal
