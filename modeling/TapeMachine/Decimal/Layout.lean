import TapeMachine.Decimal.Shortest

/-!
# Layout of decimals

How the digits of a floating point number are set out: in positions within a range of magnitudes
and with an exponent outside it.
-/

namespace TapeMachine.Decimal

/-- The magnitudes that are written without an exponent, as powers of ten of the first digit. -/
structure Layout where
  /-- The least exponent of the first digit that is written in positions. -/
  lowest : Int
  /-- The greatest such exponent. -/
  highest : Int

namespace Layout

/-- Digits in positions, with at least one on each side of the point. -/
def positional (d : Digits) : List Char :=
  if d.point ≤ 0 then ['0', '.'] ++ List.replicate (-d.point).toNat '0' ++ d.digits
  else
    let whole := d.point.toNat
    let missing := List.replicate (whole - d.digits.length) '0'
    let fraction := d.digits.drop whole
    d.digits.take whole ++ missing ++ ['.'] ++ (if fraction = [] then ['0'] else fraction)

/-- Digits with one before the point, then the exponent with its sign. -/
def scientific (d : Digits) : List Char :=
  let exponent := d.point - 1
  let fraction := d.digits.drop 1
  d.digits.take 1 ++ (if fraction = [] then [] else '.' :: fraction)
    ++ ['e', if exponent < 0 then '-' else '+'] ++ Nat.toDigits 10 exponent.natAbs

/-- The text of a decimal. -/
def digits (l : Layout) (d : Digits) : List Char :=
  if l.lowest ≤ d.point - 1 ∧ d.point - 1 ≤ l.highest then positional d else scientific d

/-- The text of a finite floating point number; a negative zero keeps its sign. -/
def text (l : Layout) (x : Float) : String :=
  let sign := if x.toBits.toNat < signBit then [] else ['-']
  let magnitude := if x == 0.0 then ['0', '.', '0'] else l.digits (Binary.ofFloat x).shortest
  String.ofList (sign ++ magnitude)

end Layout

end TapeMachine.Decimal
