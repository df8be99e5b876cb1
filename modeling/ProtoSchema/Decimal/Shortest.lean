/-!
# Shortest decimals

The decimal text of a binary floating point number has the fewest digits that
still read back as the same number, and of those it is the nearest. The
number is taken apart into `mantissa * 2 ^ exponent`, and all comparisons are
between exact fractions.
-/

namespace ProtoSchema.Decimal

/-- A positive fraction. -/
structure Fraction where
  num : Nat
  den : Nat
  deriving DecidableEq, Repr

namespace Fraction

/-- `n * 2 ^ e`. -/
def binary (n : Nat) (e : Int) : Fraction :=
  if 0 ≤ e then { num := n * Nat.pow 2 e.toNat, den := 1 }
  else { num := n, den := Nat.pow 2 (-e).toNat }

/-- `n * 10 ^ e`. -/
def decimal (n : Nat) (e : Int) : Fraction :=
  if 0 ≤ e then { num := n * Nat.pow 10 e.toNat, den := 1 }
  else { num := n, den := Nat.pow 10 (-e).toNat }

def lt (a b : Fraction) : Bool :=
  a.num * b.den < b.num * a.den

def le (a b : Fraction) : Bool :=
  a.num * b.den ≤ b.num * a.den

def distance (a b : Fraction) : Fraction :=
  { num := (a.num * b.den - b.num * a.den) + (b.num * a.den - a.num * b.den)
    den := a.den * b.den }

/-- The integer part of `a / 10 ^ e`. -/
def scaledFloor (a : Fraction) (e : Int) : Nat :=
  if 0 ≤ e then a.num / (a.den * Nat.pow 10 e.toNat)
  else a.num * Nat.pow 10 (-e).toNat / a.den

end Fraction

/-- The fractions that are rounded to one number. -/
structure Interval where
  low : Fraction
  high : Fraction
  /-- Whether the ends are rounded to the number too. -/
  closed : Bool

def Interval.contains (i : Interval) (x : Fraction) : Bool :=
  if i.closed then i.low.le x && x.le i.high else i.low.lt x && x.lt i.high

/-- A decimal number, `digits * 10 ^ exponent`. -/
structure Digits where
  digits : Nat
  exponent : Int
  deriving DecidableEq, Repr

/-- The number of decimal digits before the point of a fraction that is at
least one tenth to the power of `400`. -/
def magnitude (x : Fraction) : Int :=
  let rec go : Nat → Int → Int
    | 0, e => e
    | fuel + 1, e => if (Fraction.decimal 1 e).le x then e + 1 else go fuel (e - 1)
  go 800 400

/-- The nearest of the decimals with `count` digits that lies in the
interval. -/
def candidate (x : Fraction) (i : Interval) (size : Int) (count : Nat) : Option Digits :=
  let e := size - count
  let n := x.scaledFloor e
  let below := Fraction.decimal n e
  let above := Fraction.decimal (n + 1) e
  match i.contains below, i.contains above with
  | true, true =>
    some { digits := if (x.distance above).lt (x.distance below) then n + 1 else n, exponent := e }
  | true, false => some { digits := n, exponent := e }
  | false, true => some { digits := n + 1, exponent := e }
  | false, false => none

/-- The shortest decimal of the positive number `mantissa * 2 ^ exponent`,
where `isBoundary` says that the next smaller number is only half as far as
the next larger one. -/
def shortest (mantissa : Nat) (exponent : Int) (isBoundary : Bool) : Digits :=
  let x := Fraction.binary mantissa exponent
  let low :=
    if isBoundary then Fraction.binary (4 * mantissa - 1) (exponent - 2)
    else Fraction.binary (2 * mantissa - 1) (exponent - 1)
  let high := Fraction.binary (2 * mantissa + 1) (exponent - 1)
  let i : Interval := { low, high, closed := mantissa % 2 = 0 }
  let size := magnitude x
  ((List.range 17).findSome? fun k => candidate x i size (k + 1)).getD
    { digits := mantissa, exponent := 0 }

/-- The number in positional notation with at least one digit after the
point. -/
def Digits.positional (d : Digits) : String :=
  let ds := (toString d.digits).toList
  if 0 ≤ d.exponent then
    String.ofList (ds ++ List.replicate d.exponent.toNat '0') ++ ".0"
  else
    let places := (-d.exponent).toNat
    let padded := List.replicate (places + 1 - ds.length) '0' ++ ds
    let whole := padded.take (padded.length - places)
    let fraction := (padded.drop (padded.length - places)).reverse.dropWhile (· = '0') |>.reverse
    String.ofList whole ++ "." ++ (if fraction.isEmpty then "0" else String.ofList fraction)

/-- The text of a finite double, always with a point. -/
def ofDouble (f : Float) : String :=
  let bits := f.toBits.toNat
  let sign := if 0x8000000000000000 ≤ bits then "-" else ""
  let field : Nat := bits / 0x10000000000000 % 0x800
  let low : Nat := bits % 0x10000000000000
  if field = 0 ∧ low = 0 then sign ++ "0.0"
  else if field = 0 then sign ++ (shortest low (-1074) false).positional
  else
    let short := shortest (0x10000000000000 + low) ((field : Int) - 1075) (low = 0 ∧ 1 < field)
    sign ++ short.positional

end ProtoSchema.Decimal
