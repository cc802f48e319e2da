import PetDuel.Number.Double
import PetDuel.Text.Basic

/-!
Doubles in decimal: reading the nearest double of a text, and writing the fewest digits that read
back to the same double.
-/

namespace PetDuel.Double

/-- The nearest double of `m · 10 ^ e`. The bounds only keep the arithmetic small: beyond them the
nearest double is an infinity or zero. -/
def ofDecimal (m : Nat) (e : Int) : Double :=
  let size := ((Nat.toDigits 10 m).length : Int) + e
  if m = 0 || size < -400 then ofInt 0
  else if 400 < size then infinity
  else OfScientific.ofScientific m (decide (e < 0)) e.natAbs

def exponent? : List Char → Option Int
  | [] => some 0
  | c :: cs =>
    if c != 'e' && c != 'E' then none
    else
      let (sign, ds) : Int × List Char :=
        match cs with
        | '-' :: ds => (-1, ds)
        | '+' :: ds => (1, ds)
        | ds => (1, ds)
      if ds.isEmpty || !ds.all Char.isDigit then none
      else some (sign * Nat.ofDigitChars 10 ds 0)

/-- The magnitude of a decimal without a sign: digits with an optional point among them or at either
end, and an optional exponent. -/
def magnitude? (cs : List Char) : Option Double :=
  let whole := cs.takeWhile Char.isDigit
  let rest := cs.dropWhile Char.isDigit
  let (fraction, tail) : List Char × List Char :=
    match rest with
    | '.' :: r => (r.takeWhile Char.isDigit, r.dropWhile Char.isDigit)
    | r => ([], r)
  if whole.isEmpty && fraction.isEmpty then none
  else
    (exponent? tail).map fun e =>
      ofDecimal (Nat.ofDigitChars 10 (whole ++ fraction) 0) (e - fraction.length)

def unsigned? (cs : List Char) : Option Double :=
  let name := Text.lowered cs
  if name == "inf".toList || name == "infinity".toList then some infinity
  else if name == "nan".toList then some notANumber
  else magnitude? cs

def ofText? (s : String) : Option Double :=
  match s.toList with
  | '-' :: cs => (unsigned? cs).map fun x => -x
  | '+' :: cs => unsigned? cs
  | cs => unsigned? cs

/-- The reals that round to a double, over a common denominator: the double itself, the two ends,
and whether the ends belong to it. -/
structure Rounding where
  value : Nat
  low : Nat
  high : Nat
  denominator : Nat
  closed : Bool

/-- The reals that round to a finite positive double. Below a power of two the next double is nearer
than above, and an end belongs to a double whose significand is even. -/
def rounding (d : Dyadic) : Rounding :=
  let down := if d.significand = Nat.pow 2 52 && decide (-1074 < d.power) then 1 else 2
  let up := Nat.pow 2 (d.power - 2).toNat
  { value := 4 * d.significand * up
    low := (4 * d.significand - down) * up
    high := (4 * d.significand + 2) * up
    denominator := Nat.pow 2 (2 - d.power).toNat
    closed := d.significand % 2 == 0 }

def Rounding.holds (r : Rounding) (n : Nat) (e : Int) : Bool :=
  let point := n * Nat.pow 10 e.toNat * r.denominator
  let scale := Nat.pow 10 (-e).toNat
  if r.closed then decide (r.low * scale ≤ point) && decide (point ≤ r.high * scale)
  else decide (r.low * scale < point) && decide (point < r.high * scale)

/-- The point of the grid of step `10 ^ e` that rounds to the double, if there is one: of the two
neighbours of the double the nearer, and of two equally near the upper. -/
def Rounding.onGrid (r : Rounding) (e : Int) : Option Nat :=
  let numerator := r.value * Nat.pow 10 (-e).toNat
  let step := r.denominator * Nat.pow 10 e.toNat
  let n := numerator / step
  let lower := n != 0 && r.holds n e
  let upper := r.holds (n + 1) e
  if lower && upper then
    if 2 * (numerator % step) < step then some n else some (n + 1)
  else if lower then some n
  else if upper then some (n + 1)
  else none

/-- The coarsest grid, from step `10 ^ e` down, with a point that rounds to the double. -/
def Rounding.search (r : Rounding) : Nat → Int → Nat × Int
  | 0, e => (0, e)
  | fuel + 1, e =>
    match r.onGrid e with
    | some n => (n, e)
    | none => r.search fuel (e - 1)

/-- The fewest digits that read back to a finite positive double, with their power of ten. -/
def shortest (d : Dyadic) : Nat × Int :=
  (rounding d).search 660 309

/-- Digits with their power of ten in positional form, without an exponent and without a bare
point. -/
def positional (digits : List Char) (e : Int) : List Char :=
  if 0 ≤ e then digits ++ List.replicate e.toNat '0'
  else
    let places := (-e).toNat
    let padded := List.replicate (places + 1 - digits.length) '0' ++ digits
    padded.take (padded.length - places) ++ '.' :: padded.drop (padded.length - places)

def toText (x : Double) : String :=
  if x.isNotANumber then "NaN"
  else
    let d := x.dyadic
    let sign := if d.negative then ['-'] else []
    if x.isInfinite then String.ofList (sign ++ "inf".toList)
    else if d.significand = 0 then String.ofList (sign ++ ['0'])
    else
      let (n, e) := shortest d
      String.ofList (sign ++ positional (Nat.toDigits 10 n) e)

end PetDuel.Double
