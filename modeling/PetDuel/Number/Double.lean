/-!
Doubles: the 64-bit binary numbers in which statistics, chances and operands are computed. A double
is its bits, because a snapshot shows all of them, the sign of a result that is no number included.

Sums, products and comparisons of numbers are those of `Float`, which knows a single value that is
no number; what becomes of such values is decided here. Truncation to words, exact conversion from
whole numbers and the remainder are computed from the bits in whole-number arithmetic.

The rules of chance are written over a class of arithmetics. They run on doubles, and they can be
read over any exact numbers.
-/

namespace PetDuel

/-- A 64-bit binary floating-point number, as its bits. -/
structure Double where
  bits : UInt64
  deriving DecidableEq, Repr, Inhabited

structure Dyadic where
  negative : Bool
  significand : Nat
  power : Int
  deriving DecidableEq, Repr

namespace Dyadic

def whole (d : Dyadic) : Nat :=
  if 0 ≤ d.power then d.significand * Nat.pow 2 d.power.toNat
  else d.significand / Nat.pow 2 (-d.power).toNat

def hasFraction (d : Dyadic) : Bool :=
  decide (d.power < 0) && d.significand % Nat.pow 2 (-d.power).toNat != 0

/-- The bits of a number with a significand below `2 ^ 53`, shifted up as far as the format goes. -/
def bits (d : Dyadic) : Nat :=
  let sign := if d.negative then Nat.pow 2 63 else 0
  if d.significand = 0 then sign
  else
    let shift := min (52 - d.significand.log2) (d.power + 1074).toNat
    let m := d.significand * Nat.pow 2 shift
    let q := d.power - shift
    if m < Nat.pow 2 52 then sign + m
    else sign + (q + 1075).toNat * Nat.pow 2 52 + (m - Nat.pow 2 52)

end Dyadic

namespace Double

def exponentField (x : Double) : Nat :=
  x.bits.toNat / Nat.pow 2 52 % Nat.pow 2 11

def fractionField (x : Double) : Nat :=
  x.bits.toNat % Nat.pow 2 52

def signField (x : Double) : Bool :=
  x.bits.toNat / Nat.pow 2 63 == 1

def isNotANumber (x : Double) : Bool :=
  x.exponentField == 2047 && x.fractionField != 0

def isInfinite (x : Double) : Bool :=
  x.exponentField == 2047 && x.fractionField == 0

def isFinite (x : Double) : Bool :=
  x.exponentField != 2047

/-- A double as sign, significand and power of two. An infinity reads as a number beyond all
others. -/
def dyadic (x : Double) : Dyadic :=
  let e := x.exponentField
  let f := x.fractionField
  if e = 0 then ⟨x.signField, f, -1074⟩
  else ⟨x.signField, Nat.pow 2 52 + f, (e : Int) - 1075⟩

def notANumber : Double := ⟨0x7FF8000000000000⟩

/-- What an operation on numbers gives where it has no result: its sign is set. -/
def invalid : Double := ⟨0xFFF8000000000000⟩

def infinity : Double := ⟨0x7FF0000000000000⟩

def lowest : Double := ⟨0xFFEFFFFFFFFFFFFF⟩

def ofDyadic (d : Dyadic) : Double :=
  ⟨UInt64.ofNat d.bits⟩

def ofInt (n : Int) : Double :=
  ofDyadic ⟨decide (n < 0), n.natAbs, 0⟩

def ofInt32 (n : Int32) : Double :=
  ofInt n.toInt

def ofUInt32 (n : UInt32) : Double :=
  ofInt n.toNat

def ofFlag (b : Bool) : Double :=
  if b then ofInt 1 else ofInt 0

def toFloat (x : Double) : Float :=
  Float.ofBits x.bits

def ofFloat (x : Float) : Double :=
  if x.isNaN then invalid else ⟨x.toBits⟩

/-- A value that is no number as it leaves an operation: with the top bit of its fraction set. -/
def quieted (x : Double) : Double :=
  ⟨x.bits ||| 0x0008000000000000⟩

/-- The result of an operation: the first operand that is no number, or what the operation makes of
two numbers. -/
def combine (f : Double → Double → Double) (x y : Double) : Double :=
  if x.isNotANumber then x.quieted
  else if y.isNotANumber then y.quieted
  else f x y

instance : Add Double := ⟨combine fun x y => ofFloat (x.toFloat + y.toFloat)⟩
instance : Sub Double := ⟨combine fun x y => ofFloat (x.toFloat - y.toFloat)⟩
instance : Mul Double := ⟨combine fun x y => ofFloat (x.toFloat * y.toFloat)⟩
instance : Div Double := ⟨combine fun x y => ofFloat (x.toFloat / y.toFloat)⟩

instance : Neg Double := ⟨fun x => ⟨x.bits ^^^ 0x8000000000000000⟩⟩

/-- Equality of numbers: the two zeros are equal, and what is no number equals nothing. -/
instance : BEq Double := ⟨fun x y => x.toFloat == y.toFloat⟩

instance : LT Double := ⟨fun x y => x.toFloat < y.toFloat⟩
instance : LE Double := ⟨fun x y => x.toFloat ≤ y.toFloat⟩

instance (x y : Double) : Decidable (x < y) := inferInstanceAs (Decidable (x.toFloat < y.toFloat))
instance (x y : Double) : Decidable (x ≤ y) := inferInstanceAs (Decidable (x.toFloat ≤ y.toFloat))

instance : OfScientific Double := ⟨fun m negative e => ofFloat (Float.ofScientific m negative e)⟩

def ofNat (n : Nat) : Double :=
  if n < Nat.pow 2 53 then ofInt n else OfScientific.ofScientific n false 0

/-- The remainder of the truncated quotient, which is exact and has the sign of the dividend. -/
def remainder : Double → Double → Double :=
  combine fun x y =>
    let a := x.dyadic
    let b := y.dyadic
    if x.isInfinite || b.significand = 0 then invalid
    else if y.isInfinite then x
    else
      let q := min a.power b.power
      let m := a.significand * Nat.pow 2 (a.power - q).toNat
      let n := b.significand * Nat.pow 2 (b.power - q).toNat
      ofDyadic ⟨a.negative, m % n, q⟩

/-- The larger of two doubles; an operand that is no number loses, and of equals the second wins,
which only the two zeros show. -/
def larger (x y : Double) : Double :=
  if y.isNotANumber then x else if y < x then x else y

def smaller (x y : Double) : Double :=
  if y.isNotANumber then x else if x < y then x else y

/-- A double moved into the interval from `lo` to `hi`; what is no number stays as it is. -/
def clampTo (lo hi x : Double) : Double :=
  if x < lo then lo else if hi < x then hi else x

def truncated (x : Double) : Int :=
  if x.isNotANumber then 0
  else
    let d := x.dyadic
    if d.negative then -(d.whole : Int) else d.whole

def floored (x : Double) : Int :=
  if x.isNotANumber then 0
  else
    let d := x.dyadic
    if d.negative then -(d.whole : Int) - (if d.hasFraction then 1 else 0) else d.whole

/-- Truncation to a 32-bit word; what does not fit goes to the nearest bound. -/
def toInt32 (x : Double) : Int32 :=
  Int32.ofIntClamp x.truncated

def floorToInt32 (x : Double) : Int32 :=
  Int32.ofIntClamp x.floored

def toUInt32 (x : Double) : UInt32 :=
  UInt32.ofNat (min x.truncated.toNat (UInt32.size - 1))

end Double

namespace Number

/-- Numbers with the operations that the rules of chance use. -/
class Arithmetic (α : Type) extends Add α, Sub α, Mul α, Div α where
  whole : Int → α
  /-- Whether the first number is at most the second. -/
  atMost : α → α → Bool
  /-- Whether a value is a number that can be added up. -/
  finite : α → Bool

instance : Arithmetic Double where
  whole := Double.ofInt
  atMost x y := decide (x ≤ y)
  finite := Double.isFinite

def sum {α : Type} [Arithmetic α] (xs : List α) : α :=
  xs.foldl (· + ·) (Arithmetic.whole 0)

end Number

end PetDuel
