import PetDuel.Text.Basic

/-!
Reading whole numbers written in decimal. Only ASCII digits count, a sign may stand in front, and
nothing else: no blanks, no separators.
-/

namespace PetDuel.Number

def digits? (cs : List Char) : Option Nat :=
  if cs.isEmpty || !cs.all Char.isDigit then none
  else some (Nat.ofDigitChars 10 cs 0)

def natList? : List Char → Option Nat
  | '+' :: cs => digits? cs
  | cs => digits? cs

def intList? : List Char → Option Int
  | '-' :: cs => (digits? cs).map fun n => -(n : Int)
  | cs => (natList? cs).map fun n => (n : Int)

/-- A 32-bit signed number; text that writes a number out of range is refused. -/
def int32? (s : String) : Option Int32 :=
  (intList? s.toList).bind fun n =>
    if Int32.minValue.toInt ≤ n && n ≤ Int32.maxValue.toInt then some (Int32.ofInt n) else none

def int64? (s : String) : Option Int :=
  (intList? s.toList).bind fun n =>
    if Int64.minValue.toInt ≤ n && n ≤ Int64.maxValue.toInt then some n else none

/-- A slot or an index: a number from 0 of at most 64 bits. -/
def index? (s : String) : Option Nat :=
  (natList? s.toList).bind fun n => if n < UInt64.size then some n else none

def showInt32 (n : Int32) : String :=
  n.toInt.repr

end PetDuel.Number
