import PetDuel.Text.Basic
import PetDuel.Number.Double

/-!
The operators with which an effect combines an old value and a new one.
-/

namespace PetDuel

inductive Operator
  | add
  | sub
  | mul
  | div
  | rem
  | assign
  | atLeast
  | atMost
  deriving DecidableEq, Repr

namespace Operator

def all : List Operator := [add, sub, mul, div, rem, assign, atLeast, atMost]

def symbol : Operator → String
  | add => "+"
  | sub => "-"
  | mul => "*"
  | div => "/"
  | rem => "%"
  | assign => "="
  | atLeast => "max"
  | atMost => "min"

/-- The operator that a symbol names; blanks around the symbol are allowed. -/
def ofText? (raw : String) : Option Operator :=
  all.find? fun op => op.symbol == Text.trim raw

/-- The value after an old and a new one have met. Dividing by zero keeps the old value. -/
def apply (op : Operator) (old new : Double) : Double :=
  match op with
  | add => old + new
  | sub => old - new
  | mul => old * new
  | div => if new == 0.0 then old else old / new
  | rem => if new == 0.0 then old else Double.remainder old new
  | assign => new
  | atLeast => Double.larger old new
  | atMost => Double.smaller old new

end Operator

end PetDuel
