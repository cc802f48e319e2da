import PetDuel.Number.Double

/-!
The chance of a capture.
-/

namespace PetDuel

open Number

variable {α : Type} [Arithmetic α]

def fraction (m n : Int) : α := Arithmetic.whole m / Arithmetic.whole n

/-- The part of its health that a fighter has lost; all of it when there was none to lose. -/
def lostPart (hp maxHp : Int32) : α :=
  if 0 < maxHp then Arithmetic.whole 1 - Arithmetic.whole hp.toInt / Arithmetic.whole maxHp.toInt
  else Arithmetic.whole 1

def lossFactor (lost : α) : α :=
  if Arithmetic.atMost lost (fraction 1 4) then fraction 1 4
  else if Arithmetic.atMost lost (fraction 1 2) then Arithmetic.whole 1
  else if Arithmetic.atMost lost (fraction 3 4) then fraction 3 2
  else Arithmetic.whole 2

/-- The chance in percent that a capture succeeds. From 100 on it is certain; below, it grows with
the health that the fighter has lost, and a guard divides it by three. -/
def captureChance (base : α) (hp maxHp : Int32) (guarded : Bool) : α :=
  if Arithmetic.atMost (Arithmetic.whole 100) base then base
  else (if guarded then base / Arithmetic.whole 3 else base) * lossFactor (lostPart hp maxHp)

end PetDuel
