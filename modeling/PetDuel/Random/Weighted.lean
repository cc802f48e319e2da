import PetDuel.Number.Double
import PetDuel.Random.Stream

/-!
Choosing one of several entries by weight: a threshold is drawn below the sum of the weights, and
the first entry whose weight covers what is left of the threshold is chosen.
-/

namespace PetDuel.Random

open Number

variable {α : Type} [Arithmetic α]

def weightsAllowed (weights : List α) : Bool :=
  weights.all fun w => Arithmetic.finite w && Arithmetic.atMost (Arithmetic.whole 0) w

def drawableTotal? (weights : List α) : Option α :=
  let total := sum weights
  if weightsAllowed weights && !weights.isEmpty && Arithmetic.finite total
      && !Arithmetic.atMost total (Arithmetic.whole 0) then some total
  else none

/-- The first entry whose weight covers what the entries before it leave of the threshold. -/
def covering? : List α → α → Option Nat
  | [], _ => none
  | w :: ws, t => if Arithmetic.atMost t w then some 0 else (covering? ws (t - w)).map (· + 1)

/-- The entry that a threshold picks; the last one when rounding leaves a part of it uncovered. -/
def pickAt (weights : List α) (threshold : α) : Nat :=
  (covering? weights threshold).getD (weights.length - 1)

/-- Draws an entry by weight. Weights with no drawable sum give none and draw nothing. -/
def Stream.weighted (r : Stream) (weights : List Double) : Option Nat × Stream :=
  match drawableTotal? weights with
  | none => (none, r)
  | some total =>
    let (t, r) := r.below total
    (some (pickAt weights t), r)

end PetDuel.Random
