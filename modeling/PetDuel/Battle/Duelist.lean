import PetDuel.Battle.Turn
import PetDuel.Pet.FighterAttribute

/-!
Duelists: the two sides of a duel, each with a team of fighters of which one is out, the skill in
use, and a random stream of its own.
-/

namespace PetDuel

structure Team where
  fighters : List Fighter
  cursor : Nat
  deriving DecidableEq, Repr, Inhabited

namespace Team

def active? (t : Team) : Option Fighter := t.fighters[t.cursor]?

def setActive (t : Team) (f : Fighter) : Team := { t with fighters := t.fighters.set t.cursor f }

def isSlot (t : Team) (i : Int) : Bool := decide (0 ≤ i) && decide (i < t.fighters.length)

end Team

structure Duelist where
  id : DuelistId
  team : Team
  turn : TurnRecord
  stream : Random.Stream
  /-- Nothing is left to do in this duel. -/
  done : Bool
  deriving DecidableEq, Repr, Inhabited

namespace Duelist

/-- A duelist with its team, the first fighter out. The stream comes from the seed of the duel and
the number of the duelist. -/
def new (id : DuelistId) (fighters : List Fighter) (seed : UInt64) : Duelist :=
  { id, team := ⟨fighters, 0⟩, turn := .new .pass, stream := .forDuelist seed id.number
    done := false }

def active? (d : Duelist) : Option Fighter := d.team.active?

def setActive (d : Duelist) (f : Fighter) : Duelist := { d with team := d.team.setActive f }

def skill (d : Duelist) : Skill := d.turn.skill

def choose (d : Duelist) (s : Skill) : Duelist := { d with turn := .new s }

def roll (d : Duelist) : Double × Duelist :=
  let (x, stream) := d.stream.percent
  (x, { d with stream })

end Duelist

end PetDuel
