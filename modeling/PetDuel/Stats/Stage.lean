import PetDuel.Stats.Basic

/-!
Stages: how far each of the five stage channels is raised or lowered, and by what factor a stage
changes the channel.
-/

namespace PetDuel

/-- A stage, or a change of stage, for each of the five stage channels. -/
structure Stages where
  values : Vector Int32 5
  deriving DecidableEq, Repr

namespace Stages

def zero : Stages := ⟨Vector.replicate 5 0⟩

instance : Inhabited Stages := ⟨zero⟩

def get (s : Stages) (c : StageChannel) : Int32 := s.values[c.index]

def set (s : Stages) (c : StageChannel) (n : Int32) : Stages := ⟨s.values.set c.index n⟩

def ofFn (f : StageChannel → Int32) : Stages :=
  ⟨#v[f .attack, f .defense, f .magicAttack, f .magicDefense, f .speed]⟩

def map (f : Int32 → Int32) (s : Stages) : Stages := ofFn fun c => f (s.get c)

/-- The stages as statistics: the seven channels without stages are zero. -/
def toStats (s : Stages) : Stats :=
  StageChannel.all.foldl (fun t c => t.set c.channel (Double.ofInt32 (s.get c))) Stats.zero

def ofStats (s : Stats) : Stages := ofFn fun c => (s.get c.channel).toInt32

end Stages

/-- The factor of a stage: `(2 + n) / 2` when raised and `2 / (2 - n)` when lowered. -/
def stageFactor (n : Int32) : Double :=
  if 0 ≤ n then Double.ofInt32 (2 + n) / Double.ofInt 2 else Double.ofInt 2 / Double.ofInt32 (2 - n)

end PetDuel
