import PetDuel.Stats.Channel
import PetDuel.Number.Double

/-!
Statistics: one double for each channel. They hold base values as well as accumulated additions, and
their arithmetic is done channel by channel.
-/

namespace PetDuel

structure Stats where
  values : Vector Double 12
  deriving DecidableEq, Repr

namespace Stats

def zero : Stats := ⟨Vector.replicate 12 (Double.ofInt 0)⟩

instance : Inhabited Stats := ⟨zero⟩

def get (s : Stats) (c : Channel) : Double := s.values[c.index]

def set (s : Stats) (c : Channel) (x : Double) : Stats := ⟨s.values.set c.index x⟩

/-- The statistics of a pet from its six visible values; the hidden channels get neutral ones. -/
def ofVisible (attack defense magicAttack magicDefense speed health : Double) : Stats :=
  ⟨#v[attack, defense, magicAttack, magicDefense, speed, health, Double.ofInt 5, Double.ofInt 0,
    Double.ofInt 100, Double.ofInt 0, Double.ofInt 100, Double.ofInt 100]⟩

def at? (s : Stats) (i : Nat) : Option Double := (Channel.ofIndex? i).map s.get

def byName? (s : Stats) (name : String) : Option Double := (Channel.ofName? name).map s.get

def map (f : Double → Double) (s : Stats) : Stats := ⟨s.values.map f⟩

def add (s t : Stats) : Stats := ⟨s.values.zipWith (· + ·) t.values⟩

def sub (s t : Stats) : Stats := ⟨s.values.zipWith (· - ·) t.values⟩

instance : Add Stats := ⟨add⟩
instance : Sub Stats := ⟨sub⟩

def toList (s : Stats) : List Double := s.values.toList

def nonzeroCount (s : Stats) : Nat := s.toList.countP fun x => x != 0.0

def pairs (s : Stats) : List (Channel × Double) := Channel.all.map fun c => (c, s.get c)

end Stats

end PetDuel
