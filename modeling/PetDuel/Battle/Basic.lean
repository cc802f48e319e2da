import PetDuel.Battle.Scene

/-!
Battles: the present scene with the scenes that were kept before it, and how deep the effects of
entering and leaving buffs are nested at the moment.
-/

namespace PetDuel

structure Battle where
  scene : Scene
  /-- The kept scenes, the latest first. The history of a kept scene is what follows it. -/
  history : List Scene
  /-- How many changes of buffs are being answered, one inside the other. -/
  depth : Nat
  deriving DecidableEq, Repr, Inhabited

namespace Battle

def new (own opposing : Duelist) : Battle := ⟨.opening own opposing, [], 0⟩

def onScene (f : Scene → Scene) (b : Battle) : Battle := { b with scene := f b.scene }

/-- Keeps the present scene and moves on to a phase. -/
def advance (b : Battle) (phase : Timing) : Battle :=
  { b with scene := { b.scene with phase }, history := b.scene :: b.history }

/-- The duel taken up again from what is visible of it: nothing is kept of the scenes before. -/
def resume (b : Battle) : Battle := ⟨b.scene, [], 0⟩

end Battle

/-- A scene with the scenes kept before it. -/
structure Moment where
  scene : Scene
  history : List Scene
  deriving DecidableEq, Repr, Inhabited

/-- The latest scene of an earlier turn, with what was kept before it. -/
def earlierTurn? (turn : UInt32) : List Scene → Option Moment
  | [] => none
  | s :: ss => if s.turn < turn then some ⟨s, ss⟩ else earlierTurn? turn ss

def Moment.last? (m : Moment) : Option Moment := earlierTurn? m.scene.turn m.history

def Battle.now (b : Battle) : Moment := ⟨b.scene, b.history⟩

end PetDuel
