import PetDuel.Buff.Attribute

/-!
Pets as their owners keep them: identity, talents, progress, and the statistics with which a pet
enters a duel.
-/

namespace PetDuel

def topLevel : Int32 := 100

structure Pet where
  id : Int32
  baseId : Int32
  element : Int32
  subElement : Int32
  personality : Int32
  height : Int32
  weight : Int32
  level : Int32
  exp : UInt32
  iv : Int32
  /-- The effort spent on each of the six visible statistics. -/
  ev : Vector Int32 6
  /-- Effort that is not spent yet. -/
  evStorage : Int32
  emblem : Bool
  featureId : Int32
  emblemId : Int32
  /-- Counters of the pet's progress, by name. -/
  records : List (String × Double)
  /-- The numbers of the skills that the pet knows. -/
  skills : List Int32
  /-- The buffs that the pet brings into every duel. -/
  entryBuffs : List Buff
  /-- The statistics of the pet in full health. -/
  normal : Stats
  /-- The statistics that the pet has now. Outside a duel only the health is ever written. -/
  current : Stats
  deriving DecidableEq, Repr, Inhabited

namespace Pet

def new (id : Int32) (normal : Stats) : Pet :=
  { id, baseId := id, element := 0, subElement := 0, personality := 0, height := 0, weight := 0
    level := 1, exp := 0, iv := 0, ev := Vector.replicate 6 0, evStorage := 0, emblem := false
    featureId := 0, emblemId := 0, records := [], skills := [], entryBuffs := [], normal
    current := normal }

def withLevel (p : Pet) (n : Int32) : Pet := { p with level := bounded 1 topLevel n }

def hp (p : Pet) : Double := p.current.get .health

def fullHp (p : Pet) : Double := Double.larger (p.normal.get .health) (Double.ofInt 0)

def setHp (p : Pet) (hp : Double) : Pet :=
  { p with current := p.current.set .health (Double.clampTo (Double.ofInt 0) p.fullHp hp) }

def resetEffort (p : Pet) : Pet :=
  { p with evStorage := p.evStorage + p.ev.toList.foldl (· + ·) 0, ev := Vector.replicate 6 0 }

def setRecord (p : Pet) (key : String) (x : Double) : Pet :=
  { p with records := Keyed.put Prod.fst (key, x) p.records }

def record? (p : Pet) (key : String) : Option Double :=
  (Keyed.find? Prod.fst key p.records).map Prod.snd

end Pet

end PetDuel
