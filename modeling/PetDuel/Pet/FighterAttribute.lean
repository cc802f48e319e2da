import PetDuel.Pet.Fighter

/-!
The attributes of a fighter that expressions and effects can name. A name that is none of its own is
one of its pet.
-/

namespace PetDuel

inductive FighterAttribute
  /-- A question about the active buffs. -/
  | buffs (query : BuffQuery)
  /-- A statistic as it was at entry. -/
  | entryStat (c : Channel)
  /-- A stage; a channel without stages is always at zero. -/
  | stage (c : Channel)
  | hp
  | maxHp
  | anger
  | minAnger
  | maxAnger
  | isDead
  | stat (c : Channel)
  | pet (a : PetAttribute)
  deriving DecidableEq, Repr

namespace FighterAttribute

def ofPlainName? (name : String) : Option FighterAttribute :=
  match name with
  | "hp" => some hp
  | "maxHp" => some maxHp
  | "anger" => some anger
  | "minAnger" => some minAnger
  | "maxAnger" => some maxAnger
  | "isDead" => some isDead
  | _ =>
    match Channel.ofName? name with
    | some c => some (stat c)
    | none => (PetAttribute.ofName? name).map pet

def ofName? (name : String) : Option FighterAttribute :=
  match Text.callArgument? "buff" name with
  | some argument => (BuffQuery.ofText? argument).map buffs
  | none =>
    match Text.callArgument? "init" name with
    | some argument => (Channel.ofName? argument).map entryStat
    | none =>
      match Text.callArgument? "powerup" name with
      | some argument => (Channel.ofName? argument).map stage
      | none => ofPlainName? name

end FighterAttribute

namespace Fighter

def read? (f : Fighter) : FighterAttribute → Option Double
  | .buffs query => some (query.answer f.board.active)
  | .entryStat c => some (f.sheet.entry.get c)
  | .stage c => some (f.sheet.stages.toStats.get c)
  | .hp => some (Double.ofInt32 f.hp)
  | .maxHp => some (Double.ofInt32 f.maxHp)
  | .anger => some (Double.ofInt32 f.anger)
  | .minAnger => some (Double.ofInt32 f.sheet.minAnger)
  | .maxAnger => some (Double.ofInt32 f.sheet.maxAnger)
  | .isDead => some (Double.ofFlag f.isDead)
  | .stat c => some (f.sheet.current.get c)
  | .pet a => f.pet.read? a

/-- The fighter with another value of an attribute. A stage is written without its markers, and a
new bound moves the anger to within the bounds. -/
def write? (f : Fighter) (a : FighterAttribute) (x : Double) : Option Fighter :=
  match a with
  | .stage c => some { f with sheet := f.sheet.setStageOf c x.toInt32 }
  | .hp => some (f.setHp x.toInt32)
  | .anger => some (f.setAnger x.toInt32)
  | .minAnger =>
    some ({ f with sheet := { f.sheet with minAnger := x.toInt32 } }.setAnger f.anger)
  | .maxAnger =>
    some ({ f with sheet := { f.sheet with maxAnger := x.toInt32 } }.setAnger f.anger)
  | .pet a => (f.pet.write? a x).map fun pet => { f with pet }
  | .buffs _ | .entryStat _ | .maxHp | .isDead | .stat _ => none

def readName? (f : Fighter) (name : String) : Option Double :=
  (FighterAttribute.ofName? name).bind f.read?

def writeName? (f : Fighter) (name : String) (x : Double) : Option Fighter :=
  (FighterAttribute.ofName? name).bind fun a => f.write? a x

end Fighter

end PetDuel
