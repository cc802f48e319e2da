import PetDuel.Pet.Basic

/-!
The attributes of a pet that expressions and effects can name.
-/

namespace PetDuel

inductive PetAttribute
  /-- Does the pet know this skill? -/
  | knows (skill : Int32)
  /-- A question about the buffs that the pet brings along. -/
  | brings (query : BuffQuery)
  | record (key : String)
  | id
  | baseId
  | element
  | subElement
  | personality
  | height
  | weight
  | level
  | exp
  | iv
  | evStorage
  | emblem
  | featureId
  | emblemId
  deriving DecidableEq, Repr

namespace PetAttribute

def ofPlainName? : String → Option PetAttribute
  | "id" => some id
  | "baseId" => some baseId
  | "element" => some element
  | "subElement" => some subElement
  | "personality" => some personality
  | "height" => some height
  | "weight" => some weight
  | "level" => some level
  | "exp" => some exp
  | "iv" => some iv
  | "evStorage" => some evStorage
  | "emblem" => some emblem
  | "featureId" => some featureId
  | "emblemId" => some emblemId
  | _ => none

def ofName? (name : String) : Option PetAttribute :=
  match Text.callArgument? "skill" name with
  | some argument => (Number.int32? (Text.trim argument)).map knows
  | none =>
    match Text.callArgument? "buff" name with
    | some argument => (BuffQuery.ofText? argument).map brings
    | none =>
      match Text.callArgument? "record" name with
      | some key => some (record key)
      | none => ofPlainName? name

end PetAttribute

namespace Pet

/-- The value of an attribute; a record that was never written has none. -/
def read? (p : Pet) : PetAttribute → Option Double
  | .knows skill => some (Double.ofFlag (p.skills.contains skill))
  | .brings query => some (query.answer p.entryBuffs)
  | .record key => p.record? key
  | .id => some (Double.ofInt32 p.id)
  | .baseId => some (Double.ofInt32 p.baseId)
  | .element => some (Double.ofInt32 p.element)
  | .subElement => some (Double.ofInt32 p.subElement)
  | .personality => some (Double.ofInt32 p.personality)
  | .height => some (Double.ofInt32 p.height)
  | .weight => some (Double.ofInt32 p.weight)
  | .level => some (Double.ofInt32 p.level)
  | .exp => some (Double.ofUInt32 p.exp)
  | .iv => some (Double.ofInt32 p.iv)
  | .evStorage => some (Double.ofInt32 p.evStorage)
  | .emblem => some (Double.ofFlag p.emblem)
  | .featureId => some (Double.ofInt32 p.featureId)
  | .emblemId => some (Double.ofInt32 p.emblemId)

/-- The pet with another value of an attribute. Identity, skills and buffs cannot be written. -/
def write? (p : Pet) (a : PetAttribute) (x : Double) : Option Pet :=
  match a with
  | .record key => some (p.setRecord key x)
  | .personality => some { p with personality := x.toInt32 }
  | .height => some { p with height := x.toInt32 }
  | .weight => some { p with weight := x.toInt32 }
  | .level => some (p.withLevel x.toInt32)
  | .exp => some { p with exp := x.toUInt32 }
  | .iv => some { p with iv := x.toInt32 }
  | .evStorage => some { p with evStorage := x.toInt32 }
  | .emblem => some { p with emblem := decide (0.0 < x) }
  | .featureId => some { p with featureId := x.toInt32 }
  | .emblemId => some { p with emblemId := x.toInt32 }
  | .knows _ | .brings _ | .id | .baseId | .element | .subElement => none

def readName? (p : Pet) (name : String) : Option Double :=
  (PetAttribute.ofName? name).bind p.read?

def writeName? (p : Pet) (name : String) (x : Double) : Option Pet :=
  (PetAttribute.ofName? name).bind fun a => p.write? a x

end Pet

end PetDuel
