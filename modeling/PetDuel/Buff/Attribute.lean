import PetDuel.Buff.Board

/-!
The attributes of a buff that expressions can name, and the question that `buff(...)` puts to a
list of buffs.
-/

namespace PetDuel

inductive BuffAttribute
  | id
  | turn
  | value
  | category
  | policy
  | hidden
  | keep
  | inherit
  | autoRemove
  deriving DecidableEq, Repr

namespace BuffAttribute

def ofName? : String → Option BuffAttribute
  | "id" => some id
  | "turn" => some turn
  | "value" => some value
  | "type" => some category
  | "copy" => some policy
  | "hide" => some hidden
  | "keep" => some keep
  | "inherit" => some inherit
  | "autoRemove" => some autoRemove
  | _ => none

end BuffAttribute

namespace Buff

def read (b : Buff) : BuffAttribute → Double
  | .id => Double.ofInt32 b.id
  | .turn => Double.ofInt32 b.turn
  | .value => Double.ofInt32 b.value
  | .category => Double.ofNat b.template.category.code
  | .policy => Double.ofNat b.template.policy.code
  | .hidden => Double.ofFlag b.template.hidden
  | .keep => Double.ofFlag b.template.keep
  | .inherit => Double.ofFlag b.template.inherit
  | .autoRemove => Double.ofFlag b.template.autoRemove

def write? (b : Buff) (a : BuffAttribute) (x : Double) : Option Buff :=
  match a with
  | .turn => some { b with turn := x.toInt32 }
  | .value => some (b.setValue x.toInt32)
  | _ => none

def readName? (b : Buff) (name : String) : Option Double := (BuffAttribute.ofName? name).map b.read

def writeName? (b : Buff) (name : String) (x : Double) : Option Buff :=
  (BuffAttribute.ofName? name).bind fun a => b.write? a x

end Buff

/-- The question that `buff(...)` puts to a list of buffs. -/
inductive BuffQuery
  /-- Is there a buff with this number? -/
  | present (id : Int32)
  /-- How many buffs have this value of this option? -/
  | optionCount (key value : String)
  deriving DecidableEq, Repr

namespace BuffQuery

def ofText? (argument : String) : Option BuffQuery :=
  match Text.cut? ':' argument with
  | some (key, value) => some (optionCount key value)
  | none => (Number.int32? (Text.trim argument)).map present

def answer (bs : List Buff) : BuffQuery → Double
  | present id => Double.ofFlag (bs.any fun b => b.id == id)
  | optionCount key value => Double.ofNat (bs.countP fun b => b.option? key == some value)

end BuffQuery

end PetDuel
