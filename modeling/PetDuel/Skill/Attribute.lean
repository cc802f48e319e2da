import PetDuel.Skill.Basic

/-!
The attributes of a skill that expressions and effects can name.
-/

namespace PetDuel

inductive SkillAttribute
  | id
  | element
  | kind
  | power
  | anger
  | accuracy
  | priority
  | critical
  | combo
  | ignoreShield
  | ignoreStages
  | secondSuper
  deriving DecidableEq, Repr

def SkillAttribute.ofName? : String → Option SkillAttribute
  | "id" => some id
  | "element" => some element
  | "type" => some kind
  | "power" => some power
  | "anger" => some anger
  | "accuracy" => some accuracy
  | "priority" => some priority
  | "critical" => some critical
  | "combo" => some combo
  | "ignoreShield" => some ignoreShield
  | "ignorePowerup" => some ignoreStages
  | "secondSuper" => some secondSuper
  | _ => none

namespace Skill

def read (s : Skill) : SkillAttribute → Double
  | .id => Double.ofInt32 s.id
  | .element => Double.ofInt32 s.element
  | .kind => Double.ofInt32 s.kind.code
  | .power => Double.ofInt32 s.power
  | .anger => Double.ofInt32 s.anger
  | .accuracy => Double.ofInt32 s.accuracy
  | .priority => Double.ofInt32 s.priority
  | .critical => s.critical
  | .combo => Double.ofInt32 s.combo
  | .ignoreShield => Double.ofFlag s.ignoreShield
  | .ignoreStages => Double.ofFlag s.ignoreStages
  | .secondSuper => Double.ofFlag s.secondSuper

/-- The skill with another value of an attribute. The number cannot be written, and the kind only
with the code of a kind. -/
def write? (s : Skill) (a : SkillAttribute) (x : Double) : Option Skill :=
  match a with
  | .id => none
  | .element => some { s with element := x.toInt32 }
  | .kind => (SkillKind.ofCode? x.toInt32).map fun kind => { s with kind }
  | .power => some { s with power := x.toInt32 }
  | .anger => some { s with anger := x.toInt32 }
  | .accuracy => some { s with accuracy := x.toInt32 }
  | .priority => some { s with priority := x.toInt32 }
  | .critical => some { s with critical := x }
  | .combo => some { s with combo := x.toInt32 }
  | .ignoreShield => some { s with ignoreShield := x != 0.0 }
  | .ignoreStages => some { s with ignoreStages := x != 0.0 }
  | .secondSuper => some { s with secondSuper := x != 0.0 }

def readName? (s : Skill) (name : String) : Option Double :=
  (SkillAttribute.ofName? name).map s.read

def writeName? (s : Skill) (name : String) (x : Double) : Option Skill :=
  (SkillAttribute.ofName? name).bind fun a => s.write? a x

end Skill

end PetDuel
