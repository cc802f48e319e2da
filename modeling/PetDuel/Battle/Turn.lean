import PetDuel.Skill.Attribute

/-!
What a duelist does in a turn: the skill in use, and what has come of it so far.
-/

namespace PetDuel

/-- The skill in use this turn with what it has done. -/
structure TurnRecord where
  skill : Skill
  skillDamage : Int32
  itemDamage : Int32
  buffDamage : Int32
  skillHeal : Int32
  itemHeal : Int32
  buffHeal : Int32
  hit : Bool
  critical : Bool
  /-- The factor between the element of the skill and that of its target. -/
  relation : Double
  deriving DecidableEq, Repr, Inhabited

/-- A named attribute of a turn record; a name that is none of its own is one of the skill. -/
inductive TurnAttribute
  | skillDamage
  | itemDamage
  | buffDamage
  | skillHeal
  | itemHeal
  | buffHeal
  | hit
  | critical
  | relation
  | skill (a : SkillAttribute)
  deriving DecidableEq, Repr

def TurnAttribute.ofName? (name : String) : Option TurnAttribute :=
  match name with
  | "skillDamage" => some skillDamage
  | "itemDamage" => some itemDamage
  | "buffDamage" => some buffDamage
  | "skillHeal" => some skillHeal
  | "itemHeal" => some itemHeal
  | "buffHeal" => some buffHeal
  | "isHit" => some hit
  | "isCritical" => some critical
  | "elementRelation" => some relation
  | _ => (SkillAttribute.ofName? name).map skill

namespace TurnRecord

def new (skill : Skill) : TurnRecord :=
  { skill, skillDamage := 0, itemDamage := 0, buffDamage := 0, skillHeal := 0, itemHeal := 0
    buffHeal := 0, hit := false, critical := false, relation := Double.ofInt 1 }

def reset (t : TurnRecord) : TurnRecord := new t.skill

def read (t : TurnRecord) : TurnAttribute → Double
  | .skillDamage => Double.ofInt32 t.skillDamage
  | .itemDamage => Double.ofInt32 t.itemDamage
  | .buffDamage => Double.ofInt32 t.buffDamage
  | .skillHeal => Double.ofInt32 t.skillHeal
  | .itemHeal => Double.ofInt32 t.itemHeal
  | .buffHeal => Double.ofInt32 t.buffHeal
  | .hit => Double.ofFlag t.hit
  | .critical => Double.ofFlag t.critical
  | .relation => t.relation
  | .skill a => t.skill.read a

def write? (t : TurnRecord) (a : TurnAttribute) (x : Double) : Option TurnRecord :=
  match a with
  | .skillDamage => some { t with skillDamage := x.toInt32 }
  | .itemDamage => some { t with itemDamage := x.toInt32 }
  | .buffDamage => some { t with buffDamage := x.toInt32 }
  | .skillHeal => some { t with skillHeal := x.toInt32 }
  | .itemHeal => some { t with itemHeal := x.toInt32 }
  | .buffHeal => some { t with buffHeal := x.toInt32 }
  | .hit => some { t with hit := x != 0.0 }
  | .critical => some { t with critical := x != 0.0 }
  | .relation => some { t with relation := x }
  | .skill a => (t.skill.write? a x).map fun skill => { t with skill }

def readName? (t : TurnRecord) (name : String) : Option Double :=
  (TurnAttribute.ofName? name).map t.read

def writeName? (t : TurnRecord) (name : String) (x : Double) : Option TurnRecord :=
  (TurnAttribute.ofName? name).bind fun a => t.write? a x

end TurnRecord

end PetDuel
