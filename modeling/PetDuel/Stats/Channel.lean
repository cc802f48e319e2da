/-!
The twelve channels of a pet's statistics, by index and by the name that content uses.
-/

namespace PetDuel

inductive Channel
  | attack
  | defense
  | magicAttack
  | magicDefense
  | speed
  | health
  | critical
  | criticalDefense
  | hit
  | evasion
  | recovery
  | angerRecovery
  deriving DecidableEq, Repr, Inhabited

namespace Channel

def all : List Channel :=
  [attack, defense, magicAttack, magicDefense, speed, health, critical, criticalDefense, hit,
   evasion, recovery, angerRecovery]

def index : Channel → Fin 12
  | attack => 0
  | defense => 1
  | magicAttack => 2
  | magicDefense => 3
  | speed => 4
  | health => 5
  | critical => 6
  | criticalDefense => 7
  | hit => 8
  | evasion => 9
  | recovery => 10
  | angerRecovery => 11

def name : Channel → String
  | attack => "atk"
  | defense => "def"
  | magicAttack => "mat"
  | magicDefense => "mdf"
  | speed => "spd"
  | health => "hp"
  | critical => "cri"
  | criticalDefense => "cdf"
  | hit => "hit"
  | evasion => "eva"
  | recovery => "rec"
  | angerRecovery => "angrec"

def ofIndex? (i : Nat) : Option Channel := all[i]?

/-- The channel with a name; only the exact lower-case name will do. -/
def ofName? (s : String) : Option Channel := all.find? fun c => c.name == s

end Channel

/-- The five channels that can be raised and lowered in stages. -/
inductive StageChannel
  | attack
  | defense
  | magicAttack
  | magicDefense
  | speed
  deriving DecidableEq, Repr, Inhabited

namespace StageChannel

def all : List StageChannel := [attack, defense, magicAttack, magicDefense, speed]

def channel : StageChannel → Channel
  | attack => .attack
  | defense => .defense
  | magicAttack => .magicAttack
  | magicDefense => .magicDefense
  | speed => .speed

def index : StageChannel → Fin 5
  | attack => 0
  | defense => 1
  | magicAttack => 2
  | magicDefense => 3
  | speed => 4

def name (c : StageChannel) : String := c.channel.name

def ofChannel? : Channel → Option StageChannel
  | .attack => some attack
  | .defense => some defense
  | .magicAttack => some magicAttack
  | .magicDefense => some magicDefense
  | .speed => some speed
  | _ => none

end StageChannel

end PetDuel
