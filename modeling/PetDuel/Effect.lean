import PetDuel.Options

/-!
Effects: what a skill or a buff does, when it does it, for which side of a duel, and with which
options.
-/

namespace PetDuel

structure DuelistId where
  number : UInt32
  deriving DecidableEq, Repr, Inhabited

def DuelistId.label (id : DuelistId) : String :=
  "Unit(" ++ id.number.toNat.repr ++ ")"

inductive Side
  | own
  | opposing
  deriving DecidableEq, Repr

/-- The side that an option names: `me` is the duelist's own side and every other word the opposing
one. -/
def Side.ofText (value : String) : Side :=
  if value == "me" then .own else .opposing

inductive Ability
  | win
  | escape
  | capture
  | switchPet
  | heal
  | rage
  | raiseStages
  | addStats
  | blockBuffs
  | addBuff
  | removeBuffs
  | copyBuffs
  | setBuff
  | setDamage
  | setSkill
  | setPet
  | setWeather
  deriving DecidableEq, Repr, Inhabited

namespace Ability

def all : List Ability :=
  [win, escape, capture, switchPet, heal, rage, raiseStages, addStats, blockBuffs, addBuff,
   removeBuffs, copyBuffs, setBuff, setDamage, setSkill, setPet, setWeather]

def name : Ability → String
  | win => "Win"
  | escape => "Escape"
  | capture => "Capture"
  | switchPet => "PetChange"
  | heal => "Heal"
  | rage => "Rage"
  | raiseStages => "Powerup"
  | addStats => "AddStatus"
  | blockBuffs => "BlockBuff"
  | addBuff => "AddBuff"
  | removeBuffs => "RemoveBuff"
  | copyBuffs => "CopyBuff"
  | setBuff => "SetBuff"
  | setDamage => "SetDamage"
  | setSkill => "SetSkill"
  | setPet => "SetPet"
  | setWeather => "SetWeather"

def index (a : Ability) : Nat := all.idxOf a

end Ability

/-- When an effect fires; also the phase that a duel is in. -/
inductive Timing
  | battleStart
  | turnStart
  | beforeAttack
  | attack
  | afterAttack
  | turnEnd
  | battleEnd
  | buffAdded
  | buffRemoved
  deriving DecidableEq, Repr, Inhabited

namespace Timing

def all : List Timing :=
  [battleStart, turnStart, beforeAttack, attack, afterAttack, turnEnd, battleEnd, buffAdded,
   buffRemoved]

def name : Timing → String
  | battleStart => "OnBattleStart"
  | turnStart => "OnTurnStart"
  | beforeAttack => "OnBeforeAttack"
  | attack => "OnAttack"
  | afterAttack => "OnAfterAttack"
  | turnEnd => "OnTurnEnd"
  | battleEnd => "OnBattleEnd"
  | buffAdded => "OnAddBuff"
  | buffRemoved => "OnRemoveBuff"

def code (t : Timing) : Nat := all.idxOf t

def isAction : Timing → Bool
  | beforeAttack | attack | afterAttack => true
  | _ => false

end Timing

def Ability.ofName? (s : String) : Option Ability := all.find? fun a => Text.sameWord a.name s

def Timing.ofName? (s : String) : Option Timing := all.find? fun t => Text.sameWord t.name s

inductive Carrier
  | nothing
  | skill (id : Int32)
  | buff (id : Int32)
  deriving DecidableEq, Repr, Inhabited

/-- One effect. It names its carrier and the duelist it acts for by number only. -/
structure Effect where
  timing : Timing
  ability : Ability
  options : Options
  /-- The duelist the effect acts for, known once its carrier belongs to one. -/
  invoker : Option DuelistId
  carrier : Carrier
  deriving DecidableEq, Repr, Inhabited

namespace Effect

def new (timing : Timing) (ability : Ability) (options : Options) : Effect :=
  { timing, ability, options, invoker := none, carrier := .nothing }

def option (e : Effect) (key default : String) : String := e.options.getD key default

def actingFor (e : Effect) (id : DuelistId) : Effect := { e with invoker := some id }

def carriedBy (e : Effect) (c : Carrier) : Effect := { e with carrier := c }

end Effect

end PetDuel
