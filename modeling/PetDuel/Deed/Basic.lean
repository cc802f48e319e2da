import PetDuel.Battle.Basic

/-!
Deeds: what effects do to a duel, with every number settled. An effect is first read against the
present moment, which either gives a deed or refuses the effect; only a deed changes anything.
-/

namespace PetDuel

inductive Pick
  | every
  /-- One of them moves, each with the same chance. -/
  | evenly
  /-- One of them moves, with chances by weight. -/
  | byWeight (weights : List Double)
  deriving DecidableEq, Repr

inductive HealAccount
  | skill
  | item
  /-- Healing by buffs is only recorded. -/
  | buff
  deriving DecidableEq, Repr

inductive Healing
  | set (hp : Int32)
  | gain (account : Option HealAccount) (amount : Int32)
  deriving DecidableEq, Repr

inductive SkillChoice
  | fixed (s : Skill)
  | random
  deriving DecidableEq, Repr

/-- What an effect does, with every number settled. -/
inductive Deed
  | finish (o : Outcome)
  /-- A duelist tries to capture the fighter opposite. -/
  | capture (id : DuelistId) (chance : Double)
  /-- A duelist sends out another fighter, which takes over the anger and the inherited buffs. -/
  | switchPet (id : DuelistId) (target : Nat) (carried : Int32) (inherited : List Buff)
      (fainted : Bool)
  | heal (id : DuelistId) (h : Healing)
  /-- Bounds of anger are written where given, and anger is gained. -/
  | rage (id : DuelistId) (low high : Option Int32) (gain : Int32)
  | raiseStages (id : DuelistId) (wanted : Stages) (pick : Pick)
  | addStats (id : DuelistId) (c : Channel) (amount : Int32)
  /-- Numbers and ranges of numbers are blocked, or their blocks are lifted. -/
  | blockBuffs (id : DuelistId) (block : Bool) (ids : List Int32) (ranges : List (Int32 × Int32))
  | addBuff (id : DuelistId) (b : Buff)
  | removeBuffs (id : DuelistId) (categories : List Category) (ids : List Int32)
  /-- Buffs and stages go from one fighter to another. -/
  | copyBuffs (source target : DuelistId) (listed : List Buff) (stages : Stages)
      (drained : List StageChannel) (typed : List Buff) (transfer : Bool)
  | setBuff (id : DuelistId) (buff : Int32) (a : BuffAttribute) (x : Double)
  | setTurn (id : DuelistId) (a : TurnAttribute) (x : Double)
  /-- Another skill comes into use, at its own cost of anger or at that of the skill before it. -/
  | setSkill (id : DuelistId) (choice : SkillChoice) (ownCost : Bool)
  | setPet (id : DuelistId) (a : FighterAttribute) (x : Double)
  | setWeather (w : Weather)
  deriving DecidableEq, Repr

end PetDuel
