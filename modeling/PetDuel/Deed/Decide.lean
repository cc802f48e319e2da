import PetDuel.Battle.Capture
import PetDuel.Deed.Basic
import PetDuel.Operand.Scope
import PetDuel.Operator

/-!
Reading an effect against the present moment. Everything an effect depends on is read here: its
options, the duelists it names and the values of its operands. What cannot be read refuses the
effect.
-/

namespace PetDuel

open Operand

structure Context where
  catalog : Catalog
  rules : Rules

def Scene.named? (s : Scene) (e : Effect) (key default : String) : Option DuelistId :=
  e.invoker.bind fun id => s.onSide? id (Side.ofText (e.option key default))

/-- The scope of an effect's operands: the duelist that the effect acts on and its rival. -/
def Moment.scope? (m : Moment) (e : Effect) : Option Scope := do
  let id ← m.scene.named? e "who" "me"
  let own ← m.scene.duelist? id
  let rival ← m.scene.rival? id
  return { effect := e, own, rival, moment := some m }

namespace Effect

def operand? (e : Effect) (c : Scope) (key default : String) : Option Double :=
  c.value? (e.option key default)

def int? (e : Effect) (key default : String) : Option Int32 :=
  Number.int32? (Text.trim (e.option key default))

def operator? (e : Effect) : Option Operator := Operator.ofText? (e.option "op" "+")

def decideWin (e : Effect) (m : Moment) : Option Deed := do
  let id ← m.scene.named? e "who" "me"
  return .finish (if m.scene.isOwn id then .win else .lose)

def decideEscape (m : Moment) : Option Deed :=
  some (.finish (if m.scene.isOwn m.scene.acting then .ownEscape else .opposingEscape))

def decideCapture (e : Effect) (m : Moment) : Option Deed := do
  let base ← Double.ofText? (Text.trim (e.option "prob" "0"))
  let id ← e.invoker
  let rival ← m.scene.rival? id
  let f ← rival.active?
  return .capture id (captureChance base f.hp f.maxHp (f.board.contains captureGuardId))

def decideSwitch (e : Effect) (ctx : Context) (m : Moment) : Option Deed := do
  let target ← Number.int64? (Text.trim (e.option "target_index" "-1"))
  let id ← e.invoker
  let d ← m.scene.duelist? id
  guard (d.team.isSlot target)
  let f ← d.active?
  return .switchPet id target.toNat
    (Double.ofInt32 f.anger * ctx.rules.angerCarry).floorToInt32
    (f.board.active.filter fun b => b.template.inherit) f.isDead

/-- A gain that grows with a statistic in percent; a loss does not. -/
def scaledGain (amount percent : Double) : Int32 :=
  let rate := if 0.0 < amount then percent / 100.0 else 1.0
  (amount * rate).toInt32

def healAccount? (kind : String) (side : Side) : Option HealAccount :=
  match kind, side with
  | "item", .own => some .item
  | "skill", .own => some .skill
  | "buff", _ => some .buff
  | _, _ => none

/-- The value of an operand that may be absent. The outer absence refuses the effect. -/
def optionalOperand? (e : Effect) (c : Scope) (key : String) : Option (Option Int32) :=
  let raw := e.option key Options.emptyText
  if Options.isGiven raw then (c.value? raw).map fun x => some x.toInt32 else some none

/-- A healing. Only an overwriting reaches a fighter that can fight no more. -/
def decideHeal (e : Effect) (m : Moment) : Option Deed := do
  let c ← m.scope? e
  let f ← c.own.active?
  let amount ← e.operand? c "add" "0"
  let written ← e.optionalOperand? c "set"
  match written with
  | some hp => return .heal c.own.id (.set hp)
  | none =>
    guard (!f.isDead)
    return .heal c.own.id <| .gain
      (healAccount? (e.option "type" "skill") (Side.ofText (e.option "who" "me")))
      (scaledGain amount (f.sheet.current.get .recovery))

def decideRage (e : Effect) (m : Moment) : Option Deed := do
  let c ← m.scope? e
  let f ← c.own.active?
  let low ← e.optionalOperand? c "min"
  let high ← e.optionalOperand? c "max"
  let amount ← e.operand? c "add" "0"
  return .rage c.own.id low high (scaledGain amount (f.sheet.current.get .angerRecovery))

def pick? (e : Effect) (random : Bool) : Option Pick :=
  if !random then some .every
  else
    match e.option "random_pdf" Options.emptyText with
    | "none" => some .every
    | "uniform" => some .evenly
    | raw => do
      let weights ← doubleList? '/' raw
      guard (weights.all fun w => w.isFinite && decide (0.0 ≤ w))
      return .byWeight weights

def wantedStages? (e : Effect) : Option Stages := do
  let attack ← e.int? StageChannel.attack.name "0"
  let defense ← e.int? StageChannel.defense.name "0"
  let magicAttack ← e.int? StageChannel.magicAttack.name "0"
  let magicDefense ← e.int? StageChannel.magicDefense.name "0"
  let speed ← e.int? StageChannel.speed.name "0"
  return ⟨#v[attack, defense, magicAttack, magicDefense, speed]⟩

def decideRaise (e : Effect) (m : Moment) : Option Deed := do
  let random ← flag? (e.option "random" "false")
  let wanted ← e.wantedStages?
  let pick ← e.pick? random
  let id ← m.scene.named? e "who" "me"
  let _ ← m.scene.active? id
  return .raiseStages id wanted pick

/-- A permanent growth of a statistic: a given part and a multiple of the value at entry. -/
def decideAddStats (e : Effect) (m : Moment) : Option Deed := do
  let i ← Number.index? (Text.trim (e.option "type" "5"))
  let channel ← Channel.ofIndex? i
  let c ← m.scope? e
  let f ← c.own.active?
  let factor ← e.operand? c "mult" "0/1"
  let amount ← e.operand? c "add" "0"
  return .addStats c.own.id channel
    (amount.toInt32 + (f.sheet.entry.get channel * factor).floorToInt32)

/-- Neighbouring numbers as pairs; a number left over refuses them all. -/
def pairs? : List Int32 → Option (List (Int32 × Int32))
  | [] => some []
  | [_] => none
  | a :: b :: rest => (pairs? rest).map ((a, b) :: ·)

def decideBlock (e : Effect) (m : Moment) : Option Deed := do
  let block ← match e.option "op" "+" with
    | "+" => some true
    | "-" => some false
    | _ => none
  let ids ← intList? '/' (e.option "id_list" "0")
  let bounds ← intList? '/' (e.option "id_range" "0/0")
  let ranges ← pairs? bounds
  let id ← m.scene.named? e "who" "me"
  let _ ← m.scene.active? id
  return .blockBuffs id block ids ranges

def decideAddBuff (e : Effect) (ctx : Context) (m : Moment) : Option Deed := do
  let number ← e.int? "id" "0"
  let template ← ctx.catalog.buff? number
  let c ← m.scope? e
  let turn ← e.operand? c "turn" "-1"
  let value ← e.operand? c "value" "0"
  return .addBuff c.own.id (.new template turn.toInt32 value.toInt32)

/-- The numbers that an effect lists; `0` lists none. The outer absence refuses the effect. -/
def listedIds? (e : Effect) : Option (List Int32) :=
  let raw := e.option "id" "0"
  (intList? '/' raw).map fun ids => if raw == "0" then [] else ids

def listedCategories? (e : Effect) : Option (List Category) :=
  let raw := e.option "type" Options.emptyText
  if Options.isGiven raw then (Text.split '/' raw).mapM Category.ofText? else some []

def decideRemove (e : Effect) (m : Moment) : Option Deed := do
  let ids ← e.listedIds?
  guard (!ids.isEmpty || Options.isGiven (e.option "type" Options.emptyText))
  let categories ← e.listedCategories?
  let id ← m.scene.named? e "who" "me"
  let _ ← m.scene.active? id
  return .removeBuffs id categories ids

/-- The category that an effect names, if it names one; the outer absence refuses the effect. -/
def namedCategory? (e : Effect) : Option (Option Category) :=
  let raw := e.option "type" Options.emptyText
  if Options.isGiven raw then (Category.ofText? raw).map some else some none

/-- The stages that go with the markers among some buffs, with their signs turned on request. -/
def stagesOf (sheet : StatSheet) (reverse : Bool) (markers : List StageChannel) : Stages :=
  markers.foldl
    (fun t c => t.set c (if reverse then -(sheet.stage c) else sheet.stage c)) Stages.zero

def decideCopy (e : Effect) (m : Moment) : Option Deed := do
  let ids ← e.listedIds?
  guard (!ids.isEmpty || Options.isGiven (e.option "type" Options.emptyText))
  let transfer ← flag? (e.option "transfer" "false")
  let reverse ← flag? (e.option "reverse" "false")
  let category ← e.namedCategory?
  let source ← m.scene.named? e "source" "op"
  let target ← m.scene.named? e "target" "me"
  let f ← m.scene.active? source
  let _ ← m.scene.active? target
  let listed := f.board.active.filter fun b => ids.contains b.id
  let markers := listed.filterMap fun b => (markerOf? b.id).map Prod.fst
  let typed := f.board.active.filter fun b => category == some b.template.category
  return .copyBuffs source target (listed.filter fun b => (markerOf? b.id).isNone)
    (stagesOf f.sheet reverse markers) (if transfer || reverse then markers else []) typed transfer

def decideSetBuff (e : Effect) (m : Moment) : Option Deed := do
  let number ← e.int? "id" "0"
  let op ← e.operator?
  let a ← BuffAttribute.ofName? (e.option "type" "value")
  let c ← m.scope? e
  let f ← c.own.active?
  let b ← f.board.find? number
  let x ← e.operand? c "value" "0"
  return .setBuff c.own.id number a (op.apply (b.read a) x)

/-- The damage account that an effect writes: at the end of a turn always that of the buffs. -/
def damageAccount? (e : Effect) (phase : Timing) : Option TurnAttribute :=
  if phase = .turnEnd then some .buffDamage
  else
    match e.option "type" "skill" with
    | "skill" => some .skillDamage
    | "item" => some .itemDamage
    | "buff" => some .buffDamage
    | _ => none

def damageAt? (e : Effect) (id : DuelistId) (m : Moment) : Option Double := do
  let own ← m.scene.duelist? id
  let rival ← m.scene.rival? id
  e.operand? { effect := e, own, rival, moment := some m } "value" "0"

/-- The damage that an effect deals, read at the present moment or at the last turn; without a last
turn there is none. -/
def damage? (e : Effect) (id : DuelistId) (m : Moment) : Option Double :=
  if e.option "state" "current" == "last" then
    match m.last? with
    | some last => e.damageAt? id last
    | none => some 0.0
  else e.damageAt? id m

def decideSetDamage (e : Effect) (m : Moment) : Option Deed := do
  let op ← e.operator?
  let id ← e.invoker
  let damage ← e.damage? id m
  let a ← e.damageAccount? m.scene.phase
  let target ← m.scene.named? e "who" "me"
  let d ← m.scene.duelist? target
  return .setTurn target a (op.apply (d.turn.read a) damage)

def skillChoice? (e : Effect) (ctx : Context) : Option SkillChoice :=
  match Text.trim (e.option "value" "0") with
  | "-1" => some (.fixed .pass)
  | "-4" => some (.fixed .escape)
  | "random" => some .random
  | raw => (Number.int32? raw).map fun id => .fixed (ctx.catalog.skillOrPass id)

def decideSetSkill (e : Effect) (ctx : Context) (m : Moment) : Option Deed :=
  let field := e.option "type" Options.emptyText
  if field == "id" then do
    let ownCost ← flag? (e.option "set_anger" "false")
    let choice ← e.skillChoice? ctx
    let id ← m.scene.named? e "who" "me"
    let _ ← m.scene.duelist? id
    return .setSkill id choice ownCost
  else do
    let op ← e.operator?
    let c ← m.scope? e
    let a ← TurnAttribute.ofName? field
    let x ← e.operand? c "value" "0"
    return .setTurn c.own.id a (op.apply (c.own.turn.read a) x)

def decideSetPet (e : Effect) (m : Moment) : Option Deed := do
  let op ← e.operator?
  let a ← FighterAttribute.ofName? (e.option "type" Options.emptyText)
  let c ← m.scope? e
  let f ← c.own.active?
  let old ← f.read? a
  let x ← e.operand? c "value" "0"
  return .setPet c.own.id a (op.apply old x)

def decideWeather (e : Effect) : Option Deed := do
  let code ← e.int? "weather" "0"
  let w ← Weather.ofCode? code
  return .setWeather w

/-- The deed that an effect comes to at a moment; nothing when the effect is refused. -/
def decide? (e : Effect) (ctx : Context) (m : Moment) : Option Deed :=
  match e.ability with
  | .win => e.decideWin m
  | .escape => decideEscape m
  | .capture => e.decideCapture m
  | .switchPet => e.decideSwitch ctx m
  | .heal => e.decideHeal m
  | .rage => e.decideRage m
  | .raiseStages => e.decideRaise m
  | .addStats => e.decideAddStats m
  | .blockBuffs => e.decideBlock m
  | .addBuff => e.decideAddBuff ctx m
  | .removeBuffs => e.decideRemove m
  | .copyBuffs => e.decideCopy m
  | .setBuff => e.decideSetBuff m
  | .setDamage => e.decideSetDamage m
  | .setSkill => e.decideSetSkill ctx m
  | .setPet => e.decideSetPet m
  | .setWeather => e.decideWeather

end Effect

end PetDuel
