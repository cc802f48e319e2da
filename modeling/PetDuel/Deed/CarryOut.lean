import PetDuel.Deed.Decide
import PetDuel.Random.Weighted

/-!
Carrying out a deed. When buffs come to a fighter or leave it, the change is answered at once: the
answer is a parameter here, because it carries out further deeds.
-/

namespace PetDuel

abbrev Answer := DuelistId → BuffChange → Battle → Battle

namespace Battle

def update (b : Battle) (id : DuelistId) (f : Duelist → Duelist) : Battle :=
  b.onScene fun s => s.update id f

def updateActive (b : Battle) (id : DuelistId) (f : Fighter → Fighter) : Battle :=
  b.update id fun d => match d.active? with
    | some x => d.setActive (f x)
    | none => d

/-- A change of the fighter that is out for a duelist, and the answer to the change of its buffs.
Without a fighter nothing happens. -/
def changeActive (answer : Answer) (id : DuelistId) (f : Fighter → Fighter × BuffChange)
    (b : Battle) : Bool × Battle :=
  match b.scene.active? id with
  | none => (false, b)
  | some x => (true, answer id (f x).2 (b.onScene fun s => s.setActive id (f x).1))

def changeBoard (answer : Answer) (id : DuelistId) (step : BuffBoard → BuffBoard × BuffChange)
    (b : Battle) : Bool × Battle :=
  b.changeActive answer id (Fighter.onBoard step)

def changeForEach {α : Type} (answer : Answer) (id : DuelistId)
    (step : α → Fighter → Fighter × BuffChange) (xs : List α) (b : Battle) : Battle :=
  xs.foldl (fun b x => (b.changeActive answer id (step x)).2) b

end Battle

namespace Deed

def tryCapture (id : DuelistId) (chance : Double) (b : Battle) : Bool × Battle :=
  match b.scene.duelist? id with
  | none => (false, b)
  | some d =>
    let (roll, d) := d.roll
    let success := decide (roll ≤ chance)
    let skill := { d.skill with options := d.skill.options.set "capture_result" (showFlag success) }
    let b := b.update id fun _ => { d with turn := { d.turn with skill } }
    (true, if success then b.onScene fun s => s.finish .captured else b)

def comeOut (target : Nat) (carried : Int32) (d : Duelist) : Duelist :=
  let d := { d with team := { d.team with cursor := target } }
  match d.active? with
  | some f => d.setActive (f.setAnger carried)
  | none => d

/-- A switch of fighters. Inherited buffs leave the outgoing fighter, as does every buff that does
not survive a switch; unless the outgoing fighter can fight no more, the inherited ones join the
incoming fighter. -/
def switchFighter (answer : Answer) (id : DuelistId) (target : Nat) (carried : Int32)
    (inherited : List Buff) (fainted : Bool) (b : Battle) : Bool × Battle :=
  let b := (b.changeBoard answer id fun board => board.removeEach inherited).2
  let b := (b.changeBoard answer id fun board => board.removeWhere fun x => !x.template.keep).2
  match b.scene.duelist? id with
  | none => (false, b)
  | some _ =>
    let b := b.update id (comeOut target carried)
    let b :=
      if fainted then b
      else (b.changeBoard answer id fun board => board.addEach inherited).2
    (true, if b.scene.isOwn id then b.onScene fun s => { s with sentOut := s.sentOut ++ [target] }
      else b)

def credit (account : Option HealAccount) (amount : Int32) (t : TurnRecord) : TurnRecord :=
  match account with
  | some .skill => { t with skillHeal := t.skillHeal + amount }
  | some .item => { t with itemHeal := t.itemHeal + amount }
  | some .buff => { t with buffHeal := t.buffHeal + amount }
  | none => t

/-- A healing. What buffs heal is credited and not gained. -/
def healFighter (id : DuelistId) (h : Healing) (b : Battle) : Battle :=
  match h with
  | .set hp => b.updateActive id fun f => f.setHp hp
  | .gain account amount =>
    let gained := if account = some .buff then 0 else amount
    (b.update id fun d => { d with turn := credit account amount d.turn }).updateActive id
      fun f => f.setHp (f.hp + gained)

def enrage (low high : Option Int32) (gain : Int32) (f : Fighter) : Fighter :=
  let sheet := { f.sheet with
    minAnger := low.getD f.sheet.minAnger, maxAnger := high.getD f.sheet.maxAnger }
  { f with sheet }.setAnger (f.anger + gain)

def wantedChannels (wanted : Stages) : List StageChannel :=
  StageChannel.all.filter fun c => wanted.get c ≠ 0

def onlyAt (wanted : Stages) (channels : List StageChannel) (i : Nat) : Stages :=
  .ofFn fun c => if channels[i]? = some c then wanted.get c else 0

/-- The stages that move, drawn from the stream where the pick asks for it. When nothing is wanted
nothing is drawn, and weights that cannot be drawn from pick the first channel. -/
def picked (wanted : Stages) (pick : Pick) (r : Random.Stream) : Stages × Random.Stream :=
  let channels := wantedChannels wanted
  if channels.isEmpty then (wanted, r)
  else
    match pick with
    | .every => (wanted, r)
    | .evenly =>
      let (i, r) := r.index (UInt32.ofNat channels.length)
      (onlyAt wanted channels i, r)
    | .byWeight weights =>
      let (i, r) := r.weighted weights
      (onlyAt wanted channels (i.getD 0), r)

def twice (n : Int32) : Int32 := Int32.ofIntClamp (2 * n.toInt)

def doubled (board : BuffBoard) (delta : Stages) : Stages :=
  delta.map fun n =>
    if (decide (0 < n) && board.contains raiseDoublerId) ||
        (decide (n < 0) && board.contains lowerDoublerId) then twice n
    else n

def moveStages (answer : Answer) (ctx : Context) (id : DuelistId) (wanted : Stages) (pick : Pick)
    (b : Battle) : Bool × Battle :=
  match b.scene.duelist? id with
  | none => (false, b)
  | some d =>
    let (delta, stream) := picked wanted pick d.stream
    (b.update id fun d => { d with stream }).changeActive answer id fun f =>
      f.shiftStages ctx.catalog (doubled f.board delta)

def blockOn (block : Bool) (ids : List Int32) (ranges : List (Int32 × Int32)) (f : Fighter) :
    Fighter :=
  if block then { f with board := (f.board.block ids).blockRanges ranges }
  else { f with board := (f.board.unblock ids).unblockRanges ranges }

/-- Whether the removal of turn-based buffs sweeps a mark away: a mark with a positive number that
counts turns. -/
def isSweptMark (b : Buff) : Bool :=
  decide (0 < b.id) && b.template.category == .mark && decide (0 < b.turn)

def removeCategory (answer : Answer) (id : DuelistId) (b : Battle) (category : Category) : Battle :=
  let b := (b.changeBoard answer id fun board =>
    board.removeWhere fun x => x.template.category == category).2
  if category = .turnBased then
    (b.changeBoard answer id fun board => board.removeWhere isSweptMark).2
  else b

def resetStages (ctx : Context) : List StageChannel → Fighter → Fighter × BuffChange
  | [], f => (f, .none)
  | c :: cs, f =>
    let (f, change) := f.setStage ctx.catalog c 0
    let (f, rest) := resetStages ctx cs f
    (f, change ++ rest)

def markedChannels (ids : List Int32) : List StageChannel :=
  ids.filterMap fun id => (markerOf? id).map Prod.fst

/-- The removal of listed numbers; a listed marker takes the stage of its channel along. -/
def removeListed (ctx : Context) (ids : List Int32) (f : Fighter) : Fighter × BuffChange :=
  let (f, removed) := f.onBoard fun board => board.removeWhere fun x => ids.contains x.id
  let (f, synced) := resetStages ctx (markedChannels ids) f
  (f, removed ++ synced)

def removeFrom (answer : Answer) (ctx : Context) (id : DuelistId) (categories : List Category)
    (ids : List Int32) (b : Battle) : Battle :=
  let b := categories.foldl (removeCategory answer id) b
  if ids.isEmpty then b else (b.changeActive answer id (removeListed ctx ids)).2

/-- The copying of buffs and stages: listed buffs, stages, the drain of the source, buffs of a
category, and at last the removal of what was copied, when it is a transfer. -/
def copyBetween (answer : Answer) (ctx : Context) (source target : DuelistId) (listed : List Buff)
    (stages : Stages) (drained : List StageChannel) (typed : List Buff) (transfer : Bool)
    (b : Battle) : Battle :=
  let put (x : Buff) : Fighter → Fighter × BuffChange := Fighter.onBoard fun board => board.add x
  let b := b.changeForEach answer target put listed
  let b := (b.changeActive answer target fun f => f.shiftStages ctx.catalog stages).2
  let b := b.changeForEach answer source (fun c f => f.setStage ctx.catalog c 0) drained
  let b := b.changeForEach answer target put typed
  if transfer then
    (b.changeBoard answer source fun board =>
      let (board, first) := board.removeEach listed
      let (board, second) := board.removeEach typed
      (board, first ++ second)).2
  else b

/-- The writing of an attribute of a buff; the buff leaves if it is spent then, even when the
attribute cannot be written. -/
def writeBuff (buff : Int32) (a : BuffAttribute) (x : Double) (board : BuffBoard) :
    BuffBoard × BuffChange :=
  (board.update? buff fun b => (b.write? a x).getD b).getD (board, .none)

def useSkill (ctx : Context) (choice : SkillChoice) (ownCost : Bool) (d : Duelist) : Duelist :=
  let (skill, stream) : Skill × Random.Stream :=
    match choice with
    | .fixed s => (s, d.stream)
    | .random =>
      let (s, r) := ctx.catalog.randomSkill d.stream
      (s.getD .pass, r)
  let skill := if ownCost then skill else { skill with anger := d.skill.anger }
  { d with turn := { d.turn with skill }, stream }

def writeFighter (ctx : Context) (a : FighterAttribute) (x : Double) (f : Fighter) :
    Fighter × BuffChange :=
  let f := (f.write? a x).getD f
  match a with
  | .stage _ => f.syncMarkers ctx.catalog
  | _ => (f, .none)

/-- Carries out a deed. The result says whether there was someone to carry it out on. -/
def carryOut (answer : Answer) (ctx : Context) (deed : Deed) (b : Battle) : Bool × Battle :=
  match deed with
  | .finish o => (true, b.onScene fun s => s.finish o)
  | .capture id chance => tryCapture id chance b
  | .switchPet id target carried inherited fainted =>
    switchFighter answer id target carried inherited fainted b
  | .heal id h => (true, healFighter id h b)
  | .rage id low high gain => (true, b.updateActive id (enrage low high gain))
  | .raiseStages id wanted pick => moveStages answer ctx id wanted pick b
  | .addStats id c amount =>
    (true, b.updateActive id fun f => { f with sheet := f.sheet.addTo c (Double.ofInt32 amount) })
  | .blockBuffs id block ids ranges => (true, b.updateActive id (blockOn block ids ranges))
  | .addBuff id x => b.changeBoard answer id fun board => board.add x
  | .removeBuffs id categories ids => (true, removeFrom answer ctx id categories ids b)
  | .copyBuffs source target listed stages drained typed transfer =>
    (true, copyBetween answer ctx source target listed stages drained typed transfer b)
  | .setBuff id buff a x => b.changeBoard answer id (writeBuff buff a x)
  | .setTurn id a x =>
    (true, b.update id fun d => { d with turn := (d.turn.write? a x).getD d.turn })
  | .setSkill id choice ownCost => (true, b.update id (useSkill ctx choice ownCost))
  | .setPet id a x => b.changeActive answer id (writeFighter ctx a x)
  | .setWeather w => (true, b.onScene fun s => { s with weather := w })

end Deed

end PetDuel
