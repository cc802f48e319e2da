import PetDuel.Stats.Stage

/-!
The sheet of a pet in a duel: its statistics at entry, what effects have added to them since, its
stages, and the bounds of its anger. The tunable rules of a duel say with which bounds it enters.
-/

namespace PetDuel

/-- The constants that every resolution of an effect reads. -/
structure Rules where
  /-- Stages lie between minus this and this. -/
  stageLimit : Int32 := 6
  /-- The lower anger bound of a pet that enters. -/
  minAnger : Int32 := 0
  /-- The upper anger bound of a pet that enters. -/
  maxAnger : Int32 := 100
  /-- The anger of a pet that enters. -/
  openingAnger : Int32 := 15
  /-- The part of its anger that an outgoing pet hands on. -/
  angerCarry : Double := 0.8
  /-- How deep the effects of entering and leaving buffs may nest. -/
  hookLimit : UInt32 := 8
  deriving Repr, Inhabited

/-- A number moved into the interval from `lo` to `hi`; with crossed bounds the lower one holds. The
bounds of a stage cross when its limit is negative: no duel goes on from there, since moving a stage
aborts it, while here the stage goes to the lower bound. -/
def bounded (lo hi n : Int32) : Int32 :=
  if n < lo then lo else if max hi lo < n then max hi lo else n

structure StatSheet where
  entry : Stats
  /-- What effects have added for good. -/
  added : Stats
  stages : Stages
  /-- How far a stage may be from zero. -/
  stageLimit : Int32
  minAnger : Int32
  maxAnger : Int32
  deriving DecidableEq, Repr, Inhabited

namespace StatSheet

def new (entry : Stats) (rules : Rules) : StatSheet :=
  { entry, added := Stats.zero, stages := Stages.zero, stageLimit := rules.stageLimit
    minAnger := rules.minAnger, maxAnger := rules.maxAnger }

def stage (s : StatSheet) (c : StageChannel) : Int32 := s.stages.get c

/-- The statistics in force: entry and additions, the stage channels times the factors of their
stages. -/
def current (s : StatSheet) : Stats :=
  StageChannel.all.foldl
    (fun t c => t.set c.channel (t.get c.channel * stageFactor (s.stage c))) (s.entry + s.added)

def addTo (s : StatSheet) (c : Channel) (amount : Double) : StatSheet :=
  { s with added := s.added.set c (s.added.get c + amount) }

def limitStage (s : StatSheet) (n : Int32) : Int32 := bounded (-s.stageLimit) s.stageLimit n

def shiftStage (s : StatSheet) (c : StageChannel) (step : Int32) : StatSheet :=
  { s with stages := s.stages.set c (s.limitStage (s.stage c + step)) }

/-- Moves the stages of the given channels; the channels whose stage changed are listed in order. -/
def shiftEach (delta : Stages) :
    List StageChannel → StatSheet → List StageChannel × StatSheet
  | [], s => ([], s)
  | c :: cs, s =>
    let t := if delta.get c = 0 then s else s.shiftStage c (delta.get c)
    let (changed, u) := shiftEach delta cs t
    (if t.stage c = s.stage c then changed else c :: changed, u)

def shiftStages (s : StatSheet) (delta : Stages) : List StageChannel × StatSheet :=
  shiftEach delta StageChannel.all s

def setStage (s : StatSheet) (c : StageChannel) (n : Int32) : StatSheet :=
  { s with stages := s.stages.set c (s.limitStage n) }

def setStageOf (s : StatSheet) (c : Channel) (n : Int32) : StatSheet :=
  match StageChannel.ofChannel? c with
  | some c => s.setStage c n
  | none => s

def limitAnger (s : StatSheet) (n : Int32) : Int32 := bounded s.minAnger s.maxAnger n

end StatSheet

end PetDuel
