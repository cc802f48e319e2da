import PetDuel.Content.Catalog
import PetDuel.Pet.Attribute

/-!
Fighters: pets that have entered a duel. A fighter adds to its pet what exists only during the
duel: health and anger in whole numbers, the statistics sheet and the board of buffs.

The stages of a fighter are shown by markers on its board. Whatever moves a stage through this
module brings its markers in line: the one that the new stage calls for is valued at the distance of
the stage from zero, or comes if the content has it and no block turns it away, and the other
leaves. The markers are the buffs numbered 1 to 10, one for the raised and one for the lowered stage
of each channel.
-/

namespace PetDuel

def markerId (c : StageChannel) (raised : Bool) : Int32 :=
  Int32.ofNat (2 * c.index.val + if raised then 1 else 2)

def markerOf? (id : Int32) : Option (StageChannel × Bool) :=
  StageChannel.all.findSome? fun c =>
    if id = markerId c true then some (c, true)
    else if id = markerId c false then some (c, false)
    else none

def isMarkerId (id : Int32) : Bool := decide (1 ≤ id) && decide (id ≤ 10)

structure Fighter where
  pet : Pet
  hp : Int32
  anger : Int32
  sheet : StatSheet
  board : BuffBoard
  deriving DecidableEq, Repr, Inhabited

namespace Fighter

def maxHp (f : Fighter) : Int32 := (f.sheet.current.get .health).toInt32

def isDead (f : Fighter) : Bool := decide (f.hp ≤ 0)

def setHp (f : Fighter) (n : Int32) : Fighter := { f with hp := bounded 0 f.maxHp n }

def setAnger (f : Fighter) (n : Int32) : Fighter := { f with anger := f.sheet.limitAnger n }

/-- A pet as it enters a duel: with the health it has and the buffs it brings along. -/
def new (pet : Pet) (rules : Rules) : Fighter :=
  let f : Fighter :=
    { pet, hp := 0, anger := 0, sheet := .new pet.normal rules
      board := (BuffBoard.empty.addEach pet.entryBuffs).1 }
  (f.setHp pet.hp.toInt32).setAnger rules.openingAnger

def onBoard (step : BuffBoard → BuffBoard × BuffChange) (f : Fighter) : Fighter × BuffChange :=
  let (board, change) := step f.board
  ({ f with board }, change)

def markerFor? (c : StageChannel) (stage : Int32) : Option Int32 :=
  if 0 < stage then some (markerId c true)
  else if stage < 0 then some (markerId c false)
  else none

def distance (stage : Int32) : Int32 := if stage < 0 then -stage else stage

def dropMarkers (c : StageChannel) (stage : Int32) (board : BuffBoard) : BuffBoard × BuffChange :=
  board.each BuffBoard.removeId <|
    [markerId c true, markerId c false].filter fun id => some id != markerFor? c stage

/-- Puts up the marker that a stage calls for, or writes its value when it is there. -/
def raiseMarker (catalog : Catalog) (c : StageChannel) (stage : Int32) (board : BuffBoard) :
    BuffBoard × BuffChange :=
  match markerFor? c stage with
  | none => (board, .none)
  | some id =>
    match board.update? id fun b => b.setValue (distance stage) with
    | some result => result
    | none =>
      match catalog.buff? id with
      | some template => board.add (.new template permanentTurn (distance stage))
      | none => (board, .none)

def syncMarker (catalog : Catalog) (c : StageChannel) (f : Fighter) : Fighter × BuffChange :=
  f.onBoard fun board =>
    let (board, dropped) := dropMarkers c (f.sheet.stage c) board
    let (board, raised) := raiseMarker catalog c (f.sheet.stage c) board
    (board, dropped ++ raised)

def syncEach (catalog : Catalog) : List StageChannel → Fighter → Fighter × BuffChange
  | [], f => (f, .none)
  | c :: cs, f =>
    let (f, change) := f.syncMarker catalog c
    let (f, rest) := syncEach catalog cs f
    (f, change ++ rest)

def syncMarkers (catalog : Catalog) (f : Fighter) : Fighter × BuffChange :=
  f.syncEach catalog StageChannel.all

/-- The changes of stage that the board lets through: a blocked marker blocks its direction. -/
def allowed (board : BuffBoard) (delta : Stages) : Stages :=
  .ofFn fun c =>
    if delta.get c ≠ 0 && board.isBlocked (markerId c (decide (0 < delta.get c))) then 0
    else delta.get c

/-- Moves the stages, and the markers of the channels whose stage changed. -/
def shiftStages (catalog : Catalog) (delta : Stages) (f : Fighter) : Fighter × BuffChange :=
  let (changed, sheet) := f.sheet.shiftStages (allowed f.board delta)
  { f with sheet }.syncEach catalog changed

def setStage (catalog : Catalog) (c : StageChannel) (n : Int32) (f : Fighter) :
    Fighter × BuffChange :=
  { f with sheet := f.sheet.setStage c n }.syncMarker catalog c

/-- Writes the stage of any channel. A channel without stages stays at zero, and so no buff may
have one of the numbers that its markers would have. -/
def setStageOf (catalog : Catalog) (c : Channel) (n : Int32) (f : Fighter) : Fighter × BuffChange :=
  match StageChannel.ofChannel? c with
  | some s => f.setStage catalog s n
  | none =>
    f.onBoard fun board =>
      board.each BuffBoard.removeId
        [Int32.ofNat (2 * c.index.val + 1), Int32.ofNat (2 * c.index.val + 2)]

end Fighter

end PetDuel
