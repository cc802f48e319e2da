import PetDuel.Content.Error
import PetDuel.Effect

/-!
Skills: the moves of a pet, and the actions that a duelist can take instead of a move. The actions
have negative numbers, which are also the codes of their kinds.
-/

namespace PetDuel

inductive SkillKind
  | pass
  | item
  | switchPet
  | escape
  | property
  | physical
  | special
  | super
  deriving DecidableEq, Repr, Inhabited

namespace SkillKind

def all : List SkillKind := [pass, item, switchPet, escape, property, physical, special, super]

/-- The code of a kind; the codes of the actions are negative. -/
def code : SkillKind → Int32
  | pass => -1
  | item => -2
  | switchPet => -3
  | escape => -4
  | property => 0
  | physical => 1
  | special => 2
  | super => 100

def ofCode? (n : Int32) : Option SkillKind := all.find? fun k => k.code == n

def index (k : SkillKind) : Nat := all.idxOf k

end SkillKind

structure Skill where
  id : Int32
  name : String
  element : Int32
  kind : SkillKind
  power : Int32
  /-- The anger that the skill costs. -/
  anger : Int32
  accuracy : Int32
  options : Options
  description : String
  effects : List Effect
  critical : Double
  priority : Int32
  combo : Int32
  secondSuper : Bool
  ignoreShield : Bool
  ignoreStages : Bool
  /-- The buffs that the description refers to. -/
  buffRefs : List String
  deriving DecidableEq, Repr, Inhabited

def showFlag (b : Bool) : String := if b then "true" else "false"

def Effect.escape : Effect := .new .attack .escape .empty

/-- What the switch action does. A forced switch waits for the end of the turn. -/
def Effect.switchPet (source target : Nat) (passive : Bool) : Effect :=
  .new (if passive then .turnEnd else .beforeAttack) .switchPet
    (.ofList [("source_index", source.repr), ("target_index", target.repr),
      ("passive", showFlag passive)])

namespace Skill

/-- A skill from its columns. The fields that have no column of their own are read from the
options. -/
def new (id : Int32) (name : String) (element : Int32) (kind : SkillKind)
    (power anger accuracy : Int32) (optionText description : String) :
    Except ContentError Skill := do
  let options := Options.ofText optionText
  let critical ← readDouble "critical" (options.getD "critical" "5")
  let priority ← readIntOption options "priority" 0
  let secondSuper ← readFlagOption options "second_super" false
  let ignoreShield ← readFlagOption options "ignore_shield" false
  let ignoreStages ← readFlagOption options "ignore_powerup" false
  let buffRefs := ((options.get? "ref_buff").map (Text.split '/')).getD []
  return {
    id, name, element, kind, power, anger, accuracy, options, description, effects := []
    critical, priority, combo := 1, secondSuper, ignoreShield, ignoreStages, buffRefs }

def withEffects (s : Skill) (effects : List Effect) : Skill :=
  { s with effects := effects.map fun e => e.carriedBy (.skill s.id) }

def action (kind : SkillKind) (name : String) : Skill :=
  { id := kind.code, name, element := 0, kind, power := 0, anger := 0, accuracy := 100
    options := .empty, description := "", effects := [], critical := Double.ofInt 5, priority := 0
    combo := 1, secondSuper := false, ignoreShield := false, ignoreStages := false, buffRefs := [] }

/-- Doing nothing; also what stands for a skill that nobody knows. -/
def pass : Skill := action .pass "No-op"

def escape : Skill := (action .escape "Escape").withEffects [.escape]

def switchPet (source target : Nat) (passive : Bool) : Skill :=
  { action .switchPet "Pet change" with
    options := .ofList [("source_index", source.repr), ("target_index", target.repr),
      ("passive", showFlag passive)] }.withEffects [.switchPet source target passive]

def useItem (id : Int32) (effects : List Effect) : Skill :=
  { action .item "Item" with
    options := .ofList [("item_id", Number.showInt32 id)] }.withEffects effects

def isSuper (s : Skill) : Bool := s.kind == .super

def isAction (s : Skill) : Bool := decide (s.kind.code < 0)

def isAttack (s : Skill) : Bool := s.kind == .physical || s.kind == .special || s.kind == .super

def isCapture (s : Skill) : Bool := s.effects.any fun e => e.ability == .capture

def captureResult? (s : Skill) : Option Bool :=
  (s.options.get? "capture_result").map fun v => v == "true"

/-- The options of a row: the fields that have no column of their own, where they are not what an
absent option means. -/
def rowOptions (s : Skill) : Options :=
  .ofList <|
    (if s.critical != 5.0 then [("critical", s.critical.toText)] else []) ++
    (if s.priority ≠ 0 then [("priority", Number.showInt32 s.priority)] else []) ++
    (if s.secondSuper then [("second_super", "true")] else []) ++
    (if s.ignoreShield then [("ignore_shield", "true")] else []) ++
    (if s.ignoreStages then [("ignore_powerup", "true")] else []) ++
    (if s.buffRefs.isEmpty then [] else [("ref_buff", "/".intercalate s.buffRefs)])

def toColumns (s : Skill) : List String :=
  [Number.showInt32 s.id, s.name, Number.showInt32 s.element, Number.showInt32 s.kind.code,
   Number.showInt32 s.power, Number.showInt32 s.anger, Number.showInt32 s.accuracy,
   s.rowOptions.toText, s.description]

end Skill

end PetDuel
