import PetDuel.Content.Catalog

/-!
Rows of content: one line for each buff, skill or effect, with its columns between commas. The last
column takes the rest of the line, so that a description may hold commas.
-/

namespace PetDuel

def columns (kind : String) (line : String) (count : Nat) : Except ContentError (Array String) :=
  let cols := (Text.splitAtMost ',' (count - 1) line.toList).map String.ofList
  if cols.length < count then .error (.columnCount kind count cols.length) else .ok cols.toArray

/-- Reads a buff: number, name, category, policy, turns, options, description. -/
def BuffTemplate.ofRow (line : String) : Except ContentError BuffTemplate := do
  let cols ← columns "buff" line 7
  let col (i : Nat) : String := cols.getD i ""
  let category ← (Category.ofText? (col 2)).elim (.error (.unknownCategory (col 2))) .ok
  let policy ← (CopyPolicy.ofText? (col 3)).elim (.error (.unknownPolicy (col 3))) .ok
  let id ← readInt "id" (col 0)
  let turn ← readInt "turn" (col 4)
  BuffTemplate.new id (Text.trim (col 1)) category policy turn (Text.trim (col 5)) (col 6)

/-- Reads a skill: number, name, element, kind, power, anger, accuracy, options, description. -/
def Skill.ofRow (line : String) : Except ContentError Skill := do
  let cols ← columns "skill" line 9
  let col (i : Nat) : String := cols.getD i ""
  let code ← readInt "type" (col 3)
  let kind ← (SkillKind.ofCode? code).elim (.error (.unknownSkillKind (Text.trim (col 3)))) .ok
  let id ← readInt "id" (col 0)
  let element ← readInt "element" (col 2)
  let power ← readInt "power" (col 4)
  let anger ← readInt "anger" (col 5)
  let accuracy ← readInt "accuracy" (col 6)
  Skill.new id (Text.trim (col 1)) element kind power anger accuracy (Text.trim (col 7))
    (Text.trim (col 8))

inductive Owner
  | skill
  | buff
  deriving DecidableEq, Repr

namespace Owner

def name : Owner → String
  | skill => "skill"
  | buff => "buff"

/-- The owner that a word means; only the exact lower-case word will do. -/
def ofName? (s : String) : Option Owner := [skill, buff].find? fun o => o.name == s

end Owner

structure EffectRow where
  owner : Owner
  ownerId : Int32
  effect : Effect
  deriving DecidableEq, Repr

/-- Reads an effect: owner, number of the owner, timing, ability, options. -/
def EffectRow.ofRow (line : String) : Except ContentError EffectRow := do
  let cols ← columns "effect" line 5
  let col (i : Nat) : String := Text.trim (cols.getD i "")
  let owner ← (Owner.ofName? (col 0)).elim (.error (.unknownOwner (col 0))) .ok
  let timing ← (Timing.ofName? (col 2)).elim (.error (.unknownTiming (col 2))) .ok
  let ability ← (Ability.ofName? (col 3)).elim (.error (.unknownAbility (col 3))) .ok
  let ownerId ← readInt "owner_id" (cols.getD 1 "")
  return { owner, ownerId, effect := .new timing ability (Options.ofText (col 4)) }

end PetDuel
