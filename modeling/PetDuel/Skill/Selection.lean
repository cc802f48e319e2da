import PetDuel.Content.Catalog

/-!
The form in which a chosen skill is sent: a list of fields led by the number of the skill. A use of
an item adds the number of the item, and a switch adds the two slots and whether it was forced.
-/

namespace PetDuel

inductive SelectionError
  | empty
  /-- A field that this kind of skill needs is missing. -/
  | missingField (kind : Int32) (index : Nat)
  /-- A field cannot be read. -/
  | invalidField (index : Nat) (value : String)
  deriving DecidableEq, Repr

def SelectionError.message : SelectionError → String
  | empty => "empty skill selection"
  | missingField kind index =>
    "skill selection " ++ Number.showInt32 kind ++ " is missing field " ++ index.repr
  | invalidField index value =>
    "skill selection field " ++ index.repr ++ " is malformed: " ++ Text.quoted value

namespace Skill

def toSelection (s : Skill) : List String :=
  let number := Number.showInt32 s.id
  match SkillKind.ofCode? s.id with
  | some .item => [number, s.options.getD "item_id" "0"]
  | some .switchPet =>
    [number, s.options.getD "source_index" "0", s.options.getD "target_index" "0",
     s.options.getD "passive" "false"]
  | _ => [number]

def readField {α : Type} (read : String → Option α) (fields : List String) (kind : Int32)
    (index : Nat) : Except SelectionError α :=
  match fields[index]? with
  | none => .error (if index = 0 then .empty else .missingField kind index)
  | some value =>
    match read value with
    | some x => .ok x
    | none => .error (.invalidField index value)

def fieldInt? (value : String) : Option Int32 := Number.int32? (Text.trim value)

def fieldSlot? (value : String) : Option Nat := Number.index? (Text.trim value)

/-- The skill that a selection chooses. A number that nobody knows chooses passing, and fields
beyond the ones needed are ignored. -/
def ofSelection (fields : List String) (catalog : Catalog) : Except SelectionError Skill := do
  let kind ← readField fieldInt? fields 0 0
  match SkillKind.ofCode? kind with
  | some .pass => return pass
  | some .escape => return escape
  | some .item =>
    let id ← readField fieldInt? fields kind 1
    return useItem id (catalog.itemEffects id)
  | some .switchPet =>
    let source ← readField fieldSlot? fields kind 1
    let target ← readField fieldSlot? fields kind 2
    let passive ← readField flag? fields kind 3
    return switchPet source target passive
  | _ => return catalog.skillOrPass kind

end Skill

end PetDuel
