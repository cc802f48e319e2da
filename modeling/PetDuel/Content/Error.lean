import PetDuel.Options
import PetDuel.Text.Printable

/-!
What can be wrong with a row of content.
-/

namespace PetDuel

inductive ContentError
  | columnCount (kind : String) (expected found : Nat)
  /-- A column or an option is not a number. -/
  | invalidNumber (column value : String)
  /-- An option is neither true nor false. -/
  | invalidFlag (key value : String)
  | unknownCategory (value : String)
  | unknownPolicy (value : String)
  | unknownSkillKind (value : String)
  | unknownTiming (value : String)
  | unknownAbility (value : String)
  /-- An effect belongs to a skill or to a buff, and to nothing else. -/
  | unknownOwner (value : String)
  deriving DecidableEq, Repr

namespace ContentError

def message : ContentError → String
  | columnCount kind expected found =>
    kind ++ " row has " ++ found.repr ++ " columns, expected at least " ++ expected.repr
  | invalidNumber column value => "column `" ++ column ++ "` is not a number: " ++ Text.quoted value
  | invalidFlag key value => "option `" ++ key ++ "` is not a boolean: " ++ Text.quoted value
  | unknownCategory value => "unknown buff type " ++ Text.quoted value
  | unknownPolicy value => "unknown copy policy " ++ Text.quoted value
  | unknownSkillKind value => "unknown skill type " ++ Text.quoted value
  | unknownTiming value => "unknown effect timing " ++ Text.quoted value
  | unknownAbility value => "unknown ability " ++ Text.quoted value
  | unknownOwner value => "unknown effect owner " ++ Text.quoted value

end ContentError

/-- A whole number in a column or an option, blanks around it allowed. -/
def readInt (column value : String) : Except ContentError Int32 :=
  match Number.int32? (Text.trim value) with
  | some n => .ok n
  | none => .error (.invalidNumber column value)

def readDouble (column value : String) : Except ContentError Double :=
  match Double.ofText? (Text.trim value) with
  | some x => .ok x
  | none => .error (.invalidNumber column value)

def readFlag (key value : String) : Except ContentError Bool :=
  match flag? value with
  | some b => .ok b
  | none => .error (.invalidFlag key value)

def readIntOption (o : Options) (key : String) (default : Int32) : Except ContentError Int32 :=
  match o.get? key with
  | some value => readInt key value
  | none => .ok default

def readFlagOption (o : Options) (key : String) (default : Bool) : Except ContentError Bool :=
  match o.get? key with
  | some value => readFlag key value
  | none => .ok default

end PetDuel
