import PetDuel.Content.Error
import PetDuel.Effect
import PetDuel.Stats.Sheet

/-!
Buff templates: what all buffs of one kind have in common.
-/

namespace PetDuel

inductive Category
  | normal
  | unhealthy
  | abnormal
  | turnBased
  | mark
  | feature
  | emblem
  deriving DecidableEq, Repr, Inhabited

inductive CopyPolicy
  /-- Another instance is appended. -/
  | append
  /-- The newcomer is turned away. -/
  | refuse
  /-- Turns and value are overwritten. -/
  | replace
  /-- Values are added, and the longer turn count stays. -/
  | stack
  /-- The turn count starts again, and the value stays. -/
  | refresh
  deriving DecidableEq, Repr, Inhabited

namespace Category

def all : List Category := [normal, unhealthy, abnormal, turnBased, mark, feature, emblem]

def name : Category → String
  | normal => "Normal"
  | unhealthy => "Unhealthy"
  | abnormal => "Abnormal"
  | turnBased => "TurnBased"
  | mark => "Mark"
  | feature => "Feature"
  | emblem => "Emblem"

def code (c : Category) : Nat := all.idxOf c

/-- Ailments never survive a switch of pets. -/
def isAilment : Category → Bool
  | unhealthy | abnormal => true
  | _ => false

end Category

namespace CopyPolicy

def all : List CopyPolicy := [append, refuse, replace, stack, refresh]

def name : CopyPolicy → String
  | append => "New"
  | refuse => "Block"
  | replace => "Replace"
  | stack => "Stack"
  | refresh => "Refresh"

def code (p : CopyPolicy) : Nat := all.idxOf p

end CopyPolicy

def ofCode? {α : Type} (xs : List α) (code : Int32) : Option α :=
  if code < 0 then none else xs[code.toInt.toNat]?

/-- The entry of a list that a text means, by its code or else by its name in any case. -/
def ofCodeOrName? {α : Type} (xs : List α) (name : α → String) (raw : String) : Option α :=
  let word := Text.trim raw
  match Number.int32? word with
  | some code => ofCode? xs code
  | none => xs.find? fun x => Text.sameWord (name x) word

def Category.ofText? (raw : String) : Option Category := ofCodeOrName? all name raw

def CopyPolicy.ofText? (raw : String) : Option CopyPolicy := ofCodeOrName? all name raw

structure BuffTemplate where
  id : Int32
  icon : Int32
  name : String
  category : Category
  policy : CopyPolicy
  /-- Turns that a fresh buff lasts; a negative number lasts for good. -/
  turn : Int32
  /-- Survives a switch of pets. -/
  keep : Bool
  /-- Moves on to the incoming pet at a switch. -/
  inherit : Bool
  /-- Not shown to the players. -/
  hidden : Bool
  /-- Leaves as soon as its value is zero or less. -/
  autoRemove : Bool
  minValue : Int32
  maxValue : Int32
  description : String
  options : Options
  /-- What the buff does while it is active. -/
  effects : List Effect
  deriving DecidableEq, Repr, Inhabited

namespace BuffTemplate

/-- A template from its columns. Its flags and bounds are read from the options; ailments never
survive a switch, whatever their options say. -/
def new (id : Int32) (name : String) (category : Category) (policy : CopyPolicy) (turn : Int32)
    (optionText description : String) : Except ContentError BuffTemplate := do
  let options := Options.ofText optionText
  let icon ← readIntOption options "res" id
  let keep ← if category.isAilment then .ok false else readFlagOption options "keep" true
  let inherit ← readFlagOption options "inherit" false
  let hidden ← readFlagOption options "hide" false
  let autoRemove ← readFlagOption options "auto_remove" false
  let minValue ← readIntOption options "min_val" Int32.minValue
  let maxValue ← readIntOption options "max_val" Int32.maxValue
  return {
    id, icon, name, category, policy, turn, keep, inherit, hidden, autoRemove, minValue, maxValue
    description := Text.trim description, options, effects := [] }

def withEffects (t : BuffTemplate) (effects : List Effect) : BuffTemplate := { t with effects }

def limit (t : BuffTemplate) (n : Int32) : Int32 := bounded t.minValue t.maxValue n

/-- The key by which buffs are shown: features first, then emblems, then by number. -/
def displayKey (t : BuffTemplate) : Int32 :=
  match t.category with
  | .feature => -200000 + (t.id % 100000 - 100000)
  | .emblem => -100000 + (t.id % 100000 - 100000)
  | _ => t.id

end BuffTemplate

end PetDuel
