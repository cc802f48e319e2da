import PetDuel.Battle.Basic
import PetDuel.Operand.Expr

/-!
What the names of an operand mean. A name is a path that starts at one of two duelists, at the
scene, at the last turn, or at the carrier of the effect, and ends at an attribute.
-/

namespace PetDuel.Operand

structure Scope where
  effect : Effect
  /-- The duelist that `me` means. -/
  own : Duelist
  /-- The duelist that `op` means. -/
  rival : Duelist
  /-- The moment that the duelists belong to, if the operand may look at it. -/
  moment : Option Moment

/-- The attribute of an active buff that a path such as `buff(12).value` means. -/
def buffPath? (f : Fighter) (call name : String) : Option Double := do
  let argument ← Text.after? "buff(" call
  let id ← Number.int32? (Text.trim argument)
  let b ← f.board.find? id
  b.readName? name

def fighterPath? (f : Fighter) (path : String) : Option Double :=
  match Text.after? "pet." path with
  | some name => f.readName? name
  | none =>
    match Text.cutCallDot path.toList with
    | some (call, name) => buffPath? f (String.ofList call) (String.ofList name)
    | none => f.readName? path

def duelistPath? (d : Duelist) (path : String) : Option Double :=
  match Text.after? "skill." path with
  | some name => d.skill.readName? name
  | none =>
    match Text.after? "system." path with
    | some name => d.turn.readName? name
    | none =>
      if path == "cursor" then some (Double.ofNat d.team.cursor)
      else d.active?.bind fun f => fighterPath? f path

def sidedPath? (own rival : Duelist) (path : String) : Option Double :=
  match Text.after? "me." path with
  | some rest => duelistPath? own rest
  | none =>
    match Text.after? "op." path with
    | some rest => duelistPath? rival rest
    | none => duelistPath? own path

def scenePath? (s : Scene) : String → Option Double
  | "turn" => some (Double.ofUInt32 s.turn)
  | "weather" => some (Double.ofNat s.weather.code)
  | "phase" => some (Double.ofNat s.phase.code)
  | _ => none

namespace Scope

/-- The duelist that the effect acts for, when it is one of the two. -/
def invoker? (c : Scope) : Option Duelist :=
  c.effect.invoker.bind fun id => [c.own, c.rival].find? fun d => d.id == id

def carrierPath? (c : Scope) (name : String) : Option Double :=
  c.invoker?.bind fun d =>
    match c.effect.carrier with
    | .buff id => (d.active?.bind fun f => f.board.find? id).bind fun b => b.readName? name
    | .skill _ => d.skill.readName? name
    | .nothing => none

def lastPath? (c : Scope) (path : String) : Option Double := do
  let moment ← c.moment
  let last ← moment.last?
  let own ← last.scene.duelist? c.own.id
  let rival ← last.scene.duelist? c.rival.id
  sidedPath? own rival path

def resolve? (c : Scope) (path : String) : Option Double :=
  match Text.after? "last." path with
  | some rest => c.lastPath? rest
  | none =>
    match Text.after? "state." path with
    | some name => c.moment.bind fun m => scenePath? m.scene name
    | none =>
      match Text.after? "source." path with
      | some name => c.carrierPath? name
      | none => sidedPath? c.own c.rival path

/-- The value of an operand; nothing when it is malformed, names what is not there or divides by
zero. -/
def value? (c : Scope) (operand : String) : Option Double :=
  ((tokens? operand).bind ofTokens?).bind fun e => e.value? c.resolve?

end Scope

/-- The number that stands for a value that is not there: the least finite double. -/
def missingValue : Double := Double.lowest

end PetDuel.Operand
