import PetDuel.Buff.Template

/-!
Buffs: a template with a turn count, a value within the template's bounds, and options of its own.
-/

namespace PetDuel

structure Buff where
  id : Int32
  /-- Turns that are left; a negative number lasts for good. -/
  turn : Int32
  value : Int32
  /-- Options that go before those of the template. -/
  options : Options
  template : BuffTemplate
  deriving DecidableEq, Repr, Inhabited

namespace Buff

def new (template : BuffTemplate) (turn value : Int32) : Buff :=
  { id := template.id, turn, value := template.limit value, options := Options.empty, template }

def ofTemplate (template : BuffTemplate) : Buff := new template template.turn 0

def setValue (b : Buff) (n : Int32) : Buff := { b with value := b.template.limit n }

/-- Adds to the value, within the bounds. A sum beyond a word counts as the nearest word. -/
def addValue (b : Buff) (n : Int32) : Buff :=
  b.setValue (Int32.ofIntClamp (b.value.toInt + n.toInt))

/-- The value of an option: the buff's own first, then the template's. -/
def option? (b : Buff) (key : String) : Option String :=
  (b.options.get? key).or (b.template.options.get? key)

def isSpent (b : Buff) : Bool := b.template.autoRemove && decide (b.value ≤ 0)

def isExpired (b : Buff) : Bool := b.turn == 0

def tick (b : Buff) : Buff := if 0 < b.turn then { b with turn := b.turn - 1 } else b

end Buff

/-- The longer of two turn counts; a buff that lasts for good outlasts every count. -/
def longerTurn (a b : Int32) : Int32 :=
  if a < 0 || b < 0 then max (min a b) (-1) else max a b

/-- What becomes of an active buff when another with its number is added under a policy that lets
the two meet. -/
def CopyPolicy.meet (p : CopyPolicy) (incoming active : Buff) : Buff :=
  match p with
  | .replace => { active with turn := incoming.turn }.setValue incoming.value
  | .stack => { active with turn := longerTurn active.turn incoming.turn }.addValue incoming.value
  | .refresh => { active with turn := incoming.turn }
  | .append | .refuse => active

def permanentTurn : Int32 := -1

def raiseDoublerId : Int32 := 45

def lowerDoublerId : Int32 := 46

def captureGuardId : Int32 := -2

end PetDuel
