import PetDuel.Battle.Duelist

/-!
Scenes: all that can be seen of a duel at one moment. One of the two duelists is the player's own;
the rules find a duelist by its number, the player's own first.
-/

namespace PetDuel

inductive Weather
  | clear
  | sunny
  | rain
  | sandstorm
  | snow
  | mist
  deriving DecidableEq, Repr, Inhabited

namespace Weather

def all : List Weather := [clear, sunny, rain, sandstorm, snow, mist]

def code (w : Weather) : Nat := all.idxOf w

def ofCode? (n : Int32) : Option Weather := PetDuel.ofCode? all n

end Weather

/-- How a duel ended, seen from the player's own side. -/
inductive Outcome
  | undecided
  | win
  | lose
  | ownEscape
  | opposingEscape
  | captured
  deriving DecidableEq, Repr, Inhabited

namespace Outcome

def all : List Outcome := [undecided, win, lose, ownEscape, opposingEscape, captured]

def index (o : Outcome) : Nat := all.idxOf o

end Outcome

structure Scene where
  phase : Timing
  turn : UInt32
  own : Duelist
  opposing : Duelist
  /-- The number of the duelist whose action resolves. -/
  acting : DuelistId
  outcome : Outcome
  /-- The slots that the player's own duelist has sent out, in order. -/
  sentOut : List Nat
  weather : Weather
  deriving DecidableEq, Repr, Inhabited

namespace Scene

/-- The first moment of a duel: the player's own duelist acts first. -/
def opening (own opposing : Duelist) : Scene :=
  { phase := .battleStart, turn := 0, own, opposing, acting := own.id, outcome := .undecided
    sentOut := [], weather := .clear }

def isOwn (s : Scene) (id : DuelistId) : Bool := s.own.id == id

def duelist? (s : Scene) (id : DuelistId) : Option Duelist :=
  if s.own.id = id then some s.own else if s.opposing.id = id then some s.opposing else none

def rivalId? (s : Scene) (id : DuelistId) : Option DuelistId :=
  if s.own.id = id then some s.opposing.id
  else if s.opposing.id = id then some s.own.id
  else none

def rival? (s : Scene) (id : DuelistId) : Option Duelist := (s.rivalId? id).bind s.duelist?

/-- The number of the duelist on a side, seen from a duelist. -/
def onSide? (s : Scene) (id : DuelistId) : Side → Option DuelistId
  | .own => (s.duelist? id).map Duelist.id
  | .opposing => s.rivalId? id

def active? (s : Scene) (id : DuelistId) : Option Fighter := (s.duelist? id).bind Duelist.active?

def update (s : Scene) (id : DuelistId) (f : Duelist → Duelist) : Scene :=
  if s.own.id = id then { s with own := f s.own }
  else if s.opposing.id = id then { s with opposing := f s.opposing }
  else s

def setActive (s : Scene) (id : DuelistId) (f : Fighter) : Scene :=
  s.update id fun d => d.setActive f

def finish (s : Scene) (o : Outcome) : Scene :=
  { s with
    phase := .battleEnd, outcome := o
    own := { s.own with done := true }, opposing := { s.opposing with done := true } }

end Scene

end PetDuel
