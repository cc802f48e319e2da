import PetDuel.Buff.Basic

/-!
The board of a pet: its active buffs in the order in which they came, and the numbers that are
blocked from coming. Every change of the board reports which buffs came and which left.
-/

namespace PetDuel

/-- The buffs that came and the buffs that left during one change. -/
structure BuffChange where
  added : List Buff := []
  removed : List Buff := []
  deriving DecidableEq, Repr, Inhabited

namespace BuffChange

def none : BuffChange := {}

def isEmpty (c : BuffChange) : Bool := c.added.isEmpty && c.removed.isEmpty

def append (c d : BuffChange) : BuffChange := ⟨c.added ++ d.added, c.removed ++ d.removed⟩

instance : Append BuffChange := ⟨append⟩

end BuffChange

structure BuffBoard where
  active : List Buff
  /-- Blocked numbers, ascending and without repetition. -/
  blockedIds : List Int32
  /-- Blocked inclusive ranges, in the order in which they were blocked. -/
  blockedRanges : List (Int32 × Int32)
  deriving DecidableEq, Repr, Inhabited

namespace BuffBoard

def empty : BuffBoard := ⟨[], [], []⟩

def find? (board : BuffBoard) (id : Int32) : Option Buff := board.active.find? fun b => b.id == id

def contains (board : BuffBoard) (id : Int32) : Bool := board.active.any fun b => b.id == id

def isBlocked (board : BuffBoard) (id : Int32) : Bool :=
  board.blockedIds.contains id ||
    board.blockedRanges.any fun r => decide (r.1 ≤ id) && decide (id ≤ r.2)

/-- The first buff with a number put through a change. If it is spent then, it leaves at once. The
result is the list afterwards with the buffs that left. -/
def changeFirst (id : Int32) (f : Buff → Buff) : List Buff → Option (List Buff × List Buff)
  | [] => none
  | b :: bs =>
    if b.id = id then
      if (f b).isSpent then some (bs, [f b]) else some (f b :: bs, [])
    else (changeFirst id f bs).map fun p => (b :: p.1, p.2)

def update? (board : BuffBoard) (id : Int32) (f : Buff → Buff) : Option (BuffBoard × BuffChange) :=
  (changeFirst id f board.active).map fun p =>
    ({ board with active := p.1 }, { removed := p.2 })

def push (board : BuffBoard) (b : Buff) : BuffBoard × BuffChange :=
  ({ board with active := board.active ++ [b] }, { added := [b] })

/-- Adds a buff. A blocked number is turned away, and the policy of its template decides what
happens beside an active buff with the same number. -/
def add (board : BuffBoard) (b : Buff) : BuffBoard × BuffChange :=
  if board.isBlocked b.id then (board, .none)
  else if !board.contains b.id then board.push b
  else
    match b.template.policy with
    | .append => board.push b
    | .refuse => (board, .none)
    | p => (board.update? b.id (p.meet b)).getD (board, .none)

def each {α : Type} (step : BuffBoard → α → BuffBoard × BuffChange) :
    BuffBoard → List α → BuffBoard × BuffChange
  | board, [] => (board, .none)
  | board, x :: xs =>
    let (next, change) := step board x
    let (last, rest) := each step next xs
    (last, change ++ rest)

def addEach (board : BuffBoard) (bs : List Buff) : BuffBoard × BuffChange := each add board bs

def remove (board : BuffBoard) (b : Buff) : BuffBoard × BuffChange :=
  if board.active.contains b then
    ({ board with active := board.active.erase b }, { removed := [b] })
  else (board, .none)

def removeEach (board : BuffBoard) (bs : List Buff) : BuffBoard × BuffChange := each remove board bs

def removeWhere (board : BuffBoard) (p : Buff → Bool) : BuffBoard × BuffChange :=
  ({ board with active := board.active.filter fun b => !p b },
    { removed := board.active.filter p })

def removeId (board : BuffBoard) (id : Int32) : BuffBoard × BuffChange :=
  board.removeWhere fun b => b.id == id

def tick (board : BuffBoard) : BuffBoard × BuffChange :=
  ({ board with active := board.active.map Buff.tick }).removeWhere Buff.isExpired

def insertId (id : Int32) : List Int32 → List Int32
  | [] => [id]
  | n :: ns => if id < n then id :: n :: ns else if id = n then n :: ns else n :: insertId id ns

def block (board : BuffBoard) (ids : List Int32) : BuffBoard :=
  { board with blockedIds := ids.foldl (fun ns id => insertId id ns) board.blockedIds }

def unblock (board : BuffBoard) (ids : List Int32) : BuffBoard :=
  { board with blockedIds := board.blockedIds.filter fun n => !ids.contains n }

def ordered (r : Int32 × Int32) : Int32 × Int32 := (min r.1 r.2, max r.1 r.2)

def blockRanges (board : BuffBoard) (ranges : List (Int32 × Int32)) : BuffBoard :=
  { board with blockedRanges := board.blockedRanges ++ ranges.map ordered }

/-- Lifts the blocks of ranges; a range lifts only blocks of exactly that range. -/
def unblockRanges (board : BuffBoard) (ranges : List (Int32 × Int32)) : BuffBoard :=
  { board with
    blockedRanges := board.blockedRanges.filter fun r => !(ranges.map ordered).contains r }

/-- A buff put before the first buff whose display key is not smaller. -/
def insertShown (b : Buff) : List Buff → List Buff
  | [] => [b]
  | c :: cs =>
    if b.template.displayKey ≤ c.template.displayKey then b :: c :: cs else c :: insertShown b cs

def visible (board : BuffBoard) : List Buff :=
  (board.active.filter fun b => !b.template.hidden).foldr insertShown []

end BuffBoard

end PetDuel
