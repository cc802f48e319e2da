import PetDuel.Random.ChaCha
import PetDuel.Number.Double

/-!
The random stream of a duelist. A stream is a seed and a position: the words are those of the ChaCha
blocks one after the other, so that a saved position gives the same draws again.
-/

namespace PetDuel.Random

/-- Words after which a stream starts again: sixteen for each value of the block counter. -/
def period : Nat := Nat.pow 2 68

instance : @NeZero Nat Zero.ofOfNat0 period := ⟨by decide⟩

/-- A seed with the number of words drawn so far. -/
structure Stream where
  seed : UInt64
  position : Fin period
  deriving DecidableEq, Repr, Inhabited

def stretch (s : UInt64) : UInt64 :=
  s * 6364136223846793005 + 11634580027462260723

def keyWord (s : UInt64) : UInt32 :=
  let x := (((s >>> 18) ^^^ s) >>> 27).toUInt32
  let r := (s >>> 59).toUInt32
  (x >>> r) ||| (x <<< ((32 - r) &&& 31))

def keyRow (s : UInt64) : Row × UInt64 :=
  let s1 := stretch s
  let s2 := stretch s1
  let s3 := stretch s2
  let s4 := stretch s3
  (⟨keyWord s1, keyWord s2, keyWord s3, keyWord s4⟩, s4)

def keyOf (seed : UInt64) : Key :=
  let (low, s) := keyRow seed
  ⟨low, (keyRow s).1⟩

namespace Stream

def ofSeed (seed : UInt64) : Stream :=
  ⟨seed, 0⟩

/-- The stream of a seed at a position; positions a whole period apart are one. -/
def atPosition (seed : UInt64) (position : Nat) : Stream :=
  ⟨seed, Fin.ofNat period position⟩

/-- The stream of a duelist, which differs from that of every other duelist with the same seed. -/
def forDuelist (seed : UInt64) (number : UInt32) : Stream :=
  ofSeed (seed ^^^ ((number.toUInt64 + 1) * 0x9E3779B97F4A7C15))

def word (r : Stream) : UInt32 :=
  ((keyOf r.seed).block (UInt64.ofNat (r.position.val / 16))).getD (r.position.val % 16) 0

def next32 (r : Stream) : UInt32 × Stream :=
  (r.word, { r with position := r.position + 1 })

def next64 (r : Stream) : UInt64 × Stream :=
  let (low, r) := r.next32
  let (high, r) := r.next32
  (low.toUInt64 ||| (high.toUInt64 <<< 32), r)

def unitOf (bits : UInt64) : Double :=
  Double.ofDyadic ⟨false, (bits >>> 12).toNat, -52⟩

/-- Draws until a double below the bound comes up. Rounding can reach the bound itself, which is
refused; a whole period without a draw that passes is never seen and would give zero. -/
def belowFrom (bound : Double) : Nat → Stream → Double × Stream
  | 0, r => (0.0, r)
  | tries + 1, r =>
    let (bits, r) := r.next64
    let x := unitOf bits * bound + 0.0
    if x < bound then (x, r) else belowFrom bound tries r

def below (r : Stream) (bound : Double) : Double × Stream :=
  belowFrom bound period r

def percent (r : Stream) : Double × Stream :=
  r.below 100.0

/-- The low halves of the product that are accepted: a whole number of them falls to each result. -/
def acceptance (n : UInt32) : UInt32 :=
  UInt32.ofNat (n.toNat * Nat.pow 2 (31 - n.toNat.log2)) - 1

/-- Draws until the low half of the product with `n` is accepted; its high half is the result. -/
def indexFrom (n : UInt32) : Nat → Stream → Nat × Stream
  | 0, r => (0, r)
  | tries + 1, r =>
    let (w, r) := r.next32
    let product := w.toNat * n.toNat
    if product % UInt32.size ≤ (acceptance n).toNat then (product / UInt32.size, r)
    else indexFrom n tries r

def index (r : Stream) (n : UInt32) : Nat × Stream :=
  indexFrom n period r

/-- Draws a number from `low` to below `high`. An empty range gives `low` and draws nothing. -/
def between (r : Stream) (low high : Int32) : Int32 × Stream :=
  if high ≤ low then (low, r)
  else
    let (i, r) := r.index (high - low).toUInt32
    (low + Int32.ofNat i, r)

def choose {α : Type} (r : Stream) (xs : List α) : Option α × Stream :=
  if xs.isEmpty then (none, r)
  else
    let (i, r) := r.index (UInt32.ofNat xs.length)
    (xs[i]?, r)

end Stream

end PetDuel.Random
