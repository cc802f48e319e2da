/-!
The ChaCha block function with eight rounds: a key and a block counter give sixteen words. The state
is kept as four rows of four words, so that a round is four steps on whole rows.
-/

namespace PetDuel.Random

structure Row where
  w0 : UInt32
  w1 : UInt32
  w2 : UInt32
  w3 : UInt32
  deriving DecidableEq, Repr

namespace Row

def zipWith (f : UInt32 → UInt32 → UInt32) (a b : Row) : Row :=
  ⟨f a.w0 b.w0, f a.w1 b.w1, f a.w2 b.w2, f a.w3 b.w3⟩

def map (f : UInt32 → UInt32) (a : Row) : Row :=
  ⟨f a.w0, f a.w1, f a.w2, f a.w3⟩

/-- The row with each word moved one place to the left, around the end. -/
def turn (a : Row) : Row :=
  ⟨a.w1, a.w2, a.w3, a.w0⟩

def toList (a : Row) : List UInt32 :=
  [a.w0, a.w1, a.w2, a.w3]

end Row

def rotateLeft (n : UInt32) (x : UInt32) : UInt32 :=
  (x <<< n) ||| (x >>> (32 - n))

structure Grid where
  a : Row
  b : Row
  c : Row
  d : Row
  deriving DecidableEq, Repr

namespace Grid

/-- One mixing step: a row takes in its neighbour, and a third row takes in the sum and rotates. -/
def mix (n : UInt32) (x y z : Row) : Row × Row :=
  let x := x.zipWith (· + ·) y
  (x, (z.zipWith (· ^^^ ·) x).map (rotateLeft n))

def columns (g : Grid) : Grid :=
  let (a, d) := mix 16 g.a g.b g.d
  let (c, b) := mix 12 g.c d g.b
  let (a, d) := mix 8 a b d
  let (c, b) := mix 7 c d b
  ⟨a, b, c, d⟩

def diagonals (g : Grid) : Grid :=
  let h := columns ⟨g.a, g.b.turn, g.c.turn.turn, g.d.turn.turn.turn⟩
  ⟨h.a, h.b.turn.turn.turn, h.c.turn.turn, h.d.turn⟩

def doubleRound (g : Grid) : Grid :=
  g.columns.diagonals

def add (g h : Grid) : Grid :=
  ⟨g.a.zipWith (· + ·) h.a, g.b.zipWith (· + ·) h.b, g.c.zipWith (· + ·) h.c,
    g.d.zipWith (· + ·) h.d⟩

def toList (g : Grid) : List UInt32 :=
  g.a.toList ++ g.b.toList ++ g.c.toList ++ g.d.toList

end Grid

structure Key where
  low : Row
  high : Row
  deriving DecidableEq, Repr

/-- The state that a key and a block counter start from. -/
def Key.start (key : Key) (counter : UInt64) : Grid :=
  ⟨⟨0x61707865, 0x3320646E, 0x79622D32, 0x6B206574⟩, key.low, key.high,
    ⟨counter.toUInt32, (counter >>> 32).toUInt32, 0, 0⟩⟩

/-- The words of a block: eight rounds, and the starting state added to their result. -/
def Key.block (key : Key) (counter : UInt64) : List UInt32 :=
  let g := key.start counter
  (g.doubleRound.doubleRound.doubleRound.doubleRound.add g).toList

end PetDuel.Random
