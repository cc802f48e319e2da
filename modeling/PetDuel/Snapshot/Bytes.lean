import PetDuel.Number.Double

/-!
The pieces of a snapshot: numbers of a fixed width with the low byte first, and lists and texts led
by their length.
-/

namespace PetDuel.Snapshot

def littleEndian : Nat → Nat → List UInt8
  | 0, _ => []
  | width + 1, n => UInt8.ofNat n :: littleEndian width (n / 256)

def flag (b : Bool) : List UInt8 := [if b then 1 else 0]

def int32 (n : Int32) : List UInt8 := littleEndian 4 n.toUInt32.toNat

def uint32 (n : UInt32) : List UInt8 := littleEndian 4 n.toNat

def uint64 (n : UInt64) : List UInt8 := littleEndian 8 n.toNat

def size (n : Nat) : List UInt8 := littleEndian 8 n

def variant (n : Nat) : List UInt8 := littleEndian 4 n

def position (n : Nat) : List UInt8 := littleEndian 16 n

def double (x : Double) : List UInt8 := uint64 x.bits

def list {α : Type} (element : α → List UInt8) (xs : List α) : List UInt8 :=
  size xs.length ++ xs.flatMap element

/-- A text: the length of its UTF-8 form, and that form. -/
def text (s : String) : List UInt8 :=
  list (fun b => [b]) s.toUTF8.data.toList

def optional {α : Type} (element : α → List UInt8) : Option α → List UInt8
  | none => flag false
  | some x => flag true ++ element x

end PetDuel.Snapshot
