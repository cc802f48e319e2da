import PetDuel.Text.Split
import PetDuel.Number.Decimal
import PetDuel.Number.Integer

/-!
Options: the `key=value&key=value` column that every piece of content carries. The order of the
pairs is kept, so that a column written back out looks like the one read in. Like all lists whose
entries are found by a key, the pairs have each key at most once.
-/

namespace PetDuel

namespace Keyed

variable {κ α : Type} [DecidableEq κ]

/-- An entry put in the place of the one with its key, or at the end when there is none. -/
def put (key : α → κ) (x : α) : List α → List α
  | [] => [x]
  | y :: ys => if key y = key x then x :: ys else y :: put key x ys

def find? (key : α → κ) (k : κ) (xs : List α) : Option α :=
  xs.find? fun x => key x == k

end Keyed

structure Options where
  entries : List (String × String) := []
  deriving DecidableEq, Repr, Inhabited

namespace Options

def empty : Options := ⟨[]⟩

def get? (o : Options) (key : String) : Option String :=
  (Keyed.find? Prod.fst key o.entries).map Prod.snd

def getD (o : Options) (key default : String) : String :=
  (o.get? key).getD default

def contains (o : Options) (key : String) : Bool :=
  (o.get? key).isSome

/-- Gives a key a value. A key that is present keeps its place. -/
def set (o : Options) (key value : String) : Options :=
  ⟨Keyed.put Prod.fst (key, value) o.entries⟩

def erase (o : Options) (key : String) : Options :=
  ⟨o.entries.eraseP fun e => e.1 == key⟩

/-- Pairs taken in order; a repeated key keeps its first place and its last value. -/
def ofList (pairs : List (String × String)) : Options :=
  pairs.foldl (fun o e => o.set e.1 e.2) empty

def emptyText : String := "none"

/-- Whether an option value asks for something: every value but the word for no options. -/
def isGiven (value : String) : Bool :=
  value != emptyText

/-- Adds the pair that one piece of a column writes; a piece without `=` or with a blank key adds
nothing. -/
def addPiece (o : Options) (piece : String) : Options :=
  match Text.cut? '=' piece with
  | none => o
  | some (key, value) =>
    if Text.trim key == "" then o else o.set (Text.trim key) (Text.trim value)

def ofText (raw : String) : Options :=
  let body := Text.trim raw
  if body == "" || body == emptyText then empty
  else (Text.split '&' body).foldl addPiece empty

def toText (o : Options) : String :=
  if o.entries.isEmpty then emptyText
  else "&".intercalate (o.entries.map fun e => e.1 ++ "=" ++ e.2)

end Options

def flag? (raw : String) : Option Bool :=
  let word := Text.lowered (Text.trimList raw.toList)
  if word == "true".toList then some true
  else if word == "false".toList then some false
  else none

/-- A list of values with a separator between them. Blank text is the empty list, and one value that
cannot be read spoils the list. -/
def listOf? {α : Type} (read : String → Option α) (sep : Char) (raw : String) : Option (List α) :=
  if Text.isBlankText raw then some []
  else (Text.split sep raw).mapM fun piece => read (Text.trim piece)

def intList? (sep : Char) (raw : String) : Option (List Int32) :=
  listOf? Number.int32? sep raw

def doubleList? (sep : Char) (raw : String) : Option (List Double) :=
  listOf? Double.ofText? sep raw

end PetDuel
