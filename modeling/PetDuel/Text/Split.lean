import PetDuel.Text.Basic

/-!
Cutting a text at a separator, and reading names that are written like a call, `name(argument)`.
Everything is defined on the list of characters, where a proof can follow it.
-/

namespace PetDuel.Text

/-- The pieces between the separators; there is one piece more than there are separators. -/
def split (sep : Char) (s : String) : List String :=
  (s.toList.splitOn sep).map String.ofList

def cutList (sep : Char) : List Char → Option (List Char × List Char)
  | [] => none
  | c :: cs =>
    if c = sep then some ([], cs)
    else (cutList sep cs).map fun p => (c :: p.1, p.2)

def cut? (sep : Char) (s : String) : Option (String × String) :=
  (cutList sep s.toList).map fun p => (String.ofList p.1, String.ofList p.2)

/-- At most `n + 1` pieces: the last one takes the rest of the text, separators included. -/
def splitAtMost (sep : Char) : Nat → List Char → List (List Char)
  | 0, cs => [cs]
  | n + 1, cs =>
    match cutList sep cs with
    | none => [cs]
    | some (piece, rest) => piece :: splitAtMost sep n rest

def afterList? (start : List Char) (cs : List Char) : Option (List Char) :=
  match start, cs with
  | [], cs => some cs
  | _ :: _, [] => none
  | s :: ss, c :: cs => if s = c then afterList? ss cs else none

def after? (start s : String) : Option String :=
  (afterList? start.toList s.toList).map String.ofList

def beforeLast? (last : Char) (cs : List Char) : Option (List Char) :=
  match cs.reverse with
  | [] => none
  | c :: rest => if c = last then some rest.reverse else none

/-- The argument of a name written as a call of `func`: `buff(12)` calls `buff` with `12`. -/
def callArgument? (func name : String) : Option String :=
  ((afterList? (func.toList ++ ['(']) name.toList).bind (beforeLast? ')')).map String.ofList

def startsWith (start s : String) : Bool :=
  (after? start s).isSome

/-- The text before the first `)` that a dot follows, and the text after that dot. -/
def cutCallDot : List Char → Option (List Char × List Char)
  | [] => none
  | c :: cs =>
    match c, cs with
    | ')', '.' :: rest => some ([], rest)
    | _, _ => (cutCallDot cs).map fun p => (c :: p.1, p.2)

def dropReturns (cs : List Char) : List Char :=
  (cs.reverse.dropWhile fun c => c == '\r').reverse

/-- The lines of a text without their line breaks; a last empty line counts as no line. -/
def lines (s : String) : List String :=
  let pieces := s.toList.splitOn '\n'
  let pieces := if pieces.getLast? = some [] then pieces.dropLast else pieces
  pieces.map fun p => String.ofList (dropReturns p)

end PetDuel.Text
