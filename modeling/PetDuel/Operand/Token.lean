import PetDuel.Number.Decimal

/-!
The tokens of an operand: numbers, names, operators and parentheses, with blanks and tabs between
them. A name may hold calls; what stands between the parentheses of a call belongs to the name.
-/

namespace PetDuel.Operand

inductive Token
  | number (x : Double)
  | name (s : String)
  | plus
  | minus
  | times
  | over
  | modulo
  | opening
  | closing
  deriving DecidableEq, Repr

def isSpace (c : Char) : Bool := c == ' ' || c == '\t'

def isNumberChar (c : Char) : Bool := c.isDigit || c == '.'

def isNameStart (c : Char) : Bool := c.isAlpha || c == '_'

def isNameChar (c : Char) : Bool := c.isAlphanum || c == '_' || c == '.'

def single? : Char → Option Token
  | '+' => some .plus
  | '-' => some .minus
  | '*' => some .times
  | '/' => some .over
  | '%' => some .modulo
  | '(' => some .opening
  | ')' => some .closing
  | _ => none

/-- The longest name at the front and what follows it. Inside a call everything up to the closing
parenthesis belongs to the name, and a call that is never closed is refused. -/
def nameRun : (inCall : Bool) → List Char → Option (List Char × List Char)
  | false, [] => some ([], [])
  | true, [] => none
  | true, c :: cs => (nameRun (c != ')') cs).map fun p => (c :: p.1, p.2)
  | false, c :: cs =>
    if isNameChar c then (nameRun false cs).map fun p => (c :: p.1, p.2)
    else if c == '(' then (nameRun true cs).map fun p => (c :: p.1, p.2)
    else some ([], c :: cs)

def numberToken? (run : List Char) : Option Token :=
  (Double.ofText? (String.ofList run)).map .number

/-- The tokens of a text whose length is at most the first argument. -/
def tokensWithin : Nat → List Char → Option (List Token)
  | _, [] => some []
  | 0, _ :: _ => none
  | n + 1, c :: cs =>
    if isSpace c then tokensWithin n cs
    else
      match single? c with
      | some t => (tokensWithin n cs).map (t :: ·)
      | none =>
        if isNumberChar c then
          (numberToken? (c :: cs.takeWhile isNumberChar)).bind fun t =>
            (tokensWithin n (cs.dropWhile isNumberChar)).map (t :: ·)
        else if isNameStart c then
          (nameRun false cs).bind fun p =>
            (tokensWithin n p.2).map (.name (String.ofList (c :: p.1)) :: ·)
        else none

/-- The tokens of a text; nothing when a part of it belongs to no token. -/
def tokens? (s : String) : Option (List Token) := tokensWithin s.toList.length s.toList

end PetDuel.Operand
