import PetDuel.Operand.Token
import PetDuel.Number.Double

/-!
Operands as expressions. The grammar has sums of terms, terms of factors, and factors that are
numbers, names, negations or expressions in parentheses; sums and terms group to the left.
-/

namespace PetDuel.Operand

inductive BinaryOp
  | add
  | sub
  | mul
  | div
  | rem
  deriving DecidableEq, Repr

inductive Expr
  | number (x : Double)
  | name (s : String)
  | neg (e : Expr)
  | binary (op : BinaryOp) (l r : Expr)
  deriving DecidableEq, Repr, Inhabited

def sumOp? : Token → Option BinaryOp
  | .plus => some .add
  | .minus => some .sub
  | _ => none

def termOp? : Token → Option BinaryOp
  | .times => some .mul
  | .over => some .div
  | .modulo => some .rem
  | _ => none

mutual

/-- Reads a sum. The first argument bounds the depth of the reading. -/
def readSum : Nat → List Token → Option (Expr × List Token)
  | 0, _ => none
  | n + 1, ts => (readTerm n ts).bind fun p => readSumRest n p.1 p.2

def readSumRest : Nat → Expr → List Token → Option (Expr × List Token)
  | 0, _, _ => none
  | _ + 1, e, [] => some (e, [])
  | n + 1, e, t :: ts =>
    match sumOp? t with
    | none => some (e, t :: ts)
    | some op => (readTerm n ts).bind fun p => readSumRest n (.binary op e p.1) p.2

def readTerm : Nat → List Token → Option (Expr × List Token)
  | 0, _ => none
  | n + 1, ts => (readFactor n ts).bind fun p => readTermRest n p.1 p.2

def readTermRest : Nat → Expr → List Token → Option (Expr × List Token)
  | 0, _, _ => none
  | _ + 1, e, [] => some (e, [])
  | n + 1, e, t :: ts =>
    match termOp? t with
    | none => some (e, t :: ts)
    | some op => (readFactor n ts).bind fun p => readTermRest n (.binary op e p.1) p.2

def readFactor : Nat → List Token → Option (Expr × List Token)
  | 0, _ => none
  | _ + 1, [] => none
  | n + 1, t :: ts =>
    match t with
    | .minus => (readFactor n ts).map fun p => (.neg p.1, p.2)
    | .number x => some (.number x, ts)
    | .name s => some (.name s, ts)
    | .opening =>
      match readSum n ts with
      | some (e, .closing :: rest) => some (e, rest)
      | _ => none
    | _ => none

end

/-- A depth that is enough for a list of tokens: each token opens at most three levels. -/
def enoughDepth (ts : List Token) : Nat := 3 * ts.length + 3

/-- The operand that a list of tokens writes; nothing when the list is not one whole operand. -/
def ofTokens? (ts : List Token) : Option Expr :=
  match readSum (enoughDepth ts) ts with
  | some (e, []) => some e
  | _ => none

/-- The result of an operator. Nothing is divided by zero. -/
def BinaryOp.apply? (op : BinaryOp) (x y : Double) : Option Double :=
  match op with
  | .add => some (x + y)
  | .sub => some (x - y)
  | .mul => some (x * y)
  | .div => if y == 0.0 then none else some (x / y)
  | .rem => if y == 0.0 then none else some (Double.remainder x y)

def Expr.value? (resolve : String → Option Double) : Expr → Option Double
  | .number x => some x
  | .name s => resolve s
  | .neg e => (e.value? resolve).map fun x => -x
  | .binary op l r =>
    (l.value? resolve).bind fun x => (r.value? resolve).bind fun y => op.apply? x y

end PetDuel.Operand
