import PetDuel.Deed.Decide

/-!
Effects on a pet outside a duel. Only healing and the writing of an attribute reach such a pet.
-/

namespace PetDuel

def Effect.healOutside? (e : Effect) (p : Pet) : Option Pet :=
  (Double.ofText? (Text.trim (e.option "add" "0"))).map fun amount => p.setHp (p.hp + amount)

def Effect.plainValue? (e : Effect) (p : Pet) : Option Double :=
  let raw := e.option "value" "0"
  (p.readName? raw).or (Double.ofText? (Text.trim raw))

/-- The writing of an attribute, or the return of all spent effort. An attribute that cannot be
written stays as it is. -/
def Effect.setOutside? (e : Effect) (p : Pet) : Option Pet := do
  let op ← e.operator?
  let field := e.option "type" Options.emptyText
  if field == "evReset" then return p.resetEffort
  else
    let a ← PetAttribute.ofName? field
    let old ← p.read? a
    let x ← e.plainValue? p
    return (p.write? a (op.apply old x)).getD p

def Effect.dispatchOutside (e : Effect) (p : Pet) : Bool × Pet :=
  let changed? :=
    match e.ability with
    | .heal => e.healOutside? p
    | .setPet => e.setOutside? p
    | _ => none
  match changed? with
  | some q => (true, q)
  | none => (false, p)

end PetDuel
