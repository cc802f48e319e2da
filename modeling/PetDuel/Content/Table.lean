import PetDuel.Content.Row

/-!
Tables of content: rows one below the other. Blank lines and lines that start with `#` say nothing,
and a row that cannot be read is left out without harm to the others.
-/

namespace PetDuel

def isContentLine (line : String) : Bool :=
  match (Text.trim line).toList with
  | [] => false
  | c :: _ => c != '#'

def readTable {α : Type} (read : String → Except ContentError α) (text : String) : List α :=
  ((Text.lines text).filter isContentLine).filterMap fun line => (read line).toOption

def changeWhere {α : Type} (p : α → Bool) (f : α → α) : List α → List α
  | [] => []
  | x :: xs => if p x then f x :: xs else x :: changeWhere p f xs

/-- Gives an effect to the first entry that it belongs to; one that belongs to none is left out. -/
def attach (tables : List BuffTemplate × List Skill) (row : EffectRow) :
    List BuffTemplate × List Skill :=
  match row.owner with
  | .buff =>
    (changeWhere (fun t => t.id == row.ownerId)
      (fun t => t.withEffects (t.effects ++ [row.effect])) tables.1, tables.2)
  | .skill =>
    (tables.1, changeWhere (fun s => s.id == row.ownerId)
      (fun s => s.withEffects (s.effects ++ [row.effect])) tables.2)

def Catalog.ofTables (buffs skills effects : String) : Catalog :=
  let tables := (readTable EffectRow.ofRow effects).foldl attach
    (readTable BuffTemplate.ofRow buffs, readTable Skill.ofRow skills)
  let catalog := tables.1.foldl Catalog.insertBuff .empty
  tables.2.foldl Catalog.insertSkill catalog

end PetDuel
