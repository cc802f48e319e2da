import PetDuel.Buff.Basic
import PetDuel.Random.Stream
import PetDuel.Skill.Basic

/-!
The catalog of all content: buff templates, skills and the effects of items, each found by its
number.
-/

namespace PetDuel

/-- Everything that content defines. No two entries of a list have the same number. -/
structure Catalog where
  buffs : List BuffTemplate
  skills : List Skill
  items : List (Int32 × List Effect)
  deriving DecidableEq, Repr, Inhabited

def insertAscending (n : Int32) : List Int32 → List Int32
  | [] => [n]
  | m :: ms => if n ≤ m then n :: m :: ms else m :: insertAscending n ms

def ascending (ns : List Int32) : List Int32 := ns.foldr insertAscending []

namespace Catalog

def empty : Catalog := ⟨[], [], []⟩

def insertBuff (c : Catalog) (t : BuffTemplate) : Catalog :=
  { c with buffs := Keyed.put BuffTemplate.id t c.buffs }

def insertSkill (c : Catalog) (s : Skill) : Catalog :=
  { c with skills := Keyed.put Skill.id s c.skills }

def insertItem (c : Catalog) (id : Int32) (effects : List Effect) : Catalog :=
  { c with items := Keyed.put Prod.fst (id, effects) c.items }

def buff? (c : Catalog) (id : Int32) : Option BuffTemplate := Keyed.find? BuffTemplate.id id c.buffs

def newBuff? (c : Catalog) (id : Int32) : Option Buff := (c.buff? id).map Buff.ofTemplate

def skill? (c : Catalog) (id : Int32) : Option Skill := Keyed.find? Skill.id id c.skills

def skillOrPass (c : Catalog) (id : Int32) : Skill := (c.skill? id).getD .pass

def itemEffects (c : Catalog) (id : Int32) : List Effect :=
  ((Keyed.find? Prod.fst id c.items).map Prod.snd).getD []

def ordinarySkillIds (c : Catalog) : List Int32 :=
  ascending ((c.skills.filter fun s => !s.isSuper && !s.isAction).map Skill.id)

def randomSkill (c : Catalog) (r : Random.Stream) : Option Skill × Random.Stream :=
  let (id, r) := r.choose c.ordinarySkillIds
  (id.bind c.skill?, r)

end Catalog

end PetDuel
