import PetDuel.Proofs.Numerals
import PetDuel.Skill.Selection

/-!
Selections that are sent. A skill that can be chosen is read back from its own fields exactly as it
was, and whatever fields are read, such a skill comes of them; so the fields of a skill that was
read are the one way to write it.
-/

namespace PetDuel

theorem exists_of_bind_eq_ok {ε α β : Type} {x : Except ε α} {f : α → Except ε β} {b : β}
    (h : (x >>= f) = .ok b) : ∃ a, x = .ok a ∧ f a = .ok b := by
  cases x with
  | error e => cases h
  | ok a => exact ⟨a, rfl, h⟩

theorem SkillKind.code_of_ofCode? {n : Int32} {kind : SkillKind} (h : ofCode? n = some kind) :
    kind.code = n := by
  have hfind : all.find? (fun k => k.code == n) = some kind := h
  have hcode := List.find?_some hfind
  exact beq_iff_eq.mp hcode

theorem Catalog.id_of_skill? {catalog : Catalog} {id : Int32} {s : Skill}
    (h : catalog.skill? id = some s) : s.id = id := by
  have hfind : catalog.skills.find? (fun x => x.id == id) = some s := h
  have hkey := List.find?_some hfind
  exact beq_iff_eq.mp hkey

namespace Skill

def IsActionId (id : Int32) : Prop := -4 ≤ id ∧ id ≤ -1

/-- The skills that a selection can choose. -/
inductive Selectable (catalog : Catalog) : Skill → Prop
  | pass : Selectable catalog pass
  | escape : Selectable catalog escape
  | useItem (id : Int32) : Selectable catalog (useItem id (catalog.itemEffects id))
  | switchPet {source target : Nat} (hsource : source < UInt64.size)
    (htarget : target < UInt64.size) (passive : Bool) :
    Selectable catalog (switchPet source target passive)
  | known {id : Int32} {s : Skill} (h : catalog.skill? id = some s) (hid : ¬IsActionId id) :
    Selectable catalog s

variable {catalog : Catalog} {fields : List String} {s : Skill}

theorem eq_of_isActionId {id : Int32} (h : IsActionId id) :
    id = -1 ∨ id = -2 ∨ id = -3 ∨ id = -4 := by
  have hlow : (-4 : Int) ≤ id.toInt := Int32.le_iff_toInt_le.mp h.1
  have hhigh : id.toInt ≤ -1 := Int32.le_iff_toInt_le.mp h.2
  have hcases : id.toInt = -1 ∨ id.toInt = -2 ∨ id.toInt = -3 ∨ id.toInt = -4 := by omega
  rcases hcases with h | h | h | h
  · exact Or.inl (Int32.toInt_inj.mp h)
  · exact Or.inr (Or.inl (Int32.toInt_inj.mp h))
  · exact Or.inr (Or.inr (Or.inl (Int32.toInt_inj.mp h)))
  · exact Or.inr (Or.inr (Or.inr (Int32.toInt_inj.mp h)))

theorem isActionId_of_ofCode? {id : Int32} {kind : SkillKind}
    (h : SkillKind.ofCode? id = some kind) (hkind : IsActionId kind.code) : IsActionId id :=
  SkillKind.code_of_ofCode? h ▸ hkind

/-- A field is read when it is there and has its form. -/
theorem readField_eq_ok_iff {α : Type} {read : String → Option α} {kind : Int32} {index : Nat}
    {x : α} : readField read fields kind index = .ok x ↔
      ∃ value, fields[index]? = some value ∧ read value = some x := by
  unfold readField
  cases hvalue : fields[index]? with
  | none => simp only [reduceCtorEq, false_and, exists_false]
  | some value =>
    cases hx : read value with
    | none => simp only [reduceCtorEq, Option.some.injEq, exists_eq_left', hx]
    | some y => simp only [Except.ok.injEq, Option.some.injEq, exists_eq_left', hx]

/-- Whatever fields are read, the skill is one that a selection can choose. -/
theorem selectable_of_ofSelection (h : ofSelection fields catalog = .ok s) :
    Selectable catalog s := by
  unfold ofSelection at h
  obtain ⟨kind, _, h⟩ := exists_of_bind_eq_ok h
  split at h
  · cases h
    exact .pass
  · cases h
    exact .escape
  · obtain ⟨id, _, h⟩ := exists_of_bind_eq_ok h
    cases h
    exact .useItem id
  · obtain ⟨source, hsource, h⟩ := exists_of_bind_eq_ok h
    obtain ⟨target, htarget, h⟩ := exists_of_bind_eq_ok h
    obtain ⟨passive, _, h⟩ := exists_of_bind_eq_ok h
    cases h
    -- A slot that can be read fits into a machine word.
    obtain ⟨_, _, hsource⟩ := readField_eq_ok_iff.mp hsource
    obtain ⟨_, _, htarget⟩ := readField_eq_ok_iff.mp htarget
    exact .switchPet (Number.lt_of_index? hsource) (Number.lt_of_index? htarget) passive
  · rename_i hpass hescape hitem hswitch
    cases h
    unfold Catalog.skillOrPass
    cases hs : catalog.skill? kind with
    | none => exact .pass
    | some s =>
      refine .known hs fun hid => ?_
      rcases eq_of_isActionId hid with rfl | rfl | rfl | rfl
      · exact hpass rfl
      · exact hitem rfl
      · exact hswitch rfl
      · exact hescape rfl

/-- The first field decides how the others are read. -/
theorem ofSelection_cons (kind : Int32) (rest : List String) (catalog : Catalog) :
    ofSelection (Number.showInt32 kind :: rest) catalog = match SkillKind.ofCode? kind with
      | some .pass => .ok pass
      | some .escape => .ok escape
      | some .item => do
        let id ← readField fieldInt? (Number.showInt32 kind :: rest) kind 1
        return useItem id (catalog.itemEffects id)
      | some .switchPet => do
        let source ← readField fieldSlot? (Number.showInt32 kind :: rest) kind 1
        let target ← readField fieldSlot? (Number.showInt32 kind :: rest) kind 2
        let passive ← readField flag? (Number.showInt32 kind :: rest) kind 3
        return switchPet source target passive
      | _ => .ok (catalog.skillOrPass kind) := by
  have hfirst : readField fieldInt? (Number.showInt32 kind :: rest) 0 0 = .ok kind :=
    readField_eq_ok_iff.mpr ⟨_, rfl, Number.int32?_showInt32 kind⟩
  unfold ofSelection
  rw [hfirst]
  rfl

theorem toSelection_useItem (id : Int32) (effects : List Effect) :
    (useItem id effects).toSelection = [Number.showInt32 (-2), Number.showInt32 id] := rfl

theorem toSelection_switchPet (source target : Nat) (passive : Bool) :
    (switchPet source target passive).toSelection =
      [Number.showInt32 (-3), source.repr, target.repr, showFlag passive] := rfl

/-- The use of an item is read back with the effects that the content has for it. -/
theorem ofSelection_useItem (id : Int32) (catalog : Catalog) :
    ofSelection (useItem id (catalog.itemEffects id)).toSelection catalog =
      .ok (useItem id (catalog.itemEffects id)) := by
  have hid : readField fieldInt? [Number.showInt32 (-2), Number.showInt32 id] (-2) 1 = .ok id :=
    readField_eq_ok_iff.mpr ⟨_, rfl, Number.int32?_showInt32 id⟩
  have hkind : SkillKind.ofCode? (-2) = some .item := rfl
  rw [toSelection_useItem, ofSelection_cons]
  simp only [hkind, hid]
  rfl

/-- A switch is read back, as its slots fit into words. -/
theorem ofSelection_switchPet {source target : Nat} (hsource : source < UInt64.size)
    (htarget : target < UInt64.size) (passive : Bool) (catalog : Catalog) :
    ofSelection (switchPet source target passive).toSelection catalog =
      .ok (switchPet source target passive) := by
  let fields := [Number.showInt32 (-3), source.repr, target.repr, showFlag passive]
  have hfirst : readField fieldSlot? fields (-3) 1 = .ok source :=
    readField_eq_ok_iff.mpr ⟨_, rfl, Number.index?_repr hsource⟩
  have hsecond : readField fieldSlot? fields (-3) 2 = .ok target :=
    readField_eq_ok_iff.mpr ⟨_, rfl, Number.index?_repr htarget⟩
  have hthird : readField flag? fields (-3) 3 = .ok passive :=
    readField_eq_ok_iff.mpr ⟨_, rfl, flag?_showFlag passive⟩
  have hkind : SkillKind.ofCode? (-3) = some .switchPet := rfl
  rw [toSelection_switchPet, ofSelection_cons]
  simp only [hkind, fields, hfirst, hsecond, hthird]
  rfl

/-- A skill of the content writes its number alone, and the number finds it again. -/
theorem ofSelection_known {id : Int32} (h : catalog.skill? id = some s) (hid : ¬IsActionId id) :
    ofSelection s.toSelection catalog = .ok s := by
  have hnumber : s.id = id := Catalog.id_of_skill? h
  have hfound : catalog.skillOrPass id = s := by rw [Catalog.skillOrPass, h, Option.getD_some]
  -- A number that stands for no action passes by the special cases, on the way out and back.
  have hnone {kind : SkillKind} (hkind : IsActionId kind.code) :
      SkillKind.ofCode? id ≠ some kind := fun hcode => hid (isActionId_of_ofCode? hcode hkind)
  have hfields : s.toSelection = [Number.showInt32 id] := by
    unfold toSelection
    rw [hnumber]
    dsimp only
    split
    · rename_i hcode
      exact absurd hcode (hnone ⟨by decide, by decide⟩)
    · rename_i hcode
      exact absurd hcode (hnone ⟨by decide, by decide⟩)
    · rfl
  rw [hfields, ofSelection_cons]
  split
  · rename_i hcode
    exact absurd hcode (hnone ⟨by decide, by decide⟩)
  · rename_i hcode
    exact absurd hcode (hnone ⟨by decide, by decide⟩)
  · rename_i hcode
    exact absurd hcode (hnone ⟨by decide, by decide⟩)
  · rename_i hcode
    exact absurd hcode (hnone ⟨by decide, by decide⟩)
  · rw [hfound]

theorem Selectable.readBack (h : Selectable catalog s) :
    ofSelection s.toSelection catalog = .ok s := by
  cases h with
  | pass => exact ofSelection_cons (-1) [] catalog
  | escape => exact ofSelection_cons (-4) [] catalog
  | useItem id => exact ofSelection_useItem id catalog
  | switchPet hsource htarget passive => exact ofSelection_switchPet hsource htarget passive catalog
  | known h hid => exact ofSelection_known h hid

end Skill

/-- Sending a selection loses nothing: every action and every skill of the content is read back as
it was, and so is every skill that was itself read from some fields, however these were spelled. -/
theorem selections_read_back (catalog : Catalog) :
    (∀ (source target : UInt64) (passive : Bool),
      let s := Skill.switchPet source.toNat target.toNat passive
      Skill.ofSelection s.toSelection catalog = .ok s) ∧
    (∀ id : Int32, let s := Skill.useItem id (catalog.itemEffects id)
      Skill.ofSelection s.toSelection catalog = .ok s) ∧
    Skill.ofSelection Skill.pass.toSelection catalog = .ok .pass ∧
    Skill.ofSelection Skill.escape.toSelection catalog = .ok .escape ∧
    (∀ (id : Int32) (s : Skill), catalog.skill? id = some s → ¬(-4 ≤ id ∧ id ≤ -1) →
      Skill.ofSelection s.toSelection catalog = .ok s) ∧
    ∀ (fields : List String) (s : Skill), Skill.ofSelection fields catalog = .ok s →
      Skill.ofSelection s.toSelection catalog = .ok s := by
  refine ⟨fun source target passive => ?_, fun id => ?_, ?_, ?_, fun id s hs hid => ?_,
    fun fields s hs => ?_⟩
  · exact (Skill.Selectable.switchPet source.toNat_lt target.toNat_lt passive).readBack
  · exact (Skill.Selectable.useItem id).readBack
  · exact Skill.Selectable.pass.readBack
  · exact Skill.Selectable.escape.readBack
  · exact (Skill.Selectable.known hs hid).readBack
  · exact (Skill.selectable_of_ofSelection hs).readBack

/-- A switch in an odd spelling and with a field too many is the plain one, and a skill of the
content is found by its number. -/
theorem oddly_spelled_selection_reads_back :
    let punch : Skill :=
      { Skill.pass with id := 7, name := "Punch", kind := .physical, power := 40 }
    let catalog : Catalog := ⟨[], [punch], []⟩
    let fields := [" -3", "+1 ", "002", "TRUE", "rest"]
    catalog.skill? 7 = some punch ∧ ¬((-4 : Int32) ≤ 7 ∧ (7 : Int32) ≤ -1) ∧
      Skill.ofSelection fields catalog = .ok (.switchPet 1 2 true) ∧
      Skill.ofSelection punch.toSelection catalog = .ok punch ∧
      Skill.ofSelection (Skill.switchPet 1 2 true).toSelection catalog =
        .ok (.switchPet 1 2 true) := by
  intro punch catalog fields
  have hpunch : catalog.skill? 7 = some punch := by decide
  have hnumber : ¬((-4 : Int32) ≤ 7 ∧ (7 : Int32) ≤ -1) := by decide
  have hread : Skill.ofSelection fields catalog = .ok (.switchPet 1 2 true) := rfl
  obtain ⟨_, _, _, _, hknown, hcanonical⟩ := selections_read_back catalog
  exact ⟨hpunch, hnumber, hread, hknown 7 punch hpunch hnumber, hcanonical fields _ hread⟩

end PetDuel
