import PetDuel.Content.Table
import PetDuel.Proofs.Keyed
import PetDuel.Proofs.Selections

/-!
Tables of content. Of several rows with one number the last one is registered, and the effects go to
the first one; so they reach the catalog exactly where a number stands in one row only.
-/

namespace PetDuel

def EffectRow.effectsOf (owner : Owner) (id : Int32) (rows : List EffectRow) : List Effect :=
  (rows.filter fun r => r.owner == owner && r.ownerId == id).map EffectRow.effect

def BuffTemplate.rowsOf (text : String) (id : Int32) : List BuffTemplate :=
  (readTable ofRow text).filter fun t => t.id == id

def Skill.rowsOf (text : String) (id : Int32) : List Skill :=
  (readTable ofRow text).filter fun s => s.id == id

/-- The effects that the well-formed rows of a text give to an owner, in their order. -/
def Owner.effectsIn (owner : Owner) (text : String) (id : Int32) : List Effect :=
  EffectRow.effectsOf owner id (readTable EffectRow.ofRow text)

theorem forall_of_bind_eq_ok {ε α β : Type} {x : Except ε α} {f : α → Except ε β} {p : β → Prop}
    (h : ∀ a b, f a = .ok b → p b) : ∀ b, (x >>= f) = .ok b → p b := by
  intro b hb
  obtain ⟨a, _, hb⟩ := exists_of_bind_eq_ok hb
  exact h a b hb

/-- A template that is read from a row does nothing yet. -/
theorem BuffTemplate.effects_of_ofRow {line : String} :
    ∀ t, ofRow line = .ok t → t.effects = [] := by
  have hnew {id : Int32} {name : String} {category : Category} {policy : CopyPolicy} {turn : Int32}
      {optionText description : String} :
      ∀ t, new id name category policy turn optionText description = .ok t → t.effects = [] := by
    unfold new
    refine forall_of_bind_eq_ok fun icon => ?_
    dsimp only
    split
    all_goals
      iterate 6 refine forall_of_bind_eq_ok fun _ => ?_
      intro t ht
      cases ht
      rfl
  unfold ofRow
  iterate 5 refine forall_of_bind_eq_ok fun _ => ?_
  exact hnew

/-- A skill that is read from a row does nothing yet. -/
theorem Skill.effects_of_ofRow {line : String} : ∀ s, ofRow line = .ok s → s.effects = [] := by
  have hnew {id : Int32} {name : String} {element : Int32} {kind : SkillKind}
      {power anger accuracy : Int32} {optionText description : String} :
      ∀ s, new id name element kind power anger accuracy optionText description = .ok s →
        s.effects = [] := by
    unfold new
    iterate 5 refine forall_of_bind_eq_ok fun _ => ?_
    intro s hs
    cases hs
    rfl
  unfold ofRow
  iterate 8 refine forall_of_bind_eq_ok fun _ => ?_
  exact hnew

/-- What holds of all rows that are accepted holds of the table. -/
theorem of_mem_readTable {α : Type} {read : String → Except ContentError α} {p : α → Prop}
    (h : ∀ line x, read line = .ok x → p x) {text : String} : ∀ x ∈ readTable read text, p x := by
  intro x hx
  obtain ⟨line, _, hline⟩ := List.mem_filterMap.mp hx
  cases hread : read line with
  | error e =>
    rw [hread] at hline
    cases hline
  | ok y =>
    rw [hread] at hline
    cases hline
    exact h line _ hread

theorem BuffTemplate.of_mem_rowsOf {text : String} {id : Int32} {t : BuffTemplate}
    (h : t ∈ rowsOf text id) : t.id = id ∧ t.effects = [] := by
  obtain ⟨hmem, hid⟩ := List.mem_filter.mp h
  exact ⟨beq_iff_eq.mp hid, of_mem_readTable (fun _ => effects_of_ofRow) t hmem⟩

theorem Skill.of_mem_rowsOf {text : String} {id : Int32} {s : Skill} (h : s ∈ rowsOf text id) :
    s.id = id ∧ s.effects = [] := by
  obtain ⟨hmem, hid⟩ := List.mem_filter.mp h
  exact ⟨beq_iff_eq.mp hid, of_mem_readTable (fun _ => effects_of_ofRow) s hmem⟩

/-- A change of the first entry with a number changes the first entry with this number, and no
entry with another one. -/
theorem filter_changeWhere {α : Type} {key : α → Int32} {f : α → α} (hf : ∀ x, key (f x) = key x)
    (id id' : Int32) (xs : List α) :
    (changeWhere (fun x => key x == id') f xs).filter (fun x => key x == id) =
      if id' = id then (xs.filter fun x => key x == id).modifyHead f
      else xs.filter fun x => key x == id := by
  induction xs with
  | nil => exact (ite_self []).symm
  | cons x xs ih =>
    unfold changeWhere
    -- The entry that changes is the first with its number, and so the head of what is kept of it.
    by_cases hx : key x = id'
    · have hchange : (key x == id') = true := beq_iff_eq.mpr hx
      rw [if_pos hchange, List.filter_cons, List.filter_cons, hf]
      by_cases hid : id' = id
      · have hsame : (key x == id) = true := beq_iff_eq.mpr (hx.trans hid)
        rw [if_pos hid, if_pos hsame, if_pos hsame]
        rfl
      · have hother : ¬(key x == id) = true := fun h => hid (hx.symm.trans (beq_iff_eq.mp h))
        rw [if_neg hid, if_neg hother, if_neg hother]
    · have hkeep : ¬(key x == id') = true := fun h => hx (beq_iff_eq.mp h)
      rw [if_neg hkeep, List.filter_cons, List.filter_cons, ih]
      by_cases hid : id' = id
      · have hother : ¬(key x == id) = true := fun h => hx ((beq_iff_eq.mp h).trans hid.symm)
        rw [if_pos hid, if_pos hid, if_neg hother, if_neg hother]
      · rw [if_neg hid, if_neg hid]

def attachTo {α : Type} (key : α → Int32) (give : Effect → α → α) (owner : Owner) (xs : List α)
    (row : EffectRow) : List α :=
  if row.owner = owner then changeWhere (fun x => key x == row.ownerId) (give row.effect) xs else xs

def BuffTemplate.give (e : Effect) (t : BuffTemplate) : BuffTemplate :=
  t.withEffects (t.effects ++ [e])

def Skill.give (e : Effect) (s : Skill) : Skill := s.withEffects (s.effects ++ [e])

theorem BuffTemplate.id_give (e : Effect) (t : BuffTemplate) : (t.give e).id = t.id := rfl

theorem Skill.id_give (e : Effect) (s : Skill) : (s.give e).id = s.id := rfl

/-- Templates and skills are given their effects apart from each other. -/
theorem foldl_attach (rows : List EffectRow) (ts : List BuffTemplate) (ss : List Skill) :
    rows.foldl attach (ts, ss) = (rows.foldl (attachTo BuffTemplate.id BuffTemplate.give .buff) ts,
      rows.foldl (attachTo Skill.id Skill.give .skill) ss) := by
  induction rows generalizing ts ss with
  | nil => rfl
  | cons row rows ih =>
    have hrow : attach (ts, ss) row = (attachTo BuffTemplate.id BuffTemplate.give .buff ts row,
        attachTo Skill.id Skill.give .skill ss row) := by
      unfold attach attachTo
      cases row.owner <;> rfl
    rw [List.foldl_cons, hrow, ih]
    rfl

/-- A row gives its effect to its own owner only. -/
theorem EffectRow.effectsOf_cons (owner : Owner) (id : Int32) (row : EffectRow)
    (rows : List EffectRow) : effectsOf owner id (row :: rows) =
      if row.owner = owner ∧ row.ownerId = id then row.effect :: effectsOf owner id rows
      else effectsOf owner id rows := by
  unfold effectsOf
  rw [List.filter_cons]
  by_cases h : row.owner = owner ∧ row.ownerId = id
  · rw [if_pos h, if_pos (by simpa using h), List.map_cons]
  · rw [if_neg h, if_neg (by simpa using h)]

/-- Of the entries with a number, the first one is given all effects that belong to the number. -/
theorem filter_foldl_attachTo {α : Type} {key : α → Int32} {give : Effect → α → α}
    (hgive : ∀ e x, key (give e x) = key x) (owner : Owner) (id : Int32) (rows : List EffectRow)
    (xs : List α) : (rows.foldl (attachTo key give owner) xs).filter (fun x => key x == id) =
      (xs.filter fun x => key x == id).modifyHead fun x =>
        (EffectRow.effectsOf owner id rows).foldl (fun x e => give e x) x := by
  induction rows generalizing xs with
  | nil => exact (congrFun List.modifyHead_id _).symm
  | cons row rows ih =>
    rw [List.foldl_cons, ih, EffectRow.effectsOf_cons, attachTo]
    by_cases howner : row.owner = owner
    · rw [if_pos howner, filter_changeWhere (hgive row.effect)]
      by_cases hid : row.ownerId = id
      · rw [if_pos hid, if_pos ⟨howner, hid⟩, List.modifyHead_modifyHead]
        rfl
      · rw [if_neg hid, if_neg fun h => hid h.2]
    · rw [if_neg howner, if_neg fun h => howner h.1]

/-- Effects that are given one after the other are given together. -/
theorem BuffTemplate.foldl_give (es : List Effect) (t : BuffTemplate) :
    es.foldl (fun t e => t.give e) t = t.withEffects (t.effects ++ es) := by
  induction es generalizing t with
  | nil =>
    rw [List.append_nil]
    rfl
  | cons e es ih =>
    rw [List.foldl_cons, ih]
    exact congrArg t.withEffects (List.append_assoc t.effects [e] es)

theorem Skill.withEffects_append (s : Skill) (es fs : List Effect) :
    s.withEffects ((s.withEffects es).effects ++ fs) = s.withEffects (es ++ fs) := by
  unfold withEffects
  rw [List.map_append, List.map_append, List.map_map]
  rfl

theorem Skill.withEffects_of_bare {s : Skill} (h : s.effects = []) :
    s.withEffects s.effects = s := by
  cases s
  cases h
  rfl

/-- A skill whose effects name it as their carrier goes on like this. -/
theorem Skill.foldl_give (es : List Effect) {s : Skill} (hs : s.withEffects s.effects = s) :
    es.foldl (fun s e => s.give e) s = s.withEffects (s.effects ++ es) := by
  induction es generalizing s with
  | nil => exact (hs.symm.trans (congrArg s.withEffects (List.append_nil _).symm))
  | cons e es ih =>
    have hgiven : (s.give e).withEffects (s.give e).effects = s.give e := by
      have happend := s.withEffects_append (s.effects ++ [e]) []
      rw [List.append_nil, List.append_nil] at happend
      exact happend
    rw [List.foldl_cons, ih hgiven]
    exact (s.withEffects_append (s.effects ++ [e]) es).trans
      (congrArg s.withEffects (List.append_assoc s.effects [e] es))

theorem BuffTemplate.withEffects_of_bare {t : BuffTemplate} (h : t.effects = []) :
    t.withEffects t.effects = t := by
  cases t
  cases h
  rfl

theorem BuffTemplate.eq_withEffects_iff {t : BuffTemplate} (h : t.effects = []) (es : List Effect) :
    t = t.withEffects es ↔ es = [] := by
  constructor
  · intro hsame
    exact (congrArg effects hsame).symm.trans h
  · rintro rfl
    exact (t.withEffects_of_bare h).symm.trans (congrArg t.withEffects h)

theorem Skill.eq_withEffects_iff {s : Skill} (h : s.effects = []) (es : List Effect) :
    s = s.withEffects es ↔ es = [] := by
  constructor
  · intro hsame
    exact List.map_eq_nil_iff.mp ((congrArg effects hsame).symm.trans h)
  · rintro rfl
    exact (s.withEffects_of_bare h).symm.trans (congrArg s.withEffects h)

/-- The last row is changed along with the first one only when it is the only one. -/
theorem getLast?_modifyHead {α : Type} {f g : α → α} {xs : List α} (h : ∀ x ∈ xs, f x = g x) :
    (xs.modifyHead f).getLast? = if xs.length ≤ 1 then xs.getLast?.map g else xs.getLast? := by
  match xs with
  | [] => rfl
  | [x] => exact congrArg some (h x List.mem_cons_self)
  | x :: y :: ys => rfl

namespace Catalog

theorem foldl_insertBuff (ts : List BuffTemplate) (c : Catalog) :
    ts.foldl insertBuff c =
      { c with buffs := ts.foldl (fun buffs t => Keyed.put BuffTemplate.id t buffs) c.buffs } := by
  induction ts generalizing c with
  | nil => rfl
  | cons t ts ih => exact ih (c.insertBuff t)

theorem foldl_insertSkill (ss : List Skill) (c : Catalog) :
    ss.foldl insertSkill c =
      { c with skills := ss.foldl (fun skills s => Keyed.put Skill.id s skills) c.skills } := by
  induction ss generalizing c with
  | nil => rfl
  | cons s ss ih => exact ih (c.insertSkill s)

variable (buffs skills effects : String) (id : Int32)

/-- The last template with a number is found; it has its effects when it is the only one. -/
theorem buff?_ofTables : (ofTables buffs skills effects).buff? id =
    if (BuffTemplate.rowsOf buffs id).length ≤ 1 then
      (BuffTemplate.rowsOf buffs id).getLast?.map (·.withEffects (Owner.buff.effectsIn effects id))
    else (BuffTemplate.rowsOf buffs id).getLast? := by
  have hgiven : ∀ t ∈ BuffTemplate.rowsOf buffs id,
      (Owner.buff.effectsIn effects id).foldl (fun t e => t.give e) t =
        t.withEffects (Owner.buff.effectsIn effects id) := by
    intro t ht
    rw [t.foldl_give, (BuffTemplate.of_mem_rowsOf ht).2, List.nil_append]
  unfold ofTables
  dsimp only
  rw [foldl_attach, foldl_insertSkill, foldl_insertBuff, buff?, Keyed.find?_foldl_put]
  dsimp only
  rw [filter_foldl_attachTo BuffTemplate.id_give]
  exact Option.or_none.trans (getLast?_modifyHead hgiven)

/-- The content has the last row with a number, and effects only went to the first. -/
theorem skill?_ofTables : (ofTables buffs skills effects).skill? id =
    if (Skill.rowsOf skills id).length ≤ 1 then
      (Skill.rowsOf skills id).getLast?.map (·.withEffects (Owner.skill.effectsIn effects id))
    else (Skill.rowsOf skills id).getLast? := by
  have hgiven : ∀ s ∈ Skill.rowsOf skills id,
      (Owner.skill.effectsIn effects id).foldl (fun s e => s.give e) s =
        s.withEffects (Owner.skill.effectsIn effects id) := by
    intro s hs
    have hbare : s.effects = [] := (Skill.of_mem_rowsOf hs).2
    rw [Skill.foldl_give _ (s.withEffects_of_bare hbare), hbare, List.nil_append]
  unfold ofTables
  dsimp only
  rw [foldl_attach, foldl_insertSkill, foldl_insertBuff, skill?, Keyed.find?_foldl_put]
  dsimp only
  rw [filter_foldl_attachTo Skill.id_give]
  exact Option.or_none.trans (getLast?_modifyHead hgiven)

/-- The carrier of the effects of a skill of the tables is the skill. -/
theorem carrier_of_skill?_ofTables {s : Skill}
    (h : (ofTables buffs skills effects).skill? id = some s) :
    ∀ e ∈ s.effects, e.carrier = .skill id := by
  have hrow : ∀ r ∈ (Skill.rowsOf skills id).getLast?, r.id = id ∧ r.effects = [] :=
    fun r hr => Skill.of_mem_rowsOf (List.mem_of_getLast? hr)
  rw [skill?_ofTables] at h
  split at h
  · obtain ⟨r, hr, rfl⟩ := Option.map_eq_some_iff.mp h
    intro e he
    obtain ⟨e, _, rfl⟩ := List.mem_map.mp he
    exact congrArg Carrier.skill (hrow r hr).1
  · rw [(hrow s h).2]
    exact List.forall_mem_nil _

end Catalog

/-- The last row is as it should be exactly when it is the only one or there is nothing to give. -/
theorem last_given_iff {α : Type} (give : List Effect → α → α) {xs : List α} {es : List Effect}
    (hbare : ∀ x ∈ xs, x = give es x ↔ es = []) :
    (if xs.length ≤ 1 then xs.getLast?.map (give es) else xs.getLast?) =
      xs.getLast?.map (give es) ↔ xs.length ≤ 1 ∨ es = [] := by
  by_cases hlength : xs.length ≤ 1
  · rw [if_pos hlength]
    exact iff_of_true rfl (Or.inl hlength)
  · rw [if_neg hlength]
    cases hlast : xs.getLast? with
    | none =>
      rw [List.getLast?_eq_none_iff.mp hlast] at hlength
      exact absurd (Nat.zero_le 1) hlength
    | some x =>
      rw [Option.map_some, Option.some_inj, hbare x (List.mem_of_getLast? hlast)]
      exact (or_iff_right hlength).symm

/-- What a number stands for in the catalog of some tables is the last row with the number; it has
exactly the effects of the table that belong to the number, in their order, where the number stands
in one row only or has no effects, and otherwise it has none. -/
theorem effects_attached_iff (buffs skills effects : String) (id : Int32) :
    ((Catalog.ofTables buffs skills effects).buff? id =
        (BuffTemplate.rowsOf buffs id).getLast?.map
          (·.withEffects (Owner.buff.effectsIn effects id)) ↔
      (BuffTemplate.rowsOf buffs id).length ≤ 1 ∨ Owner.buff.effectsIn effects id = []) ∧
    (¬(BuffTemplate.rowsOf buffs id).length ≤ 1 →
      (Catalog.ofTables buffs skills effects).buff? id =
        (BuffTemplate.rowsOf buffs id).getLast?) ∧
    ((Catalog.ofTables buffs skills effects).skill? id =
        (Skill.rowsOf skills id).getLast?.map
          (·.withEffects (Owner.skill.effectsIn effects id)) ↔
      (Skill.rowsOf skills id).length ≤ 1 ∨ Owner.skill.effectsIn effects id = []) ∧
    (¬(Skill.rowsOf skills id).length ≤ 1 →
      (Catalog.ofTables buffs skills effects).skill? id = (Skill.rowsOf skills id).getLast?) ∧
    ∀ s, (Catalog.ofTables buffs skills effects).skill? id = some s →
      ∀ e ∈ s.effects, e.carrier = .skill id := by
  have htemplates : ∀ t ∈ BuffTemplate.rowsOf buffs id,
      t = t.withEffects (Owner.buff.effectsIn effects id) ↔
        Owner.buff.effectsIn effects id = [] :=
    fun t ht => t.eq_withEffects_iff (BuffTemplate.of_mem_rowsOf ht).2 _
  have hskills : ∀ s ∈ Skill.rowsOf skills id,
      s = s.withEffects (Owner.skill.effectsIn effects id) ↔
        Owner.skill.effectsIn effects id = [] :=
    fun s hs => s.eq_withEffects_iff (Skill.of_mem_rowsOf hs).2 _
  have hbuff := Catalog.buff?_ofTables buffs skills effects id
  have hskill := Catalog.skill?_ofTables buffs skills effects id
  refine ⟨?_, fun h => hbuff.trans (if_neg h), ?_, fun h => hskill.trans (if_neg h),
    fun s => Catalog.carrier_of_skill?_ofTables buffs skills effects id⟩
  · rw [hbuff]
    exact last_given_iff (fun es t => BuffTemplate.withEffects t es) htemplates
  · rw [hskill]
    exact last_given_iff (fun es s => Skill.withEffects s es) hskills

/-- The effect of a number that stands in one row is there. -/
theorem effects_attached_to_single_row :
    let buffs := "7,A,Normal,New,1,none,"
    let effects := "buff,7,OnTurnEnd,Heal,add=1"
    (BuffTemplate.rowsOf buffs 7).length ≤ 1 ∧
      ((Catalog.ofTables buffs "" effects).buff? 7).map BuffTemplate.effects =
        some [.new .turnEnd .heal ⟨[("add", "1")]⟩] := by
  intro buffs effects
  have hsingle : (BuffTemplate.rowsOf buffs 7).length ≤ 1 := by decide +kernel
  refine ⟨hsingle, ?_⟩
  rw [(effects_attached_iff buffs "" effects 7).1.mpr (Or.inl hsingle)]
  decide +kernel

/-- The effect of a number that stands in two rows goes to the first row, and the second one is
registered without it. -/
theorem effect_lost_to_repeated_row :
    let buffs := "7,A,Normal,New,1,none,\n7,B,Normal,New,2,none,"
    let effects := "buff,7,OnTurnEnd,Heal,add=1"
    Owner.buff.effectsIn effects 7 = [.new .turnEnd .heal ⟨[("add", "1")]⟩] ∧
      (Catalog.ofTables buffs "" effects).buff? 7 ≠ (BuffTemplate.rowsOf buffs 7).getLast?.map
        (·.withEffects (Owner.buff.effectsIn effects 7)) := by
  decide +kernel

end PetDuel
