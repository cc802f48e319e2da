import PetDuel.Proofs.Bounds
import PetDuel.Proofs.Names
import PetDuel.Proofs.Rows
import PetDuel.Proofs.WholeDoubles

/-!
Attributes read and written by name. Writing what an attribute was read as leaves everything as it
was, down to the bits of a double, and so does a write that is not taken; where a write is taken,
what another thing of the kind has under the name is read again. Which writes are taken is said by
the names alone, but for the kind of a skill.
-/

namespace PetDuel

theorem Text.afterList?_append (start rest : List Char) :
    afterList? start (start ++ rest) = some rest := by
  induction start with
  | nil => rfl
  | cons s start ih => exact (if_pos rfl).trans ih

theorem Text.beforeLast?_eq_some_iff {last : Char} {cs start : List Char} :
    beforeLast? last cs = some start ↔ cs = start ++ [last] := by
  unfold beforeLast?
  constructor
  · intro h
    split at h
    · cases h
    · rename_i c rest hreverse
      obtain ⟨rfl, hstart⟩ := Option.ite_none_right_eq_some.mp h
      rw [← List.reverse_reverse cs, hreverse, List.reverse_cons, Option.some.inj hstart]
  · rintro rfl
    rw [List.reverse_append, List.reverse_singleton, List.singleton_append]
    exact (if_pos rfl).trans (congrArg some start.reverse_reverse)

def Text.call (func argument : String) : String := func ++ "(" ++ argument ++ ")"

theorem Text.toList_call (func argument : String) :
    (call func argument).toList = func.toList ++ ['('] ++ (argument.toList ++ [')']) := by
  rw [call, String.toList_append, String.toList_append, String.toList_append, List.append_assoc]
  rfl

/-- A name is a call of a function exactly when it is spelled as one. -/
theorem Text.callArgument?_eq_some_iff {func name argument : String} :
    callArgument? func name = some argument ↔ name = call func argument := by
  rw [← String.toList_inj, toList_call]
  unfold callArgument?
  constructor
  · intro h
    obtain ⟨cs, hcs, rfl⟩ := Option.map_eq_some_iff.mp h
    obtain ⟨rest, hrest, hlast⟩ := Option.bind_eq_some_iff.mp hcs
    rw [eq_append_of_afterList? hrest, beforeLast?_eq_some_iff.mp hlast, String.toList_ofList]
  · intro h
    rw [h, afterList?_append, Option.bind_some, beforeLast?_eq_some_iff.mpr rfl, Option.map_some,
      String.ofList_toList]

theorem Text.exists_call_iff (func name : String) :
    (∃ argument, name = call func argument) ↔ (callArgument? func name).isSome := by
  simp only [Option.isSome_iff_exists, callArgument?_eq_some_iff]

/-- A call of one function is no call of another, unless the one name begins with the other. -/
theorem Text.callArgument?_eq_none_of_call {func func' name argument : String}
    (hfunc : ¬func.toList ++ ['('] <+: func'.toList ++ ['('])
    (hfunc' : ¬func'.toList ++ ['('] <+: func.toList ++ ['('])
    (h : callArgument? func' name = some argument) : callArgument? func name = none := by
  have hstart {func argument : String} (h : callArgument? func name = some argument) :
      func.toList ++ ['('] <+: name.toList := by
    rw [callArgument?_eq_some_iff.mp h, toList_call]
    exact List.prefix_append _ _
  refine Option.eq_none_iff_forall_ne_some.mpr fun other hother => ?_
  exact (List.prefix_or_prefix_of_prefix (hstart hother) (hstart h)).elim hfunc hfunc'

theorem Text.not_mem_of_call {func name argument : String} {names : List String}
    (hnames : ∀ name ∈ names, callArgument? func name = none)
    (h : callArgument? func name = some argument) : name ∉ names := by
  intro hmem
  rw [hnames name hmem] at h
  cases h

namespace Buff

variable {b c b' : Buff} {a : BuffAttribute}

/-- The value of another buff is within the bounds of a buff. -/
def Admits (b c : Buff) : Prop :=
  b.template.minValue ≤ c.value ∧ c.value ≤ max b.template.minValue b.template.maxValue

theorem Admits.setValue (h : b.Admits c) : b.setValue c.value = { b with value := c.value } := by
  rw [Buff.setValue, BuffTemplate.limit, bounded_of_mem h.1 h.2]

/-- What another buff has is read where it was written, and the buff's own changes nothing. -/
theorem written (hc : b.Admits c) (h : b.write? a (c.read a) = some b') :
    b'.read a = c.read a ∧ (c = b → b' = b) := by
  cases a with
  | turn =>
    rw [write?, read, Double.toInt32_ofInt32] at h
    cases h
    exact ⟨rfl, fun hsame => by rw [hsame]⟩
  | value =>
    rw [write?, read, Double.toInt32_ofInt32, hc.setValue] at h
    cases h
    exact ⟨rfl, fun hsame => by rw [hsame]⟩
  | _ => cases h

end Buff

/-- A skill that takes an attribute of another one has it then, and is unchanged if it is its own.
-/
theorem Skill.written {s u s' : Skill} {a : SkillAttribute}
    (h : s.write? a (u.read a) = some s') : s'.read a = u.read a ∧ (u = s → s' = s) := by
  cases a with
  | id => cases h
  | kind =>
    rw [write?, read, Double.toInt32_ofInt32, SkillKind.ofCode?_code, Option.map_some] at h
    cases h
    exact ⟨rfl, fun hsame => by rw [hsame]⟩
  | critical =>
    cases h
    exact ⟨rfl, fun hsame => by rw [read, hsame]⟩
  | ignoreShield | ignoreStages | secondSuper =>
    rw [write?, read, Double.ofFlag_bne_zero] at h
    cases h
    exact ⟨rfl, fun hsame => by rw [hsame]⟩
  | _ =>
    rw [write?, read, Double.toInt32_ofInt32] at h
    cases h
    exact ⟨rfl, fun hsame => by rw [hsame]⟩

/-- A turn record has what it takes from another one, also of the skill, which is written through
it. -/
theorem TurnRecord.written {t u t' : TurnRecord} {a : TurnAttribute}
    (h : t.write? a (u.read a) = some t') : t'.read a = u.read a ∧ (u = t → t' = t) := by
  cases a with
  | skill a =>
    obtain ⟨skill, hskill, rfl⟩ := Option.map_eq_some_iff.mp h
    obtain ⟨hread, hback⟩ := Skill.written hskill
    exact ⟨hread, fun hsame => by rw [hback (congrArg TurnRecord.skill hsame)]⟩
  | relation =>
    cases h
    exact ⟨rfl, fun hsame => by rw [read, hsame]⟩
  | hit | critical =>
    rw [write?, read, Double.ofFlag_bne_zero] at h
    cases h
    exact ⟨rfl, fun hsame => by rw [hsame]⟩
  | _ =>
    rw [write?, read, Double.toInt32_ofInt32] at h
    cases h
    exact ⟨rfl, fun hsame => by rw [hsame]⟩

namespace Pet

variable {p q p' : Pet} {a : PetAttribute} {v : Double}

def HasLevel (p : Pet) : Prop := 1 ≤ p.level ∧ p.level ≤ topLevel

theorem HasLevel.withLevel (h : q.HasLevel) (p : Pet) :
    p.withLevel q.level = { p with level := q.level } := by
  rw [Pet.withLevel, bounded_of_le h.1 h.2]

theorem setRecord_of_record?_eq_some {key : String} (h : p.record? key = some v) :
    p.setRecord key v = p := by
  obtain ⟨entry, hentry, rfl⟩ := Option.map_eq_some_iff.mp h
  have hkey := List.find?_some hentry
  obtain rfl : entry.1 = key := eq_of_beq hkey
  rw [setRecord, Keyed.put_eq_of_find?_eq_some hentry]

theorem record?_setRecord (p : Pet) (key : String) (v : Double) :
    (p.setRecord key v).record? key = some v :=
  congrArg (Option.map Prod.snd) (Keyed.find?_put_self (key, v) p.records)

/-- What a pet takes from another one is read back, whichever attribute it is. -/
theorem written (hq : q.HasLevel) (hread : q.read? a = some v) (h : p.write? a v = some p') :
    p'.read? a = some v ∧ (q = p → p' = p) := by
  cases a with
  | record key =>
    cases h
    exact ⟨p.record?_setRecord key v, fun hsame => setRecord_of_record?_eq_some (hsame ▸ hread)⟩
  | knows | brings | id | baseId | element | subElement => cases h
  | level =>
    cases hread
    rw [write?, Double.toInt32_ofInt32, hq.withLevel] at h
    cases h
    exact ⟨rfl, fun hsame => by rw [hsame]⟩
  | exp =>
    cases hread
    rw [write?, Double.toUInt32_ofUInt32] at h
    cases h
    exact ⟨rfl, fun hsame => by rw [hsame]⟩
  | emblem =>
    cases hread
    rw [write?, Double.zero_lt_ofFlag] at h
    cases h
    exact ⟨rfl, fun hsame => by rw [hsame]⟩
  | _ =>
    cases hread
    rw [write?, Double.toInt32_ofInt32] at h
    cases h
    exact ⟨rfl, fun hsame => by rw [hsame]⟩

end Pet

/-- A stage that is within the limit is written as it is, whichever channel it is read from. -/
theorem StatSheet.setStageOf_toStats {s t : StatSheet} (c : Channel)
    (h : ∀ d, s.limitStage (t.stage d) = t.stage d) :
    (s.setStageOf c (t.stages.toStats.get c).toInt32).stages.toStats.get c =
        t.stages.toStats.get c ∧
      (t = s → s.setStageOf c (t.stages.toStats.get c).toInt32 = s) := by
  unfold setStageOf
  split
  · rename_i d hd
    rw [StageChannel.channel_of_ofChannel? hd, Stages.get_toStats, Stages.get_toStats,
      Double.toInt32_ofInt32]
    constructor
    · have hstage := (s.stage_setStage d d (t.stage d)).trans (if_pos rfl)
      exact congrArg Double.ofInt32 (hstage.trans (h d))
    · rintro rfl
      change { t with stages := t.stages.set d (t.limitStage (t.stage d)) } = t
      rw [h d, stage, Stages.set_get]
  · rename_i hc
    rw [Stages.get_toStats_of_ofChannel?_eq_none hc, Stages.get_toStats_of_ofChannel?_eq_none hc]
    exact ⟨rfl, fun _ => rfl⟩

namespace Fighter

variable {f g f' : Fighter} {a : FighterAttribute} {v : Double}

/-- The numbers of another fighter are within its own bounds and those of a fighter. -/
structure Admits (f g : Fighter) : Prop where
  level : g.pet.HasLevel
  inBounds : g.InBounds f.sheet.stageLimit
  hp : g.hp ≤ f.maxHp
  minAnger : f.sheet.minAnger ≤ g.anger
  maxAnger : g.anger ≤ max f.sheet.minAnger f.sheet.maxAnger

namespace Admits

/-- A stage that the other fighter has within the same limit is not moved. -/
theorem limitStage (h : f.Admits g) (c : StageChannel) :
    f.sheet.limitStage (g.sheet.stage c) = g.sheet.stage c := by
  obtain ⟨n, hn, hlow, hhigh⟩ := h.inBounds.stages c
  have hstage : g.sheet.stage c = n := by
    rw [Stages.get_toStats] at hn
    rw [← Double.toInt32_ofInt32 n, ← hn]
    exact (Double.toInt32_ofInt32 _).symm
  rw [hstage]
  exact bounded_of_le hlow hhigh

theorem setHp (h : f.Admits g) : f.setHp g.hp = { f with hp := g.hp } := by
  rw [Fighter.setHp, bounded_of_le h.inBounds.hp h.hp]

theorem setAnger (h : f.Admits g) : f.setAnger g.anger = { f with anger := g.anger } := by
  rw [Fighter.setAnger, StatSheet.limitAnger, bounded_of_mem h.minAnger h.maxAnger]

end Admits

/-- What a fighter takes from another one that it admits is read back. -/
theorem written (hg : f.Admits g) (hread : g.read? a = some v) (h : f.write? a v = some f') :
    f'.read? a = some v ∧ (g = f → f' = f) := by
  cases a with
  | buffs | entryStat | maxHp | isDead | stat => cases h
  | stage c =>
    cases hread
    cases h
    obtain ⟨hstage, hback⟩ := StatSheet.setStageOf_toStats c hg.limitStage
    exact ⟨congrArg some hstage, fun hsame => by rw [hback (congrArg sheet hsame)]⟩
  | hp =>
    cases hread
    rw [write?, Double.toInt32_ofInt32, hg.setHp] at h
    cases h
    exact ⟨rfl, fun hsame => by rw [hsame]⟩
  | anger =>
    cases hread
    rw [write?, Double.toInt32_ofInt32, hg.setAnger] at h
    cases h
    exact ⟨rfl, fun hsame => by rw [hsame]⟩
  | minAnger | maxAnger =>
    -- Written back, the anger is moved to within bounds that are the same as before.
    cases hread
    rw [write?, Double.toInt32_ofInt32] at h
    cases h
    refine ⟨rfl, ?_⟩
    rintro rfl
    exact hg.setAnger
  | pet a =>
    obtain ⟨pet, hpet, rfl⟩ := Option.map_eq_some_iff.mp h
    obtain ⟨hread, hback⟩ := Pet.written hg.level hread hpet
    exact ⟨hread, fun hsame => by rw [hback (congrArg Fighter.pet hsame)]⟩

end Fighter

def Buff.Takes (name : String) : Prop := name ∈ ["turn", "value"]

/-- A skill takes all that can be read of it but its number, and as a kind the code of one. -/
def Skill.Takes (name : String) (v : Double) : Prop :=
  name ∈ ["element", "power", "anger", "accuracy", "priority", "critical", "combo", "ignoreShield",
    "ignorePowerup", "secondSuper"] ∨
  name = "type" ∧ ∃ kind : SkillKind, kind.code = v.toInt32

def TurnRecord.Takes (name : String) (v : Double) : Prop :=
  name ∈ ["skillDamage", "itemDamage", "buffDamage", "skillHeal", "itemHeal", "buffHeal", "isHit",
    "isCritical", "elementRelation"] ∨
  Skill.Takes name v

def Pet.Takes (name : String) : Prop :=
  (∃ key, name = Text.call "record" key) ∨
  name ∈ ["personality", "height", "weight", "level", "exp", "iv", "evStorage", "emblem",
    "featureId", "emblemId"]

/-- A fighter takes the stage of any channel, its health and its anger with the bounds of that, and
the rest as its pet does. -/
def Fighter.Takes (name : String) : Prop :=
  (∃ c : Channel, name = Text.call "powerup" c.name) ∨
  name ∈ ["hp", "anger", "minAnger", "maxAnger"] ∨
  Pet.Takes name

theorem Buff.isSome_writeName?_iff (b : Buff) (name : String) (v : Double) :
    (b.writeName? name v).isSome ↔ Takes name := by
  unfold writeName? BuffAttribute.ofName? Takes
  split <;> simp_all [write?]

theorem SkillKind.isSome_ofCode?_iff (n : Int32) :
    (ofCode? n).isSome ↔ ∃ kind : SkillKind, kind.code = n := by
  rw [Option.isSome_iff_exists]
  refine exists_congr fun kind => ⟨code_of_ofCode?, ?_⟩
  rintro rfl
  exact ofCode?_code kind

theorem Skill.isSome_writeName?_iff (s : Skill) (name : String) (v : Double) :
    (s.writeName? name v).isSome ↔ Takes name v := by
  unfold writeName? SkillAttribute.ofName? Takes
  split <;> simp_all [write?, SkillKind.isSome_ofCode?_iff]

theorem TurnRecord.isSome_writeName?_iff (t : TurnRecord) (name : String) (v : Double) :
    (t.writeName? name v).isSome ↔ Takes name v := by
  have hskill := t.skill.isSome_writeName?_iff name v
  unfold Skill.writeName? at hskill
  unfold writeName? TurnAttribute.ofName? Takes
  rw [← hskill]
  split
  case h_10 =>
    cases SkillAttribute.ofName? name <;> simp_all [write?]
  all_goals simp [write?]

theorem Channel.isSome_ofName?_iff (name : String) :
    (ofName? name).isSome ↔ ∃ c : Channel, name = c.name := by
  rw [ofName?, List.find?_isSome]
  constructor
  · rintro ⟨c, _, hc⟩
    exact ⟨c, (eq_of_beq hc).symm⟩
  · rintro ⟨c, rfl⟩
    exact ⟨c, by cases c <;> decide, beq_self_eq_true _⟩

instance (name : String) : Decidable (Pet.Takes name) :=
  decidable_of_iff _ (or_congr_left (Text.exists_call_iff "record" name).symm)

/-- A pet takes no name that calls for a skill, a buff, a first value or a stage. -/
theorem Pet.not_takes_of_call {func name argument : String}
    (hfunc : func ∈ ["skill", "buff", "init", "powerup"])
    (h : Text.callArgument? func name = some argument) : ¬Takes name := by
  have hrecord : Text.callArgument? "record" name = none := by
    refine Text.callArgument?_eq_none_of_call ?_ ?_ h
    all_goals
      clear h
      revert func
      decide
  rintro (hcall | hplain)
  · rw [Text.exists_call_iff, hrecord] at hcall
    cases hcall
  · refine Text.not_mem_of_call ?_ h hplain
    clear h
    revert func
    decide

/-- A pet accepts a write for a record and for what is not its identity, whatever the value. -/
theorem Pet.isSome_writeName?_iff (p : Pet) (name : String) (v : Double) :
    (p.writeName? name v).isSome ↔ Takes name := by
  unfold writeName? PetAttribute.ofName?
  split
  · rename_i h
    exact iff_of_false (by simp [write?]) (not_takes_of_call (by decide) h)
  · split
    · rename_i h
      exact iff_of_false (by simp [write?]) (not_takes_of_call (by decide) h)
    · split
      · rename_i key h
        exact iff_of_true rfl (Or.inl ⟨key, Text.callArgument?_eq_some_iff.mp h⟩)
      · rename_i h
        have hrecord : ¬∃ key, name = Text.call "record" key := by
          rw [Text.exists_call_iff, h]
          exact Bool.false_ne_true
        unfold PetAttribute.ofPlainName? Takes
        rw [or_iff_right hrecord]
        split <;> simp_all [write?]

theorem Fighter.takes_iff (name : String) : Takes name ↔
    ((Text.callArgument? "powerup" name).bind Channel.ofName?).isSome ∨
      name ∈ ["hp", "anger", "minAnger", "maxAnger"] ∨ Pet.Takes name := by
  refine or_congr_left ?_
  rw [Option.isSome_bind, Option.any_eq_true]
  simp only [Channel.isSome_ofName?_iff, Text.callArgument?_eq_some_iff]
  constructor
  · rintro ⟨c, hc⟩
    exact ⟨c.name, hc, c, rfl⟩
  · rintro ⟨argument, hname, c, rfl⟩
    exact ⟨c, hname⟩

instance (name : String) : Decidable (Fighter.Takes name) :=
  decidable_of_iff _ (Fighter.takes_iff name).symm

theorem Fighter.isSome_writePlain_iff (f : Fighter) (name : String) (v : Double) :
    ((FighterAttribute.ofPlainName? name).bind fun a => f.write? a v).isSome ↔
      name ∈ ["hp", "anger", "minAnger", "maxAnger"] ∨ Pet.Takes name := by
  unfold FighterAttribute.ofPlainName?
  split
  -- The highest health and whether it is dead are read, but follow from other numbers.
  case h_2 | h_6 => exact iff_of_false Bool.false_ne_true (by decide)
  case h_7 hhp _ hanger hminAnger hmaxAnger _ =>
    split
    · rename_i c hc
      obtain ⟨c', rfl⟩ := (Channel.isSome_ofName?_iff name).mp (Option.isSome_of_eq_some hc)
      -- No statistic has the name of what can be written, save for the health, which came first.
      refine iff_of_false Bool.false_ne_true ?_
      cases c' <;> first | exact absurd rfl hhp | decide
    · have hpet := f.pet.isSome_writeName?_iff name v
      unfold Pet.writeName? at hpet
      have hown : name ∉ ["hp", "anger", "minAnger", "maxAnger"] := by
        simp only [List.mem_cons, List.not_mem_nil, or_false, not_or]
        exact ⟨hhp, hanger, hminAnger, hmaxAnger⟩
      rw [← hpet, or_iff_right hown]
      cases PetAttribute.ofName? name <;> simp [write?]
  all_goals exact iff_of_true rfl (by decide)

theorem Fighter.not_takes_plain_of_call {func name argument : String}
    (hfunc : func ∈ ["buff", "init", "powerup"])
    (h : Text.callArgument? func name = some argument) :
    ¬(name ∈ ["hp", "anger", "minAnger", "maxAnger"] ∨ Pet.Takes name) := by
  rintro (hplain | hpet)
  · refine Text.not_mem_of_call ?_ h hplain
    clear h
    revert func
    decide
  · exact Pet.not_takes_of_call (List.mem_cons_of_mem _ hfunc) h hpet

theorem Fighter.not_takes_of_call {func name argument : String} (hfunc : func ∈ ["buff", "init"])
    (h : Text.callArgument? func name = some argument) : ¬Takes name := by
  have hpowerup : Text.callArgument? "powerup" name = none := by
    refine Text.callArgument?_eq_none_of_call ?_ ?_ h
    all_goals
      clear h
      revert func
      decide
  rw [takes_iff, hpowerup, Option.bind_none, Option.isSome_none, or_iff_right Bool.false_ne_true]
  exact not_takes_plain_of_call (List.mem_append_left ["powerup"] hfunc) h

/-- A fighter accepts a write under exactly the names that it takes. -/
theorem Fighter.isSome_writeName?_iff (f : Fighter) (name : String) (v : Double) :
    (f.writeName? name v).isSome ↔ Takes name := by
  unfold writeName? FighterAttribute.ofName?
  split
  · rename_i h
    exact iff_of_false (by simp [write?]) (not_takes_of_call (by decide) h)
  · split
    · rename_i h
      exact iff_of_false (by simp [write?]) (not_takes_of_call (by decide) h)
    · rw [takes_iff]
      split
      · rename_i argument h
        rw [h, Option.bind_some, or_iff_left (not_takes_plain_of_call (by decide) h)]
        cases Channel.ofName? argument <;> simp [write?]
      · rename_i h
        rw [h, Option.bind_none, f.isSome_writePlain_iff name v]
        exact (or_iff_right Bool.false_ne_true).symm

example : Fighter.Takes "powerup(hp)" ∧ Fighter.Takes "record(atk)" ∧ ¬Fighter.Takes "atk" := by
  decide

structure Access (α : Type) where
  read? : α → String → Option Double
  write? : α → String → Double → Option α

namespace Access

variable {α β : Type}

def set (A : Access α) (x : α) (name : String) (v : Double) : Bool × α :=
  ((A.write? x name v).isSome, (A.write? x name v).getD x)

/-- The laws of access by name, for things that admit the numbers of one another. A write gives a
changed thing or none, so that the law `refused` is carried by the type of `write?`: a setter that
refuses has not touched anything yet. -/
structure Lawful (A : Access α) (takes : String → Double → Prop) (admits : α → α → Prop) :
    Prop where
  /-- Whether a write is taken does not depend on what is written to. -/
  taken : ∀ x name v, (A.set x name v).1 = true ↔ takes name v
  /-- A write that is not taken changes nothing. -/
  refused : ∀ x name v, (A.set x name v).1 = false → (A.set x name v).2 = x
  /-- Writing what is read changes nothing, whether the write is taken or not. -/
  back : ∀ x name v, admits x x → A.read? x name = some v → (A.set x name v).2 = x
  /-- What is read elsewhere is read where it was written. -/
  copied : ∀ x y name v, admits x y → A.read? y name = some v → takes name v →
    A.read? (A.set x name v).2 name = some v

/-- Access is lawful if that to the attributes behind the names is. -/
theorem lawful_of_attributes {A : Access α} {takes : String → Double → Prop}
    {admits : α → α → Prop} (ofName? : String → Option β) (read? : α → β → Option Double)
    (write? : α → β → Double → Option α)
    (hread : ∀ x name, A.read? x name = (ofName? name).bind (read? x))
    (hwrite : ∀ x name v, A.write? x name v = (ofName? name).bind fun a => write? x a v)
    (htaken : ∀ x name v, (A.write? x name v).isSome ↔ takes name v)
    (hwritten : ∀ x y a v x', admits x y → read? y a = some v → write? x a v = some x' →
      read? x' a = some v ∧ (y = x → x' = x)) : A.Lawful takes admits where
  taken := htaken
  refused := by
    intro x name v hrefused
    rw [set, Option.isSome_eq_false_iff, Option.isNone_iff_eq_none] at hrefused
    rw [set, hrefused, Option.getD_none]
  back := by
    intro x name v hx hv
    rw [hread] at hv
    obtain ⟨a, ha, hv⟩ := Option.bind_eq_some_iff.mp hv
    rw [set, hwrite, ha, Option.bind_some]
    cases hx' : write? x a v with
    | none => rfl
    | some x' => exact (hwritten x x a v x' hx hv hx').2 rfl
  copied := by
    intro x y name v hxy hv htakes
    obtain ⟨x', hx'⟩ := Option.isSome_iff_exists.mp ((htaken x name v).mpr htakes)
    rw [set, hx', Option.getD_some, hread]
    rw [hread] at hv
    obtain ⟨a, ha, hv⟩ := Option.bind_eq_some_iff.mp hv
    rw [hwrite, ha] at hx'
    rw [ha]
    exact (hwritten x y a v x' hxy hv hx').1

end Access

def Buff.access : Access Buff := ⟨readName?, writeName?⟩

def Skill.access : Access Skill := ⟨readName?, writeName?⟩

def TurnRecord.access : Access TurnRecord := ⟨readName?, writeName?⟩

def Pet.access : Access Pet := ⟨readName?, writeName?⟩

def Fighter.access : Access Fighter := ⟨readName?, writeName?⟩

theorem Buff.lawful_access : access.Lawful (fun name _ => Takes name) Admits := by
  refine Access.lawful_of_attributes BuffAttribute.ofName? (fun b a => some (b.read a)) write?
    (fun _ _ => Option.map_eq_bind) (fun _ _ _ => rfl) isSome_writeName?_iff ?_
  rintro b c a _ b' hc ⟨⟩ h
  exact (written hc h).imp_left (congrArg some)

theorem Skill.lawful_access : access.Lawful Takes fun _ _ => True := by
  refine Access.lawful_of_attributes SkillAttribute.ofName? (fun s a => some (s.read a)) write?
    (fun _ _ => Option.map_eq_bind) (fun _ _ _ => rfl) isSome_writeName?_iff ?_
  rintro s u a _ s' - ⟨⟩ h
  exact (written h).imp_left (congrArg some)

theorem TurnRecord.lawful_access : access.Lawful Takes fun _ _ => True := by
  refine Access.lawful_of_attributes TurnAttribute.ofName? (fun t a => some (t.read a)) write?
    (fun _ _ => Option.map_eq_bind) (fun _ _ _ => rfl) isSome_writeName?_iff ?_
  rintro t u a _ t' - ⟨⟩ h
  exact (written h).imp_left (congrArg some)

theorem Pet.lawful_access : access.Lawful (fun name _ => Takes name) fun _ q => q.HasLevel :=
  Access.lawful_of_attributes PetAttribute.ofName? read? write? (fun _ _ => rfl)
    (fun _ _ _ => rfl) isSome_writeName?_iff fun _ _ _ _ _ => written

theorem Fighter.lawful_access : access.Lawful (fun name _ => Takes name) Admits :=
  Access.lawful_of_attributes FighterAttribute.ofName? read? write? (fun _ _ => rfl)
    (fun _ _ _ => rfl) isSome_writeName?_iff fun _ _ _ _ _ => written

/-- Under any name, writing what was read changes nothing about a buff, a skill, a turn record, a
pet or a fighter whose numbers are within their bounds. A write that is not taken changes nothing,
and one that is taken gives what another has under the name. -/
theorem attributes_written_back :
    Buff.access.Lawful (fun name _ => Buff.Takes name) Buff.Admits ∧
    Skill.access.Lawful Skill.Takes (fun _ _ => True) ∧
    TurnRecord.access.Lawful TurnRecord.Takes (fun _ _ => True) ∧
    Pet.access.Lawful (fun name _ => Pet.Takes name) (fun _ p => p.HasLevel) ∧
    Fighter.access.Lawful (fun name _ => Fighter.Takes name) Fighter.Admits :=
  ⟨Buff.lawful_access, Skill.lawful_access, TurnRecord.lawful_access, Pet.lawful_access,
    Fighter.lawful_access⟩

/-- A charge within its bounds, a pet with a record and a fighter that is hurt stay as they are when
they are written as they are read, the number of a pet is not taken, and the health of the hurt
fighter can be given to one that is not. -/
theorem hurt_fighter_written_back :
    let charge : Buff :=
      .new { (default : BuffTemplate) with id := 7, minValue := 2, maxValue := 9 } 3 5
    let pet := (Pet.ofTenHp.withLevel 7).setRecord "wins" (Double.ofInt 3)
    let fighter := Fighter.new pet {}
    let hurt : Fighter := { fighter with hp := 4 }
    (charge.Admits charge ∧ (Buff.access.set charge "value" (Double.ofInt 5)).2 = charge) ∧
    (pet.HasLevel ∧ (Pet.access.set pet "record(wins)" (Double.ofInt 3)).2 = pet ∧
      Pet.access.set pet "id" (Double.ofInt 4) = (false, pet)) ∧
    (hurt.Admits hurt ∧ (Fighter.access.set hurt "hp" (Double.ofInt 4)).2 = hurt) ∧
    (fighter.Admits hurt ∧ Fighter.access.read?
      (Fighter.access.set fighter "hp" (Double.ofInt 4)).2 "hp" = some (Double.ofInt 4)) := by
  intro charge pet fighter hurt
  obtain ⟨hbuff, _, _, hpet, hfighter⟩ := attributes_written_back
  have hcharge : charge.Admits charge := ⟨by decide, by decide⟩
  have hlevel : pet.HasLevel := ⟨by decide, by decide⟩
  have hlimit : 0 ≤ ({} : Rules).stageLimit := by decide
  have hnew : fighter.InBounds fighter.sheet.stageLimit := Fighter.inBounds_new pet hlimit
  have hbounds : hurt.InBounds fighter.sheet.stageLimit :=
    ⟨by decide, hnew.minAnger, hnew.maxAnger, hnew.stages, hnew.flat⟩
  have hadmits : fighter.Admits hurt :=
    ⟨hlevel, hbounds, by decide +kernel, hnew.minAnger, hnew.maxAnger⟩
  have hself : hurt.Admits hurt := ⟨hlevel, hbounds, hadmits.hp, hnew.minAnger, hnew.maxAnger⟩
  have hrefused := hpet.refused pet "id" (Double.ofInt 4) rfl
  refine ⟨⟨hcharge, hbuff.back charge "value" _ hcharge (by decide +kernel)⟩,
    ⟨hlevel, hpet.back pet "record(wins)" _ hlevel (by decide +kernel), ?_⟩,
    ⟨hself, hfighter.back hurt "hp" _ hself (by decide +kernel)⟩,
    ⟨hadmits, hfighter.copied fighter hurt "hp" _ hadmits (by decide +kernel) (by decide)⟩⟩
  exact Prod.ext rfl hrefused

end PetDuel
