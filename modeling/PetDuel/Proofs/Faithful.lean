import PetDuel.Proofs.Encoding
import PetDuel.Proofs.Markers
import PetDuel.Proofs.WholeDoubles
import PetDuel.Snapshot.Scene

/-!
Snapshots are faithful: every field of a scene can be told from its bytes, down to the effects in
the templates of the buffs of its pets. Doubles are told by their bits, and the records of a pet in
the order in which they stand.
-/

namespace PetDuel

/-- Stages shown as statistics can be told apart: whole numbers are different doubles. -/
theorem Stages.toStats_injective : Function.Injective Stages.toStats := by
  intro s t h
  refine Stages.ext_get fun c => ?_
  have hdouble : Double.ofInt32 (s.get c) = Double.ofInt32 (t.get c) := by
    rw [← s.get_toStats c, ← t.get_toStats c, h]
  rw [← Double.toInt32_ofInt32 (s.get c), hdouble, Double.toInt32_ofInt32]

namespace Snapshot

theorem faithful_options : Faithful options := by
  have hpair : Faithful fun e : String × String => text e.1 ++ text e.2 :=
    (faithful_text.on Prod.fst).and (faithful_text.on Prod.snd)
  refine (hpair.list.on Options.entries).imp fun x y hsame => ?_
  cases x
  cases y
  exact congrArg Options.mk hsame

/-- The tags of the carriers differ, and each is followed by what it needs. -/
theorem faithful_carrier : Faithful carrier := by
  refine ⟨fun c => by cases c <;> exact List.cons_ne_nil _ _, fun c d u v hbytes hlength => ?_⟩
  -- Behind the place of a skill or a buff stands its number.
  have hnumber (place : Nat) (m n : Int32)
      (hb : variant place ++ int32 m ++ u = variant place ++ int32 n ++ v)
      (hl : (variant place ++ int32 m ++ u).length < 256 ^ 8) : m = n ∧ u = v := by
    rw [List.append_assoc, List.append_assoc] at hb
    rw [List.append_assoc, List.length_append] at hl
    exact faithful_int32.peel m n u v (List.append_cancel_left hb) (by omega)
  cases c with
  | nothing =>
    cases d with
    | nothing => exact ⟨rfl, List.append_cancel_left hbytes⟩
    | skill n | buff n => exact absurd (List.cons.inj hbytes).1 (by decide)
  | skill m =>
    cases d with
    | nothing | buff n => exact absurd (List.cons.inj hbytes).1 (by decide)
    | skill n =>
      obtain ⟨hsame, hrest⟩ := hnumber 1 m n hbytes hlength
      exact ⟨congrArg Carrier.skill hsame, hrest⟩
  | buff m =>
    cases d with
    | nothing | skill n => exact absurd (List.cons.inj hbytes).1 (by decide)
    | buff n =>
      obtain ⟨hsame, hrest⟩ := hnumber 2 m n hbytes hlength
      exact ⟨congrArg Carrier.buff hsame, hrest⟩

/-- An effect is told by its ability, timing, carrier, invoker and options. -/
theorem faithful_effect : Faithful effect := by
  have htiming : Faithful fun t : Timing => variant t.code :=
    faithful_variant Timing.all (by intro t; cases t <;> decide) (by decide)
  have hability : Faithful fun a : Ability => variant a.index :=
    faithful_variant Ability.all (by intro a; cases a <;> decide) (by decide)
  have hid : Faithful fun id : DuelistId => uint32 id.number :=
    (faithful_uint32.on DuelistId.number).imp fun ⟨_⟩ ⟨_⟩ => congrArg DuelistId.mk
  have hfields := (htiming.on Effect.timing).and (hability.on Effect.ability) |>.and
    (.on faithful_options Effect.options) |>.and (hid.optional.on Effect.invoker) |>.and
    (.on faithful_carrier Effect.carrier)
  refine hfields.imp fun x y hsame => ?_
  cases x
  cases y
  simpa [and_assoc] using hsame

/-- A skill is told with all of its effects. -/
theorem faithful_skill : Faithful skill := by
  have hkind : Faithful fun k : SkillKind => variant k.index :=
    faithful_variant SkillKind.all (by intro k; cases k <;> decide) (by decide)
  have hfields :=
    (faithful_int32.on Skill.id).and (faithful_text.on Skill.name) |>.and
      (faithful_int32.on Skill.element) |>.and (hkind.on Skill.kind) |>.and
      (faithful_int32.on Skill.power) |>.and (faithful_int32.on Skill.anger) |>.and
      (faithful_int32.on Skill.accuracy) |>.and (.on faithful_options Skill.options) |>.and
      (faithful_text.on Skill.description) |>.and
      (.on (Faithful.list faithful_effect) Skill.effects) |>.and
      (faithful_double.on Skill.critical) |>.and (faithful_int32.on Skill.priority) |>.and
      (faithful_int32.on Skill.combo) |>.and (faithful_flag.on Skill.secondSuper) |>.and
      (faithful_flag.on Skill.ignoreShield) |>.and (faithful_flag.on Skill.ignoreStages) |>.and
      (faithful_text.list.on Skill.buffRefs)
  refine hfields.imp fun x y hsame => ?_
  cases x
  cases y
  simpa [and_assoc] using hsame

/-- A template is told with its flags, its bounds and its effects. -/
theorem faithful_template : Faithful template := by
  have hcategory : Faithful fun c : Category => variant c.code :=
    faithful_variant Category.all (by intro c; cases c <;> decide) (by decide)
  have hpolicy : Faithful fun p : CopyPolicy => variant p.code :=
    faithful_variant CopyPolicy.all (by intro p; cases p <;> decide) (by decide)
  have hfields := (faithful_int32.on BuffTemplate.id).and (faithful_int32.on BuffTemplate.icon)
    |>.and (faithful_text.on BuffTemplate.name) |>.and (hcategory.on BuffTemplate.category)
    |>.and (hpolicy.on BuffTemplate.policy) |>.and (faithful_int32.on BuffTemplate.turn)
    |>.and (faithful_flag.on BuffTemplate.keep) |>.and (faithful_flag.on BuffTemplate.inherit)
    |>.and (faithful_flag.on BuffTemplate.hidden) |>.and (faithful_flag.on BuffTemplate.autoRemove)
    |>.and (faithful_int32.on BuffTemplate.minValue)
    |>.and (faithful_int32.on BuffTemplate.maxValue)
    |>.and (faithful_text.on BuffTemplate.description)
    |>.and (.on faithful_options BuffTemplate.options)
    |>.and (.on (Faithful.list faithful_effect) BuffTemplate.effects)
  refine hfields.imp fun x y hsame => ?_
  cases x
  cases y
  simpa [and_assoc] using hsame

theorem faithful_buff : Faithful buff := by
  have hfields := (faithful_int32.on Buff.id).and (faithful_int32.on Buff.turn) |>.and
    (faithful_int32.on Buff.value) |>.and (.on faithful_options Buff.options) |>.and
    (.on faithful_template Buff.template)
  refine hfields.imp fun x y hsame => ?_
  cases x
  cases y
  simpa [and_assoc] using hsame

theorem faithful_stats : Faithful stats := by
  refine ((faithful_double.vector (Nat.succ_ne_zero 11)).on Stats.values).imp fun x y hsame => ?_
  cases x
  cases y
  exact congrArg Stats.mk hsame

/-- A pet is told with all that it keeps outside a duel. -/
theorem faithful_pet : Faithful pet := by
  have hrecord : Faithful fun r : String × Double => text r.1 ++ double r.2 :=
    (faithful_text.on Prod.fst).and (faithful_double.on Prod.snd)
  have hfields := (faithful_int32.on Pet.id).and (faithful_int32.on Pet.baseId) |>.and
    (faithful_int32.on Pet.element) |>.and (faithful_int32.on Pet.subElement) |>.and
    (faithful_int32.on Pet.personality) |>.and (faithful_int32.on Pet.height) |>.and
    (faithful_int32.on Pet.weight) |>.and (faithful_int32.on Pet.level) |>.and
    (faithful_uint32.on Pet.exp) |>.and (faithful_int32.on Pet.iv) |>.and
    ((faithful_int32.vector (Nat.succ_ne_zero 5)).on Pet.ev) |>.and
    (faithful_int32.on Pet.evStorage) |>.and (faithful_flag.on Pet.emblem) |>.and
    (faithful_int32.on Pet.featureId) |>.and (faithful_int32.on Pet.emblemId) |>.and
    (hrecord.list.on Pet.records) |>.and (faithful_int32.list.on Pet.skills) |>.and
    (.on (Faithful.list faithful_buff) Pet.entryBuffs) |>.and (.on faithful_stats Pet.normal) |>.and
    (.on faithful_stats Pet.current)
  refine hfields.imp fun x y hsame => ?_
  cases x
  cases y
  simpa [and_assoc] using hsame

theorem faithful_sheet : Faithful sheet := by
  have hstages : Faithful fun s : Stages => stats s.toStats := by
    refine (Tells.on faithful_stats Stages.toStats).imp fun s t hsame => ?_
    rw [id_eq, id_eq] at hsame ⊢
    exact Stages.toStats_injective hsame
  have hfields := (Tells.on faithful_stats StatSheet.entry).and
    (.on faithful_stats StatSheet.added) |>.and
    (hstages.on StatSheet.stages) |>.and (faithful_int32.on StatSheet.stageLimit) |>.and
    (faithful_int32.on StatSheet.minAnger) |>.and (faithful_int32.on StatSheet.maxAnger)
  refine hfields.imp fun x y hsame => ?_
  cases x
  cases y
  simpa [and_assoc] using hsame

theorem faithful_board : Faithful board := by
  have hrange : Faithful fun r : Int32 × Int32 => int32 r.1 ++ int32 r.2 :=
    (faithful_int32.on Prod.fst).and (faithful_int32.on Prod.snd)
  have hfields := (Tells.on (Faithful.list faithful_buff) BuffBoard.active).and
    (faithful_int32.list.on BuffBoard.blockedIds) |>.and
    (hrange.list.on BuffBoard.blockedRanges)
  refine hfields.imp fun x y hsame => ?_
  cases x
  cases y
  simpa [and_assoc] using hsame

theorem faithful_fighter : Faithful fighter := by
  have hfields := (Tells.on faithful_pet Fighter.pet).and (faithful_int32.on Fighter.hp) |>.and
    (faithful_int32.on Fighter.anger) |>.and (.on faithful_sheet Fighter.sheet) |>.and
    (.on faithful_board Fighter.board)
  refine hfields.imp fun x y hsame => ?_
  cases x
  cases y
  simpa [and_assoc] using hsame

theorem faithful_turnRecord : Faithful turnRecord := by
  have hfields := (Tells.on faithful_skill TurnRecord.skill).and
    (faithful_int32.on TurnRecord.skillDamage) |>.and
    (faithful_int32.on TurnRecord.itemDamage) |>.and
    (faithful_int32.on TurnRecord.buffDamage) |>.and
    (faithful_int32.on TurnRecord.skillHeal) |>.and
    (faithful_int32.on TurnRecord.itemHeal) |>.and
    (faithful_int32.on TurnRecord.buffHeal) |>.and
    (faithful_flag.on TurnRecord.hit) |>.and (faithful_flag.on TurnRecord.critical) |>.and
    (faithful_double.on TurnRecord.relation)
  refine hfields.imp fun x y hsame => ?_
  cases x
  cases y
  simpa [and_assoc] using hsame

/-- A stream is told by its seed and its position, which the number of words drawn determines. -/
theorem faithful_stream : Faithful stream := by
  have hposition : Faithful fun n : Fin Random.period => position n.val := by
    refine faithful_littleEndian 15 (fun n => ?_) fun m n => Fin.ext
    exact Nat.lt_trans n.isLt (by decide)
  have hfields := (faithful_uint64.on Random.Stream.seed).and
    (hposition.on Random.Stream.position)
  refine hfields.imp fun x y hsame => ?_
  cases x
  cases y
  simpa using hsame

end Snapshot

def Team.inWord (t : Team) : Team := { t with cursor := t.cursor % 2 ^ 64 }

def Scene.inWords (s : Scene) : Scene :=
  { s with
    own := { s.own with team := s.own.team.inWord }
    opposing := { s.opposing with team := s.opposing.team.inWord }
    sentOut := s.sentOut.map (· % 2 ^ 64) }

/-- Every slot of the scene fits into a word of 64 bits, and so does the length of its snapshot. -/
structure Scene.Fits (s : Scene) : Prop where
  own : s.own.team.cursor < 2 ^ 64
  opposing : s.opposing.team.cursor < 2 ^ 64
  sentOut : ∀ slot ∈ s.sentOut, slot < 2 ^ 64
  snapshot : (Snapshot.scene s).length < 2 ^ 64

instance (s : Scene) : Decidable s.Fits :=
  decidable_of_iff (s.own.team.cursor < 2 ^ 64 ∧ s.opposing.team.cursor < 2 ^ 64 ∧
    (∀ slot ∈ s.sentOut, slot < 2 ^ 64) ∧ (Snapshot.scene s).length < 2 ^ 64)
    ⟨fun ⟨h₁, h₂, h₃, h₄⟩ => ⟨h₁, h₂, h₃, h₄⟩, fun ⟨h₁, h₂, h₃, h₄⟩ => ⟨h₁, h₂, h₃, h₄⟩⟩

theorem Scene.Fits.inWords {s : Scene} (h : s.Fits) : s.inWords = s := by
  have hown : s.own.team.inWord = s.own.team :=
    congrArg (Team.mk _) (Nat.mod_eq_of_lt h.own)
  have hopposing : s.opposing.team.inWord = s.opposing.team :=
    congrArg (Team.mk _) (Nat.mod_eq_of_lt h.opposing)
  have hsent : s.sentOut.map (· % 2 ^ 64) = s.sentOut :=
    (List.map_congr_left fun slot hslot => Nat.mod_eq_of_lt (h.sentOut slot hslot)).trans
      (List.map_id _)
  rw [Scene.inWords, hown, hopposing, hsent]

namespace Snapshot

theorem tells_team : Tells team Team.inWord := by
  have hfields := (Tells.on (Faithful.list faithful_fighter) Team.fighters).and
    (tells_size.on Team.cursor)
  refine hfields.imp fun x y hsame => ?_
  obtain ⟨hfighters, hcursor⟩ := Prod.mk.inj hsame
  exact congrArg₂ Team.mk hfighters hcursor

/-- A duelist is told, save that its slots have to fit into a word. -/
theorem tells_duelist :
    Tells duelist fun d : Duelist => { d with team := d.team.inWord } := by
  have hfields := (faithful_uint32.on fun d : Duelist => d.id.number).and
    (.on tells_team Duelist.team) |>.and (.on faithful_turnRecord Duelist.turn) |>.and
    (.on faithful_stream Duelist.stream) |>.and (faithful_flag.on Duelist.done)
  refine hfields.imp fun x y hsame => ?_
  rcases x with ⟨⟨_⟩, _⟩
  rcases y with ⟨⟨_⟩, _⟩
  simpa [and_assoc] using hsame

/-- A scene is told with the same exception, piece by piece in the order in which they are written.
-/
theorem tells_scene : Tells scene Scene.inWords := by
  have hphase : Faithful fun t : Timing => variant t.code :=
    faithful_variant Timing.all (by intro t; cases t <;> decide) (by decide)
  have houtcome : Faithful fun o : Outcome => variant o.index :=
    faithful_variant Outcome.all (by intro o; cases o <;> decide) (by decide)
  have hweather : Faithful fun w : Weather => variant w.code :=
    faithful_variant Weather.all (by intro w; cases w <;> decide) (by decide)
  have hfields := (hphase.on Scene.phase).and (faithful_uint32.on Scene.turn) |>.and
    (.on tells_duelist Scene.own) |>.and (.on tells_duelist Scene.opposing) |>.and
    (faithful_uint32.on fun s : Scene => s.acting.number) |>.and
    (houtcome.on Scene.outcome) |>.and (tells_size.list.on Scene.sentOut) |>.and
    (hweather.on Scene.weather)
  refine hfields.imp fun x y hsame => ?_
  rcases x with ⟨_, _, _, _, ⟨_⟩, _⟩
  rcases y with ⟨_, _, _, _, ⟨_⟩, _⟩
  simpa [and_assoc, Scene.inWords] using hsame

end Snapshot

/-- Two battles have the same snapshot exactly when they agree on every field of their scenes,
whatever was kept of earlier scenes and however deep their changes of buffs are nested. -/
theorem Battle.snapshot_eq_iff {b c : Battle} (hb : b.scene.Fits) (hc : c.scene.Fits) :
    b.snapshot = c.snapshot ↔ b.scene = c.scene := by
  constructor
  · intro hbytes
    have hlength : (Snapshot.scene b.scene ++ []).length < 256 ^ 8 := by
      rw [List.append_nil]
      exact hb.snapshot
    have happend : Snapshot.scene b.scene ++ [] = Snapshot.scene c.scene ++ [] :=
      congrArg (· ++ []) hbytes
    have hsame := (Snapshot.tells_scene.peel b.scene c.scene [] [] happend hlength).1
    rwa [hb.inWords, hc.inWords] at hsame
  · intro hscene
    rw [Battle.snapshot, Battle.snapshot, hscene]

/-- The snapshot shows the turns that are left to a buff, and not how deep changes are nested. -/
theorem snapshot_shows_turns_left :
    let template : BuffTemplate :=
      { (default : BuffTemplate) with id := 45, name := "Doubler", category := .mark }
    let fighter (turn : Int32) : Fighter :=
      { (default : Fighter) with board := ⟨[.new template turn 0], [3], [(5, 9)]⟩ }
    let battle (turn : Int32) (depth : Nat) : Battle :=
      { Battle.new (.new ⟨0⟩ [fighter turn] 0) (.new ⟨1⟩ [] 0) with depth }
    (battle 2 0).scene.Fits ∧ (battle 2 1).scene.Fits ∧ (battle 3 0).scene.Fits ∧
      (battle 2 0).snapshot = (battle 2 1).snapshot ∧
      (battle 2 0).snapshot ≠ (battle 3 0).snapshot := by
  intro template fighter battle
  have htwo : (battle 2 0).scene.Fits := by decide +kernel
  have hthree : (battle 3 0).scene.Fits := by decide +kernel
  refine ⟨htwo, htwo, hthree, (Battle.snapshot_eq_iff htwo htwo).mpr rfl, fun hsame => ?_⟩
  have hscene := (Battle.snapshot_eq_iff htwo hthree).mp hsame
  exact absurd (congrArg (fun s => (s.own.active?.map fun f => f.board)) hscene)
    (by decide +kernel)

end PetDuel
