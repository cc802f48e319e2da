import PetDuel.Proofs.Course

/-!
Numbers of fighters within their bounds. Health, anger and stages are moved to within their bounds
by every write, and every change of the bounds of anger writes the anger again; so they stay there
whatever happens in a duel. The highest health is no such bound: it follows from the statistics in
force, and a statistic that grows by a negative amount lowers it without a write of the health.
-/

namespace PetDuel

theorem bounded_mem (lo hi n : Int32) : lo ≤ bounded lo hi n ∧ bounded lo hi n ≤ max lo hi := by
  have hmax (a b : Int32) : max a b = if a ≤ b then b else a := rfl
  unfold bounded
  rw [hmax hi lo, hmax lo hi]
  grind [Int32.le_iff_toInt_le, Int32.lt_iff_toInt_lt]

/-- A stage that is moved to within the limit is at most the limit away from zero. The limit must
not be negative, or the two bounds cross. -/
theorem StatSheet.limitStage_mem {s : StatSheet} (h : 0 ≤ s.stageLimit) (n : Int32) :
    -s.stageLimit ≤ s.limitStage n ∧ s.limitStage n ≤ s.stageLimit := by
  have hlimit : 0 ≤ s.stageLimit.toInt := Int32.le_iff_toInt_le.mp h
  have hneg := toInt_neg_of_lt (n := s.stageLimit) (by omega)
  obtain ⟨hlow, hhigh, _⟩ := limitStage_spec h n
  refine ⟨Int32.le_iff_toInt_le.mpr ?_, Int32.le_iff_toInt_le.mpr hhigh⟩
  rw [hneg]
  exact hlow

/-- The numbers of a fighter are within their bounds, the stages within a limit on either side of
zero, and the channels without stages are at zero where stages are shown as statistics. That a stage
is a whole number, and that the other channels are flat, holds of all `Stages` by how they are
represented; what a run has to keep are the limits and the bounds of health and anger. -/
structure Fighter.InBounds (limit : Int32) (f : Fighter) : Prop where
  hp : 0 ≤ f.hp
  minAnger : f.sheet.minAnger ≤ f.anger
  maxAnger : f.anger ≤ max f.sheet.minAnger f.sheet.maxAnger
  stages : ∀ c : StageChannel, ∃ n : Int32,
    f.sheet.stages.toStats.get c.channel = Double.ofInt32 n ∧ -limit ≤ n ∧ n ≤ limit
  flat : ∀ c, StageChannel.ofChannel? c = none →
    f.sheet.stages.toStats.get c = Double.ofInt 0

namespace Fighter

variable {L : Licence} {f g : Fighter}

/-- A fighter enters with all of its numbers within their bounds. -/
theorem inBounds_new (pet : Pet) {rules : Rules} (h : 0 ≤ rules.stageLimit) :
    (Fighter.new pet rules).InBounds rules.stageLimit := by
  have hlimit : 0 ≤ rules.stageLimit.toInt := Int32.le_iff_toInt_le.mp h
  have hneg := toInt_neg_of_lt (n := rules.stageLimit) (by omega)
  have hzero : (0 : Int32).toInt = 0 := rfl
  refine ⟨(bounded_mem 0 _ _).1, (bounded_mem _ _ _).1, (bounded_mem _ _ _).2, fun c => ?_,
    fun c hc => Stages.get_toStats_of_ofChannel?_eq_none hc _⟩
  refine ⟨0, ?_, Int32.le_iff_toInt_le.mpr (by omega), h⟩
  cases c <;> rfl

theorem Change.stageLimit (h : f.Change L g) : g.sheet.stageLimit = f.sheet.stageLimit := by
  cases h <;> rfl

/-- One change leaves the numbers of a fighter within their bounds. -/
theorem Change.inBounds (h : f.Change L g) (hlimit : 0 ≤ f.sheet.stageLimit)
    (hf : f.InBounds f.sheet.stageLimit) : g.InBounds f.sheet.stageLimit := by
  cases h with
  | hp n => exact ⟨(bounded_mem 0 f.maxHp n).1, hf.minAnger, hf.maxAnger, hf.stages, hf.flat⟩
  | anger low high n =>
    obtain ⟨hlow, hhigh⟩ := bounded_mem low high n
    exact ⟨hf.hp, hlow, hhigh, hf.stages, hf.flat⟩
  | stage c n =>
    have hstage (d : StageChannel) := f.sheet.stage_setStage c d n
    refine ⟨hf.hp, hf.minAnger, hf.maxAnger, fun d => ?_,
      fun d hd => Stages.get_toStats_of_ofChannel?_eq_none hd _⟩
    by_cases hcd : c = d
    · -- The stage that is written is moved to within the limit.
      refine ⟨f.sheet.limitStage n, ?_, StatSheet.limitStage_mem hlimit n⟩
      rw [Stages.get_toStats]
      exact congrArg Double.ofInt32 ((hstage d).trans (if_pos hcd))
    · obtain ⟨m, hm, hmem⟩ := hf.stages d
      refine ⟨m, ?_, hmem⟩
      rw [Stages.get_toStats] at hm ⊢
      rw [← hm]
      exact congrArg Double.ofInt32 ((hstage d).trans (if_neg hcd))
  | pet | grow | block | unblock | board =>
    exact ⟨hf.hp, hf.minAnger, hf.maxAnger, hf.stages, hf.flat⟩

/-- Any number of changes keep the bounds: the stage limit never changes, so each change starts from
the same bounds. -/
theorem Changes.inBounds (h : f.Changes L g) (hlimit : 0 ≤ f.sheet.stageLimit)
    (hf : f.InBounds f.sheet.stageLimit) : g.InBounds f.sheet.stageLimit := by
  have hboth : g.sheet.stageLimit = f.sheet.stageLimit ∧ g.InBounds f.sheet.stageLimit := by
    induction h with
    | refl => exact ⟨rfl, hf⟩
    | tail _ hlast ih =>
      obtain ⟨hsame, hg⟩ := ih
      rw [← hsame] at hlimit hg ⊢
      exact ⟨hlast.stageLimit, hlast.inBounds hlimit hg⟩
  exact hboth.2

end Fighter

/-- Fighters that enter a duel each by rules of their own keep their numbers within the bounds of
these rules, on both sides and whether they are out or not, whatever is done to the duel and under
whatever content and rules. -/
theorem fighters_stay_in_bounds (own opposing : Duelist) (entrants : List (Pet × Rules))
    (hentrants : (Battle.new own opposing).scene.fighters =
      entrants.map fun p => Fighter.new p.1 p.2)
    (hlimit : ∀ p ∈ entrants, 0 ≤ p.2.stageLimit) (events : List (Context × Event)) :
    List.Forall₂ (fun p f => f.InBounds p.2.stageLimit) entrants
      ((Battle.new own opposing).after events).scene.fighters := by
  have hstable : Buff.Stable fun _ => True := fun _ _ _ _ => trivial
  have hcourse : (Battle.new own opposing).scene.Becomes (.bearing _ hstable)
      ((Battle.new own opposing).after events).scene :=
    Battle.after_becomes_bearing hstable events (fun _ _ _ _ => trivial)
      fun _ _ _ _ _ _ _ => trivial
  have hfighters := hcourse.fighters
  rw [hentrants, List.forall₂_map_left_iff] at hfighters
  have hboth := (List.forall₂_and_left _ _).mpr ⟨hlimit, hfighters⟩
  refine hboth.imp fun p f ⟨hp, hchanges⟩ => ?_
  exact hchanges.inBounds hp (Fighter.inBounds_new p.1 hp)

def Pet.ofTenHp : Pet :=
  .new 1 (.ofVisible (Double.ofInt 100) (Double.ofInt 10) (Double.ofInt 10) (Double.ofInt 10)
    (Double.ofInt 10) (Double.ofInt 10))

/-- Stages that are driven beyond their limits stop there, each at the limit that its fighter
entered by, and anger follows a lower bound that is set above the upper one. -/
theorem stages_stop_at_limits :
    let entrants : List (Pet × Rules) := [(.ofTenHp, {}), (.ofTenHp, { stageLimit := 2 })]
    let own := Duelist.new ⟨1⟩ [.new .ofTenHp {}] 0
    let opposing := Duelist.new ⟨2⟩ [.new .ofTenHp { stageLimit := 2 }] 0
    let ctx : Context := ⟨.empty, {}⟩
    let raise := (Effect.new .attack .raiseStages ⟨[("atk", "9")]⟩).actingFor ⟨1⟩
    let lower := (Effect.new .attack .raiseStages ⟨[("atk", "-9"), ("who", "op")]⟩).actingFor ⟨1⟩
    let rage := (Effect.new .attack .rage ⟨[("min", "50"), ("max", "20")]⟩).actingFor ⟨1⟩
    let events : List (Context × Event) :=
      [(ctx, .dispatch raise), (ctx, .dispatch lower), (ctx, .dispatch rage), (ctx, .endTurn)]
    let after := (Battle.new own opposing).after events
    (Battle.new own opposing).scene.fighters = (entrants.map fun p => Fighter.new p.1 p.2) ∧
      (∀ p ∈ entrants, 0 ≤ p.2.stageLimit) ∧
      List.Forall₂ (fun p f => f.InBounds p.2.stageLimit) entrants after.scene.fighters ∧
      (after.scene.fighters.map fun f => f.sheet.stage .attack) = [6, -2] ∧
      (after.scene.fighters.map fun f => f.anger) = [50, 15] := by
  intro entrants own opposing ctx raise lower rage events after
  have hlimit : ∀ p ∈ entrants, 0 ≤ p.2.stageLimit := by decide
  refine ⟨rfl, hlimit, fighters_stay_in_bounds own opposing entrants rfl hlimit events, ?_, ?_⟩
  · decide +kernel
  · decide +kernel

theorem Stats.get_set_of_ne {c d : Channel} (h : c ≠ d) (s : Stats) (x : Double) :
    (s.set c x).get d = s.get d := by
  have hindex : c.index.val ≠ d.index.val := by
    revert h
    cases c <;> cases d <;> decide
  exact Vector.getElem_set_ne c.index.isLt d.index.isLt hindex

theorem Stats.get_add (s t : Stats) (c : Channel) : (s + t).get c = s.get c + t.get c :=
  Vector.getElem_zipWith c.index.isLt

/-- On a channel without stages the statistics in force are those at entry with the additions. -/
theorem StatSheet.get_current {c : Channel} (h : StageChannel.ofChannel? c = none)
    (s : StatSheet) : s.current.get c = s.entry.get c + s.added.get c := by
  have hne (d : StageChannel) : d.channel ≠ c := by
    rintro rfl
    cases d <;> cases h
  have hfold (ds : List StageChannel) (t : Stats) :
      (ds.foldl (fun t d => t.set d.channel (t.get d.channel * stageFactor (s.stage d))) t).get c =
        t.get c := by
    induction ds generalizing t with
    | nil => rfl
    | cons d ds ih => rw [List.foldl_cons, ih, Stats.get_set_of_ne (hne d)]
  exact (hfold StageChannel.all _).trans (s.entry.get_add s.added c)

def Licence.fixedHealth : Licence :=
  .only
    (fun a o => ¬(a = .addStats ∧
      (Number.index? (Text.trim (o.getD "type" "5"))).bind Channel.ofIndex? = some .health))
    fun h => Ability.noConfusion h.1

namespace Fighter

variable {f g : Fighter}

theorem hp_new_le_maxHp (pet : Pet) (rules : Rules) :
    (Fighter.new pet rules).hp ≤ max 0 (Fighter.new pet rules).maxHp := (bounded_mem 0 _ _).2

/-- Only an addition to a statistic moves the normal health, and such additions are not licensed
here. -/
theorem Change.maxHp (h : f.Change .fixedHealth g) : g.maxHp = f.maxHp := by
  have hsheet : g.sheet.entry.get .health = f.sheet.entry.get .health ∧
      g.sheet.added.get .health = f.sheet.added.get .health := by
    cases h with
    | grow c x hgrows =>
      obtain ⟨o, hfires, hchannel⟩ := hgrows
      have hne : c ≠ .health := fun hc => hfires ⟨rfl, hc ▸ hchannel⟩
      exact ⟨rfl, Stats.get_set_of_ne hne _ _⟩
    | _ => exact ⟨rfl, rfl⟩
  unfold Fighter.maxHp
  rw [StatSheet.get_current rfl, StatSheet.get_current rfl, hsheet.1, hsheet.2]

/-- One change keeps the health at or below the normal health, since that stays what it is. -/
theorem Change.hp_le_maxHp (h : f.Change .fixedHealth g) (hf : f.hp ≤ max 0 f.maxHp) :
    g.hp ≤ max 0 g.maxHp := by
  rw [h.maxHp]
  cases h with
  | hp n => exact (bounded_mem 0 f.maxHp n).2
  | _ => exact hf

theorem Changes.hp_le_maxHp (h : f.Changes .fixedHealth g) (hf : f.hp ≤ max 0 f.maxHp) :
    g.hp ≤ max 0 g.maxHp := by
  induction h with
  | refl => exact hf
  | tail _ hlast ih => exact hlast.hp_le_maxHp ih

end Fighter

/-- As long as no effect is at work that adds to a fighter's health for good, no fighter has more
health than its highest. -/
theorem hp_stays_within_maxHp {b : Battle} (hstart : ∀ f ∈ b.scene.fighters, f.hp ≤ max 0 f.maxHp)
    (hb : b.scene.Licensed .fixedHealth) {events : List (Context × Event)}
    (hevents : ∀ step ∈ events,
      step.1.catalog.Licensed .fixedHealth ∧ step.2.Licensed .fixedHealth) :
    ∀ f ∈ (b.after events).scene.fighters, f.hp ≤ max 0 f.maxHp := by
  have hfighters := (Battle.after_becomes hb hevents).fighters
  intro g hg
  obtain ⟨f, hf, hchanges⟩ := forall₂_exists_of_mem hfighters hg
  exact hchanges.hp_le_maxHp (hstart f hf)

/-- A healing beyond the highest health stops there. -/
theorem healed_to_maxHp :
    let b := Battle.new (.new ⟨1⟩ [.new .ofTenHp {}] 0) (.new ⟨2⟩ [] 0)
    let heal := (Effect.new .attack .heal ⟨[("add", "50")]⟩).actingFor ⟨1⟩
    let events : List (Context × Event) := [(⟨.empty, {}⟩, .dispatch heal)]
    (∀ f ∈ b.scene.fighters, f.hp ≤ max 0 f.maxHp) ∧ b.scene.Licensed .fixedHealth ∧
      (∀ step ∈ events, step.1.catalog.Licensed .fixedHealth ∧ step.2.Licensed .fixedHealth) ∧
      ∀ f ∈ (b.after events).scene.fighters, f.hp ≤ max 0 f.maxHp := by
  intro b heal events
  have hstart : ∀ f ∈ b.scene.fighters, f.hp ≤ max 0 f.maxHp :=
    List.forall_mem_singleton.mpr (Fighter.hp_new_le_maxHp .ofTenHp {})
  have hb : b.scene.Licensed .fixedHealth := by
    refine ⟨⟨?_, List.forall_mem_nil _⟩, ⟨List.forall_mem_nil _, List.forall_mem_nil _⟩⟩
    exact List.forall_mem_singleton.mpr (List.forall_mem_nil _)
  have hevents : ∀ step ∈ events,
      step.1.catalog.Licensed .fixedHealth ∧ step.2.Licensed .fixedHealth := by
    refine List.forall_mem_singleton.mpr ⟨⟨?_, ?_⟩, fun h => Ability.noConfusion h.1⟩
    · intro id t ht
      cases ht
    · intro id s hs
      cases hs
  exact ⟨hstart, hb, hevents, hp_stays_within_maxHp hstart hb hevents⟩

/-- A fighter in full health whose highest health is lowered keeps the health that it had. -/
theorem health_above_lowered_maximum :
    let b := Battle.new (.new ⟨1⟩ [.new .ofTenHp {}] 0) (.new ⟨2⟩ [] 0)
    let lower := (Effect.new .attack .addStats ⟨[("type", "5"), ("add", "-5")]⟩).actingFor ⟨1⟩
    let after := b.after [(⟨.empty, {}⟩, .dispatch lower)]
    (∀ f ∈ b.scene.fighters, ∃ pet rules, f = .new pet rules) ∧
      (after.scene.fighters.map fun f => (f.hp, f.maxHp)) = [(10, 5)] ∧
      ¬∀ f ∈ after.scene.fighters, f.hp ≤ max 0 f.maxHp := by
  intro b lower after
  refine ⟨List.forall_mem_singleton.mpr ⟨.ofTenHp, {}, rfl⟩, ?_, ?_⟩
  · decide +kernel
  · decide +kernel

end PetDuel
