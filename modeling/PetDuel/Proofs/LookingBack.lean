import Mathlib.Data.List.Induction
import PetDuel.Proofs.Course
import PetDuel.Proofs.Nesting

/-!
Looking back. A duel is kept whenever a phase is entered, and nothing that is dispatched or answered
touches what was kept. Turn numbers only grow, and so the last moment of an earlier turn is the one
that was kept last while the number was smaller than it is now.
-/

namespace PetDuel

/-- Kept scenes as moments: each scene with what was kept before it. -/
def keptMoments : List Scene → List Moment
  | [] => []
  | s :: ss => ⟨s, ss⟩ :: keptMoments ss

def Battle.kept (b : Battle) : List Moment := keptMoments b.history

namespace Event

def keeps : Event → Bool
  | resolve _ | advance _ => true
  | dispatch _ | endTurn => false

def endsTurn : Event → Bool
  | endTurn => true
  | dispatch _ | resolve _ | advance _ => false

/-- Some first events of a course, after which comes one that keeps the moment. -/
def KeptAfter (events before : List (Context × Event)) : Prop :=
  ∃ step later, events = before ++ step :: later ∧ step.2.keeps = true

theorem KeptAfter.length_lt {events before : List (Context × Event)} (h : KeptAfter events before) :
    before.length < events.length := by
  obtain ⟨step, later, rfl, _⟩ := h
  rw [List.length_append, List.length_cons]
  omega

theorem keptAfter_nil (before : List (Context × Event)) : ¬KeptAfter [] before := by
  intro h
  exact absurd h.length_lt (Nat.not_lt_zero _)

/-- One more event keeps one more moment, the one before it, if it keeps any. -/
theorem keptAfter_concat {events before : List (Context × Event)} {step : Context × Event} :
    KeptAfter (events ++ [step]) before ↔
      KeptAfter events before ∨ before = events ∧ step.2.keeps = true := by
  constructor
  · rintro ⟨kept, later, hevents, hkeeps⟩
    rcases List.eq_nil_or_concat later with rfl | ⟨later, last, rfl⟩
    · obtain ⟨hbefore, hlast⟩ := List.append_inj' hevents rfl
      exact Or.inr ⟨hbefore.symm, (List.singleton_inj.mp hlast) ▸ hkeeps⟩
    · rw [List.concat_eq_append, ← List.cons_append, ← List.append_assoc] at hevents
      exact Or.inl ⟨kept, later, (List.append_inj' hevents rfl).1, hkeeps⟩
  · rintro (⟨kept, later, rfl, hkeeps⟩ | ⟨rfl, hkeeps⟩)
    · exact ⟨kept, later ++ [step], by rw [List.append_assoc, List.cons_append], hkeeps⟩
    · exact ⟨step, [], rfl, hkeeps⟩

end Event

def Step.KeepsTurn : Step → Prop
  | scene f => ∀ s, (f s).turn = s.turn
  | duelist _ _ => True

theorem Scene.update_turn (s : Scene) (id : DuelistId) (f : Duelist → Duelist) :
    (s.update id f).turn = s.turn := by
  unfold update
  split
  · rfl
  · split <;> rfl

/-- A step of this kind leaves the history and the number of the turn alone. -/
theorem Step.KeepsTurn.act {s : Step} (h : s.KeepsTurn) (b : Battle) :
    (s.act b).1.history = b.history ∧ (s.act b).1.scene.turn = b.scene.turn := by
  constructor
  · rw [s.act_fst b]
  · cases s with
    | scene f => exact h b.scene
    | duelist id f =>
      cases hd : b.scene.duelist? id with
      | none => rw [Step.act_duelist_of_none hd]
      | some d =>
        rw [Step.act_duelist_of_some hd]
        exact b.scene.update_turn id _

/-- No step of a deed touches the number of the turn. -/
theorem Move.keepsTurn {ctx : Context} {s : Step} (h : Move ctx s) : s.KeepsTurn := by
  cases h with
  | weather => exact fun _ => rfl
  | sendOut id slot =>
    intro s
    unfold Scene.sendOut
    split <;> rfl
  | capture id chance =>
    intro s
    unfold Scene.capture
    split
    · rfl
    · dsimp only
      split
      · exact s.update_turn id _
      · exact s.update_turn id _
  | _ => exact trivial

/-- What was kept, and the number of the turn, are an invariant of every dispatch. -/
theorem invariant_past (ctx : Context) (history : List Scene) (turn : UInt32) :
    Invariant ctx (fun b => b.history = history ∧ b.scene.turn = turn) fun _ => True where
  atDepth := fun _ _ h => h
  steps := by
    intro _ _ deed _ _ _ s hs b h
    have hkeeps : s.KeepsTurn :=
      Deed.forall_steps (fun _ _ => rfl) (fun _ hmove => hmove.keepsTurn) deed s hs
    obtain ⟨hhistory, hturn⟩ := hkeeps.act b
    exact ⟨⟨hhistory.trans h.1, hturn.trans h.2⟩, fun _ _ _ _ _ => trivial⟩

namespace Event

variable (ctx : Context) (event : Event) (b : Battle)

/-- An event keeps the present moment or leaves the past as it is; the turn number grows by one at
the end of a turn, and otherwise stays. -/
theorem run_past :
    (event.run ctx b).history = (if event.keeps then b.scene :: b.history else b.history) ∧
    (event.run ctx b).scene.turn = if event.endsTurn then b.scene.turn + 1 else b.scene.turn := by
  cases event with
  | dispatch e => exact (invariant_past ctx _ _).dispatch trivial ⟨rfl, rfl⟩
  | resolve timing =>
    exact (invariant_past ctx (b.scene :: b.history) b.scene.turn).dispatchEach timing
      (fun _ _ => trivial) ⟨rfl, rfl⟩
  | advance phase => exact ⟨rfl, rfl⟩
  | endTurn =>
    -- The buffs are counted down with their answers, and only then does the number grow.
    let ticks : List Step :=
      [.board b.scene.own.id BuffBoard.tick, .board b.scene.opposing.id BuffBoard.tick]
    have hticks : ∀ s ∈ ticks, s.KeepsTurn :=
      List.forall_mem_cons.mpr ⟨trivial, List.forall_mem_singleton.mpr trivial⟩
    have hplay : (b.play ctx.answer ticks).history = b.history ∧
        (b.play ctx.answer ticks).scene.turn = b.scene.turn := by
      refine (invariant_past ctx b.history b.scene.turn).play (fun s hs c hc => ?_) ⟨rfl, rfl⟩
      obtain ⟨hh, ht⟩ := (hticks s hs).act c
      exact ⟨⟨hh.trans hc.1, ht.trans hc.2⟩, fun _ _ _ _ _ => trivial⟩
    obtain ⟨hhistory, hturn⟩ := hplay
    have hend : ctx.endTurn b = (b.play ctx.answer ticks).onScene Scene.nextTurn :=
      ctx.endTurn_eq_play b
    change (ctx.endTurn b).history = b.history ∧ (ctx.endTurn b).scene.turn = b.scene.turn + 1
    rw [hend]
    exact ⟨hhistory, congrArg (· + 1) hturn⟩

theorem run_depth : (event.run ctx b).depth = b.depth := by
  cases event with
  | advance phase => rfl
  | dispatch e => exact ((Call.dispatch e).runs ctx b).elim fun _ h => h.depth_eq
  | resolve timing => exact ((Call.resolve timing).runs ctx b).elim fun _ h => h.depth_eq
  | endTurn => exact (Call.endTurn.runs ctx b).elim fun _ h => h.depth_eq

end Event

namespace Battle

variable {b : Battle} {events before : List (Context × Event)} {turn : UInt32} {m : Moment}

theorem after_concat (b : Battle) (events : List (Context × Event)) (step : Context × Event) :
    b.after (events ++ [step]) = step.2.run step.1 (b.after events) := by
  unfold after
  rw [List.foldl_append]
  rfl

theorem after_depth (b : Battle) (events : List (Context × Event)) :
    (b.after events).depth = b.depth := by
  induction events using List.reverseRecOn with
  | nil => rfl
  | append_singleton events step ih => rw [after_concat, Event.run_depth, ih]

/-- As long as it does not run over, the turn number counts the ends of turns. -/
theorem after_turn (h : b.scene.turn.toNat + events.countP (·.2.endsTurn) < UInt32.size) :
    (b.after events).scene.turn.toNat = b.scene.turn.toNat + events.countP (·.2.endsTurn) := by
  induction events using List.reverseRecOn with
  | nil => rfl
  | append_singleton events step ih =>
    rw [List.countP_append, List.countP_singleton] at h ⊢
    have hbefore := ih (by omega)
    rw [after_concat, (Event.run_past _ _ _).2]
    cases hends : step.2.endsTurn with
    | false =>
      simp only [hends, Bool.false_eq_true, if_false] at h ⊢
      exact hbefore
    | true =>
      simp only [hends, if_true] at h ⊢
      rw [UInt32.toNat_add, hbefore, show (1 : UInt32).toNat = 1 from rfl,
        Nat.mod_eq_of_lt (by exact h), Nat.add_assoc]

/-- What is kept grows at its front, by the moment before the event. -/
theorem kept_after_concat (b : Battle) (events : List (Context × Event)) (step : Context × Event) :
    (b.after (events ++ [step])).kept = if step.2.keeps then
      (b.after events).now :: (b.after events).kept else (b.after events).kept := by
  unfold kept
  rw [after_concat, (Event.run_past _ _ _).1]
  split <;> rfl

/-- There is one kept moment for each event that keeps one. -/
theorem length_kept_after (b : Battle) (events : List (Context × Event)) :
    (b.after events).kept.length = b.kept.length + events.countP (·.2.keeps) := by
  induction events using List.reverseRecOn with
  | nil => rfl
  | append_singleton events step ih =>
    rw [kept_after_concat, List.countP_append, List.countP_singleton]
    cases step.2.keeps with
    | false =>
      simp only [Bool.false_eq_true, if_false]
      exact ih
    | true =>
      simp only [if_true]
      rw [List.length_cons, ih, Nat.add_assoc]

/-- A moment that was kept stands in its place among the kept ones, whatever comes later. -/
theorem kept_after_getElem? (h : Event.KeptAfter events before) :
    (b.after events).kept.reverse[b.kept.length + before.countP (·.2.keeps)]? =
      some (b.after before).now := by
  induction events using List.reverseRecOn with
  | nil => exact absurd h (Event.keptAfter_nil before)
  | append_singleton events step ih =>
    have hlength := length_kept_after b events
    rw [kept_after_concat]
    rcases Event.keptAfter_concat.mp h with hbefore | ⟨rfl, hkeeps⟩
    · have hplace := ih hbefore
      split
      · rw [List.reverse_cons]
        exact (List.getElem?_append_left (List.getElem?_eq_some_iff.mp hplace).1).trans hplace
      · exact hplace
    · rw [if_pos hkeeps, List.reverse_cons, ← hlength, ← List.length_reverse,
        List.getElem?_concat_length]

/-- The last of the events that keep the moment while the turn number is below a given one. -/
def LastBelow (b : Battle) (events : List (Context × Event)) (turn : UInt32)
    (before : List (Context × Event)) : Prop :=
  Event.KeptAfter events before ∧ (b.after before).scene.turn < turn ∧
    ∀ before', Event.KeptAfter events before' → before.length < before'.length →
      ¬(b.after before').scene.turn < turn

section Concat

variable {step : Context × Event}

/-- The moment that an event keeps is the last one before a turn when its own turn is earlier. -/
theorem lastBelow_concat_of_below (hkeeps : step.2.keeps = true)
    (hturn : (b.after events).scene.turn < turn) :
    b.LastBelow (events ++ [step]) turn before ↔ before = events := by
  have hlast : Event.KeptAfter (events ++ [step]) events :=
    Event.keptAfter_concat.mpr (Or.inr ⟨rfl, hkeeps⟩)
  constructor
  · rintro ⟨hkept, _, hno⟩
    rcases Event.keptAfter_concat.mp hkept with hbefore | ⟨hbefore, _⟩
    · exact absurd hturn (hno events hlast hbefore.length_lt)
    · exact hbefore
  · rintro rfl
    refine ⟨hlast, hturn, fun before' h hlater => ?_⟩
    have hshort := h.length_lt
    rw [List.length_append, List.length_singleton] at hshort
    omega

/-- An event that keeps no moment of an earlier turn leaves the last moment before that turn what it
was. -/
theorem lastBelow_concat_of_not
    (hnot : ¬(step.2.keeps = true ∧ (b.after events).scene.turn < turn)) :
    b.LastBelow (events ++ [step]) turn before ↔ b.LastBelow events turn before := by
  have hearlier (before : List (Context × Event)) (hturn : (b.after before).scene.turn < turn) :
      Event.KeptAfter (events ++ [step]) before ↔ Event.KeptAfter events before := by
    rw [Event.keptAfter_concat]
    refine or_iff_left ?_
    rintro ⟨rfl, hkeeps⟩
    exact hnot ⟨hkeeps, hturn⟩
  constructor
  · rintro ⟨hkept, hturn, hno⟩
    exact ⟨(hearlier before hturn).mp hkept, hturn, fun before' h =>
      hno before' (Event.keptAfter_concat.mpr (Or.inl h))⟩
  · rintro ⟨hkept, hturn, hno⟩
    exact ⟨(hearlier before hturn).mpr hkept, hturn, fun before' h hlater hbelow =>
      hno before' ((hearlier before' hbelow).mp h) hlater hbelow⟩

end Concat

/-- Looking back from any turn, one comes to the last of the moments that were kept below it. -/
theorem earlierTurn?_eq_some_iff (hb : b.history = []) :
    earlierTurn? turn (b.after events).history = some m ↔
      ∃ before, b.LastBelow events turn before ∧ m = (b.after before).now := by
  induction events using List.reverseRecOn with
  | nil =>
    have hnone : earlierTurn? turn (b.after []).history = none := congrArg (earlierTurn? turn) hb
    rw [hnone]
    constructor
    · exact nofun
    · rintro ⟨before, ⟨hkept, _⟩, _⟩
      exact absurd hkept (Event.keptAfter_nil before)
  | append_singleton events step ih =>
    rw [after_concat, (Event.run_past _ _ _).1]
    -- Only an event that keeps a moment of an earlier turn changes what is found.
    by_cases hkeeps : step.2.keeps = true
    · rw [if_pos hkeeps]
      by_cases hturn : (b.after events).scene.turn < turn
      · have hfound : earlierTurn? turn ((b.after events).scene :: (b.after events).history) =
            some (b.after events).now := if_pos hturn
        simp only [lastBelow_concat_of_below hkeeps hturn, exists_eq_left, hfound,
          Option.some.injEq]
        exact eq_comm
      · have hpassed : earlierTurn? turn ((b.after events).scene :: (b.after events).history) =
            earlierTurn? turn (b.after events).history := if_neg hturn
        simp only [lastBelow_concat_of_not fun h => hturn h.2, hpassed]
        exact ih
    · rw [if_neg hkeeps]
      simp only [lastBelow_concat_of_not fun h => hkeeps h.1]
      exact ih

/-- What is kept are the scenes before the events that keep one, and nothing else. -/
theorem mem_history_after (hb : b.history = []) {s : Scene} : s ∈ (b.after events).history ↔
    ∃ before, Event.KeptAfter events before ∧ s = (b.after before).scene := by
  induction events using List.reverseRecOn with
  | nil =>
    have hnone : s ∉ (b.after []).history := hb ▸ List.not_mem_nil
    exact iff_of_false hnone fun ⟨before, hkept, _⟩ => Event.keptAfter_nil before hkept
  | append_singleton events step ih =>
    rw [after_concat, (Event.run_past _ _ _).1]
    simp only [Event.keptAfter_concat, or_and_right, exists_or, ← ih]
    cases step.2.keeps with
    | false =>
      simp only [Bool.false_eq_true, if_false, and_false, false_and, exists_false, or_false]
    | true =>
      simp only [if_true, and_true, exists_eq_left, List.mem_cons]
      exact or_comm

/-- There is nothing to look back on when no kept scene is of an earlier turn. -/
theorem earlierTurn?_eq_none_iff {ss : List Scene} :
    earlierTurn? turn ss = none ↔ ∀ s ∈ ss, ¬s.turn < turn := by
  induction ss with
  | nil => exact iff_of_true rfl (List.forall_mem_nil _)
  | cons s ss ih =>
    unfold earlierTurn?
    by_cases hs : s.turn < turn
    · rw [if_pos hs]
      exact iff_of_false nofun fun h => h s List.mem_cons_self hs
    · rw [if_neg hs, ih, List.forall_mem_cons, and_iff_right hs]

/-- Going back from the present, turn numbers never grow. -/
theorem pairwise_turn_after (hb : b.history = [])
    (h : b.scene.turn.toNat + events.countP (·.2.endsTurn) < UInt32.size) :
    ((b.after events).scene :: (b.after events).history).Pairwise fun s t => t.turn ≤ s.turn := by
  induction events using List.reverseRecOn with
  | nil =>
    change (b.scene :: b.history).Pairwise _
    rw [hb]
    exact List.pairwise_singleton _ _
  | append_singleton events step ih =>
    have hcount : events.countP (·.2.endsTurn) ≤ (events ++ [step]).countP (·.2.endsTurn) :=
      (List.sublist_append_left events [step]).countP_le
    have hbefore := ih (by omega)
    -- The turn only goes up, as long as its number does not overflow.
    have hgrows : (b.after events).scene.turn ≤ (b.after (events ++ [step])).scene.turn := by
      rw [UInt32.le_iff_toNat_le, after_turn h, after_turn (by omega)]
      omega
    have hpast : ∀ t ∈ (b.after events).scene :: (b.after events).history,
        t.turn ≤ (b.after (events ++ [step])).scene.turn := by
      refine List.forall_mem_cons.mpr ⟨hgrows, fun t ht => ?_⟩
      exact UInt32.le_trans ((List.pairwise_cons.mp hbefore).1 t ht) hgrows
    have hhistory : (b.after (events ++ [step])).history = if step.2.keeps then
        (b.after events).scene :: (b.after events).history else (b.after events).history := by
      rw [after_concat]
      exact (Event.run_past _ _ _).1
    rw [hhistory]
    split
    · exact List.pairwise_cons.mpr ⟨hpast, hbefore⟩
    · exact List.pairwise_cons.mpr
        ⟨fun t ht => hpast t (List.mem_cons_of_mem _ ht), (List.pairwise_cons.mp hbefore).2⟩

end Battle

/-- Whatever is done to a duel from its first moment on, one moment is kept for each event that
keeps it, and it is the whole duel as it was then; going back, turn numbers never grow. The moment
of the last turn is the one that was kept last while the turn number was smaller than now, and there
is none exactly when every moment was kept in the present turn. -/
theorem past_is_kept (own opposing : Duelist) (events : List (Context × Event))
    (hturns : events.countP (·.2.endsTurn) < UInt32.size) :
    let first := Battle.new own opposing
    let b := first.after events
    b.kept.length = events.countP (·.2.keeps) ∧
    (∀ before, Event.KeptAfter events before →
      b.kept.reverse[before.countP (·.2.keeps)]? = some (first.after before).now ∧
        (first.after before).depth = 0) ∧
    (b.scene :: b.history).Pairwise (fun later earlier => earlier.turn ≤ later.turn) ∧
    (∀ m, b.now.last? = some m ↔ ∃ before, Event.KeptAfter events before ∧
      m = (first.after before).now ∧ m.scene.turn < b.scene.turn ∧
      ∀ before', Event.KeptAfter events before' → before.length < before'.length →
        (first.after before').scene.turn = b.scene.turn) ∧
    (b.now.last? = none ↔ ∀ before, Event.KeptAfter events before →
      (first.after before).scene.turn = b.scene.turn) := by
  intro first b
  have hcounted : first.scene.turn.toNat + events.countP (·.2.endsTurn) < UInt32.size := by
    change 0 + _ < _
    omega
  have hturns := Battle.pairwise_turn_after (b := first) rfl hcounted
  -- What is not below the present turn is in it, since no kept moment is ahead of the present.
  have hnow (before : List (Context × Event)) (h : Event.KeptAfter events before) :
      ¬(first.after before).scene.turn < b.scene.turn ↔
        (first.after before).scene.turn = b.scene.turn := by
    have hmem : (first.after before).scene ∈ b.history :=
      (Battle.mem_history_after rfl).mpr ⟨before, h, rfl⟩
    have hle := (List.pairwise_cons.mp hturns).1 _ hmem
    rw [UInt32.not_lt]
    exact ⟨fun hge => UInt32.le_antisymm hle hge, fun heq => heq ▸ UInt32.le_refl _⟩
  have hlength := Battle.length_kept_after first events
  refine ⟨?_, fun before h => ⟨?_, first.after_depth before⟩, hturns, fun m => ?_, ?_⟩
  · exact hlength.trans (Nat.zero_add _)
  · have hplace := Battle.kept_after_getElem? (b := first) h
    exact (congrArg (b.kept.reverse[·]?) (Nat.zero_add _)).symm.trans hplace
  · refine (Battle.earlierTurn?_eq_some_iff rfl).trans (exists_congr fun before => ?_)
    constructor
    · rintro ⟨⟨hkept, hturn, hno⟩, rfl⟩
      exact ⟨hkept, rfl, hturn, fun before' h hlater => (hnow before' h).mp (hno before' h hlater)⟩
    · rintro ⟨hkept, rfl, hturn, hno⟩
      refine ⟨⟨hkept, hturn, fun before' h hlater => ?_⟩, rfl⟩
      exact (hnow before' h).mpr (hno before' h hlater)
  · refine Battle.earlierTurn?_eq_none_iff.trans ?_
    constructor
    · intro hno before h
      exact (hnow before h).mp (hno _ ((Battle.mem_history_after rfl).mpr ⟨before, h, rfl⟩))
    · intro hall s hs
      obtain ⟨before, h, rfl⟩ := (Battle.mem_history_after rfl).mp hs
      exact (hnow before h).mpr (hall before h)

/-- Rain comes after the first moment was kept, and a skill of the second turn brings snow: what was
kept shows neither. Seen from the second turn the last one is the first moment. -/
theorem past_of_two_turns :
    let ctx : Context := ⟨⟨[], [], []⟩, {}⟩
    let brings (code : String) : Effect := .new .turnStart .setWeather ⟨[("weather", code)]⟩
    let own := (Duelist.new ⟨1⟩ [default] 0).choose (Skill.pass.withEffects [brings "4"])
    let opposing := Duelist.new ⟨2⟩ [default] 0
    let events : List (Context × Event) := [(ctx, .advance .attack),
      (ctx, .dispatch ((brings "2").actingFor ⟨2⟩)), (ctx, .endTurn), (ctx, .resolve .turnStart)]
    let first := Battle.new own opposing
    let b := first.after events
    events.countP (·.2.endsTurn) < UInt32.size ∧ b.scene.weather = .snow ∧ b.kept.length = 2 ∧
      b.kept.reverse[0]? = some first.now ∧
      b.kept.reverse[1]? = some (first.after (events.take 3)).now ∧
      (first.after (events.take 3)).scene.weather = .rain ∧ b.now.last? = some first.now ∧
      (b.scene :: b.history).Pairwise (fun later earlier => earlier.turn ≤ later.turn) := by
  intro ctx brings own opposing events first b
  have hfits : events.countP (·.2.endsTurn) < UInt32.size := by decide
  obtain ⟨hlength, hplace, hturns, -, -⟩ := past_is_kept own opposing events hfits
  have hfirst : Event.KeptAfter events [] := ⟨_, _, rfl, rfl⟩
  have hsecond : Event.KeptAfter events (events.take 3) := ⟨_, [], rfl, rfl⟩
  have htwo : events.countP (·.2.keeps) = 2 := rfl
  have hone : (events.take 3).countP (·.2.keeps) = 1 := rfl
  have hlast := (hplace (events.take 3) hsecond).1
  rw [hone] at hlast
  exact ⟨hfits, by decide +kernel, hlength.trans htwo, (hplace [] hfirst).1, hlast,
    by decide +kernel, by decide +kernel, hturns⟩

end PetDuel
