import PetDuel.Proofs.Handled
import PetDuel.Proofs.Readings
import PetDuel.Proofs.Sight

/-!
The two sides of a duel are treated alike. When the duelists change sides, effects do the same to
each of them, and outcomes are those seen from the other side. The slots that were sent out are kept
for the player's own side alone, and an escape is told from that of the opponent by who is acting.
-/

namespace PetDuel

def Outcome.mirror : Outcome → Outcome
  | win => lose
  | lose => win
  | ownEscape => opposingEscape
  | opposingEscape => ownEscape
  | o => o

def Scene.mirror (s : Scene) : Scene :=
  { s with own := s.opposing, opposing := s.own, outcome := s.outcome.mirror }

def Battle.mirror (b : Battle) : Battle :=
  { b with scene := b.scene.mirror, history := b.history.map Scene.mirror }

def Scene.Apart (s : Scene) : Prop := s.own.id ≠ s.opposing.id

instance (s : Scene) : Decidable s.Apart := inferInstanceAs (Decidable (s.own.id ≠ s.opposing.id))

structure Battle.Apart (b : Battle) : Prop where
  scene : b.scene.Apart
  history : ∀ s ∈ b.history, s.Apart

def Scene.HasActor (s : Scene) : Prop := (s.duelist? s.acting).isSome

/-- The second scene is the first one with the sides exchanged; nothing is said of the outcome and
of the slots that were sent out. -/
structure Scene.Mirrors (s t : Scene) : Prop where
  own : t.own = s.opposing
  opposing : t.opposing = s.own
  phase : t.phase = s.phase
  turn : t.turn = s.turn
  acting : t.acting = s.acting
  weather : t.weather = s.weather

/-- The second duel is the first one with the sides exchanged, but for the slots that were sent out.
The outcomes are each other's as long as it is certain who is acting. -/
structure Battle.Mirrors (certain : Prop) (b c : Battle) : Prop where
  apart : b.Apart
  actor : certain → b.scene.HasActor
  scene : b.scene.Mirrors c.scene
  outcome : certain → c.scene.outcome = b.scene.outcome.mirror
  history : c.history = b.history.map Scene.mirror
  depth : c.depth = b.depth

namespace Scene

variable {s t : Scene}

theorem apart_congr (h : t.ids = s.ids) (hs : s.Apart) : t.Apart := by
  have hown : t.own.id = s.own.id := congrArg Prod.fst h
  have hopposing : t.opposing.id = s.opposing.id := congrArg (fun ids => ids.2.1) h
  unfold Apart
  rw [hown, hopposing]
  exact hs

theorem hasActor_congr (h : t.ids = s.ids) (hs : s.HasActor) : t.HasActor := by
  have hacting : t.acting = s.acting := congrArg (fun ids => ids.2.2) h
  unfold HasActor
  rw [hacting, isSome_duelist?_congr h]
  exact hs

theorem mirror_mirrors (s : Scene) : s.Mirrors s.mirror := ⟨rfl, rfl, rfl, rfl, rfl, rfl⟩

/-- A number finds the same duelist on either side. -/
theorem Mirrors.duelist? (h : s.Mirrors t) (hs : s.Apart) (id : DuelistId) :
    s.duelist? id = t.duelist? id := by
  unfold Scene.duelist?
  rw [h.own, h.opposing]
  by_cases hid : s.own.id = id
  · rw [if_pos hid, if_neg fun ho => hs (hid.trans ho.symm), if_pos hid]
  · rw [if_neg hid, if_neg hid]

/-- Mirrored scenes look the same to an effect, which knows the duelists by number. -/
theorem Mirrors.sameSight (h : s.Mirrors t) (hs : s.Apart) : s.SameSight t where
  duelist? := fun id => h.duelist? hs id ▸ Duelist.sameSight_rel (s.duelist? id)
  rivalId? := by
    intro id
    unfold rivalId?
    rw [h.own, h.opposing]
    by_cases hid : s.own.id = id
    · rw [if_pos hid, if_neg fun ho => hs (hid.trans ho.symm), if_pos hid]
    · rw [if_neg hid, if_neg hid]
  phase := h.phase.symm
  turn := h.turn.symm
  weather := h.weather.symm

/-- The own side of one is the opposing side of the other. -/
theorem Mirrors.isOwn (h : s.Mirrors t) (hs : s.Apart) {id : DuelistId}
    (hid : (s.duelist? id).isSome) : t.isOwn id = !s.isOwn id := by
  unfold Scene.isOwn
  rw [h.own]
  rcases s.duelist?_cases id with ⟨hown, _, _⟩ | ⟨hown, hopposing, _, _⟩ | ⟨_, _, hd, _⟩
  · rw [beq_iff_eq.mpr hown, beq_eq_false_iff_ne.mpr fun ho => hs (hown.trans ho.symm)]
    rfl
  · rw [beq_iff_eq.mpr hopposing, beq_eq_false_iff_ne.mpr hown]
    rfl
  · rw [hd] at hid
    cases hid

/-- A change by number changes the same duelist on both sides of the mirror. -/
theorem Mirrors.update (h : s.Mirrors t) (hs : s.Apart) (id : DuelistId) (f : Duelist → Duelist) :
    (s.update id f).Mirrors (t.update id f) := by
  rcases s.duelist?_cases id with
    ⟨hown, _, hu⟩ | ⟨hown, hopposing, _, hu⟩ | ⟨hown, hopposing, _, hu⟩
  · have htown : t.own.id ≠ id := fun ho => hs (hown.trans (h.own ▸ ho).symm)
    have htopposing : t.opposing.id = id := h.opposing ▸ hown
    rw [hu, Scene.update, if_neg htown, if_pos htopposing]
    exact ⟨h.own, congrArg f h.opposing, h.phase, h.turn, h.acting, h.weather⟩
  · have htown : t.own.id = id := h.own ▸ hopposing
    rw [hu, Scene.update, if_pos htown]
    exact ⟨congrArg f h.own, h.opposing, h.phase, h.turn, h.acting, h.weather⟩
  · have htown : t.own.id ≠ id := h.own ▸ hopposing
    have htopposing : t.opposing.id ≠ id := h.opposing ▸ hown
    rw [hu, Scene.update, if_neg htown, if_neg htopposing]
    exact h

theorem outcome_update (s : Scene) (id : DuelistId) (f : Duelist → Duelist) :
    (s.update id f).outcome = s.outcome := by
  unfold update
  split
  · rfl
  · split <;> rfl

theorem Mirrors.finish (h : s.Mirrors t) (o o' : Outcome) : (s.finish o).Mirrors (t.finish o') := by
  unfold Scene.finish
  rw [h.own, h.opposing]
  exact ⟨rfl, rfl, rfl, h.turn, h.acting, h.weather⟩

end Scene

def Step.Mirrored (certain : Prop) (s t : Step) : Prop :=
  Step.Alike (Battle.Mirrors certain) (fun _ => True) s t

namespace Battle

variable {certain : Prop} {b c : Battle}

/-- A step does alike on both sides of the mirror, if it keeps the numbers and does alike to the
scenes. -/
theorem Mirrors.act (h : b.Mirrors certain c) {s t : Step} (hs : s.KeepsIds)
    (hscene : (s.act b).1.scene.Mirrors (t.act c).1.scene)
    (houtcome : certain → (t.act c).1.scene.outcome = (s.act b).1.scene.outcome.mirror) :
    (s.act b).1.Mirrors certain (t.act c).1 := by
  have hids := hs.act b
  rw [s.act_fst b, t.act_fst c]
  exact
    { apart := ⟨Scene.apart_congr hids h.apart.scene, h.apart.history⟩
      actor := fun hc => Scene.hasActor_congr hids (h.actor hc)
      scene := hscene
      outcome := houtcome
      history := h.history
      depth := h.depth }

theorem alike_scene {f g : Scene → Scene} (hids : ∀ s, (f s).ids = s.ids)
    (hscene : ∀ s t : Scene, s.Apart → s.Mirrors t → (f s).Mirrors (g t))
    (houtcome : certain → ∀ s t : Scene, s.Apart → s.Mirrors t →
      t.outcome = s.outcome.mirror → (g t).outcome = (f s).outcome.mirror) :
    Step.Mirrored certain (.scene f) (.scene g) := by
  intro b c h
  have hkeeps : (Step.scene f).KeepsIds := hids
  have hmirrors : ((Step.scene f).act b).1.Mirrors certain ((Step.scene g).act c).1 :=
    h.act hkeeps (hscene _ _ h.apart.scene h.scene) fun hc =>
      houtcome hc _ _ h.apart.scene h.scene (h.outcome hc)
  exact ⟨hmirrors, rfl, fun _ _ _ _ _ => trivial⟩

/-- A step on a duelist finds it by number, so the mirror does not matter. -/
theorem alike_duelist (id : DuelistId) {f : Duelist → Duelist × BuffChange}
    (hf : ∀ d, (f d).1.id = d.id) :
    Step.Mirrored certain (.duelist id f) (.duelist id f) := by
  intro b c h
  have hfound := h.scene.duelist? h.apart.scene id
  cases hd : b.scene.duelist? id with
  | none =>
    rw [Step.act_duelist_of_none hd, Step.act_duelist_of_none (hfound.symm.trans hd)]
    exact ⟨h, rfl, fun _ _ _ _ _ => trivial⟩
  | some d =>
    have hc := hfound.symm.trans hd
    refine ⟨h.act hf ?_ fun hcertain => ?_, ?_, fun _ _ _ _ _ => trivial⟩
    · rw [Step.act_duelist_of_some hd, Step.act_duelist_of_some hc]
      exact h.scene.update h.apart.scene id fun _ => (f d).1
    · rw [Step.act_duelist_of_some hd, Step.act_duelist_of_some hc]
      change (c.scene.update id _).outcome = (b.scene.update id _).outcome.mirror
      rw [Scene.outcome_update, Scene.outcome_update]
      exact h.outcome hcertain
    · rw [Step.act_duelist_of_some hd, Step.act_duelist_of_some hc]

/-- A capture finds its duelist by number, and what it ends the duel with has no side. -/
theorem alike_capture (id : DuelistId) (chance : Double) :
    Step.Mirrored certain (.scene (Scene.capture id chance))
      (.scene (Scene.capture id chance)) := by
  refine alike_scene (Scene.capture_ids id chance) (fun s t hs h => ?_) fun _ s t hs h ho => ?_
  · unfold Scene.capture
    rw [← h.duelist? hs id]
    cases s.duelist? id with
    | none => exact h
    | some d =>
      dsimp only
      split
      · exact (h.update hs id _).finish _ _
      · exact h.update hs id _
  · unfold Scene.capture
    rw [← h.duelist? hs id]
    cases s.duelist? id with
    | none => exact ho
    | some d =>
      dsimp only
      split
      · rfl
      · rw [Scene.outcome_update, Scene.outcome_update]
        exact ho

/-- A slot counts as sent out on the own side only. The lists of both scenes are left out of the
comparison. -/
theorem alike_sendOut (id : DuelistId) (slot : Nat) :
    Step.Mirrored certain (.scene (Scene.sendOut id slot)) (.scene (Scene.sendOut id slot)) := by
  refine alike_scene (Scene.sendOut_ids id slot) (fun s t _ h => ?_) fun _ s t _ _ ho => ?_
  · unfold Scene.sendOut
    split <;> split <;> exact ⟨h.own, h.opposing, h.phase, h.turn, h.acting, h.weather⟩
  · unfold Scene.sendOut
    split <;> split <;> exact ho

theorem alike_weather (w : Weather) :
    Step.Mirrored certain (.scene fun s => { s with weather := w })
      (.scene fun s => { s with weather := w }) :=
  alike_scene (fun _ => rfl)
    (fun _ _ _ h => ⟨h.own, h.opposing, h.phase, h.turn, h.acting, rfl⟩) fun _ _ _ _ _ ho => ho

theorem alike_finish {o o' : Outcome} (ho : certain → o' = o.mirror) :
    Step.Mirrored certain (.scene fun s => s.finish o) (.scene fun s => s.finish o') :=
  alike_scene (fun _ => rfl) (fun _ _ _ h => h.finish o o') fun hc _ _ _ _ _ => ho hc

/-- Every step that a deed is made of does alike on both sides. -/
theorem alike_move {ctx : Context} {s : Step} (h : Move ctx s) :
    Step.Mirrored certain s s := by
  have hids := h.keepsIds
  cases h with
  | capture id chance => exact alike_capture id chance
  | sendOut id slot => exact alike_sendOut id slot
  | weather w => exact alike_weather w
  | comeOut id | credit id | setTurn id | useSkill id | moveStages id | setHp id | enrage id
  | addStats id | block id | shiftStages id | resetStage id | removeListed id | writeFighter id
  | add id | addEach id | removeEach id | removeBoth id | removeWhere id | writeBuff id =>
    exact alike_duelist id hids

theorem Mirrors.now (h : b.Mirrors certain c) : b.now.SameSight c.now where
  scene := h.scene.sameSight h.apart.scene
  history := by
    change List.Forall₂ Scene.SameSight b.history c.history
    rw [h.history, List.forall₂_map_right_iff]
    exact List.forall₂_same.mpr fun s hs => s.mirror_mirrors.sameSight (h.apart.history s hs)

/-- A win is refused on both sides, or its outcome on one is the mirror of that on the other. -/
theorem Mirrors.decideWin (h : b.Mirrors certain c) (e : Effect) :
    (e.decideWin b.now = none ∧ e.decideWin c.now = none) ∨
      ∃ o, e.decideWin b.now = some (.finish o) ∧ e.decideWin c.now = some (.finish o.mirror) := by
  have hsight := h.now.scene
  unfold Effect.decideWin
  rw [← hsight.named?]
  cases hid : b.now.scene.named? e "who" "me" with
  | none => exact Or.inl ⟨rfl, rfl⟩
  | some id =>
    -- The duelist that wins is the same one, and it is on the own side once.
    refine Or.inr ⟨_, rfl, ?_⟩
    have hflip := h.scene.isOwn h.apart.scene (Scene.isSome_duelist?_of_named? hid)
    change some (Deed.finish (if c.scene.isOwn id then .win else .lose)) =
      some (Deed.finish (if b.scene.isOwn id then Outcome.win else .lose).mirror)
    rw [hflip]
    cases b.scene.isOwn id <;> rfl

/-- The outcome of an escape is mirrored too, if the one who acts is one of the two. -/
theorem Mirrors.decideEscape (h : b.Mirrors certain c) :
    ∃ o o', Effect.decideEscape b.now = some (.finish o) ∧
      Effect.decideEscape c.now = some (.finish o') ∧ (certain → o' = o.mirror) := by
  refine ⟨_, _, rfl, rfl, fun hc => ?_⟩
  have hflip := h.scene.isOwn h.apart.scene (h.actor hc)
  change (if c.scene.isOwn c.scene.acting then Outcome.ownEscape else .opposingEscape) =
    (if b.scene.isOwn b.scene.acting then Outcome.ownEscape else .opposingEscape).mirror
  rw [h.scene.acting, hflip]
  cases b.scene.isOwn b.scene.acting <;> rfl

/-- The mirror is a simulation for every effect. -/
theorem mirrors_simulation (ctx : Context) (certain : Prop) :
    Simulation ctx (Mirrors certain) fun _ => True where
  depth := fun b c h => h.depth.symm
  atDepth := fun n b c h =>
    ⟨⟨h.apart.scene, h.apart.history⟩, h.actor, h.scene, h.outcome, h.history, rfl⟩
  decide := by
    intro e b c _ h
    have hfinish {o o' : Outcome} (ho : certain → o' = o.mirror) :
        List.Forall₂ (Step.Mirrored certain) ((Deed.finish o).steps ctx)
          ((Deed.finish o').steps ctx) :=
      .cons (alike_finish ho) .nil
    by_cases hwin : e.ability = .win
    · simp only [Effect.decide?, hwin]
      rcases h.decideWin e with ⟨hb, hc⟩ | ⟨o, hb, hc⟩
      · rw [hb, hc]
        exact .none
      · rw [hb, hc]
        exact .some ⟨rfl, hfinish fun _ => rfl⟩
    by_cases hescape : e.ability = .escape
    · simp only [Effect.decide?, hescape]
      obtain ⟨o, o', hb, hc, ho⟩ := h.decideEscape
      rw [hb, hc]
      exact .some ⟨rfl, hfinish ho⟩
    -- Every other effect comes to one deed, which is carried out by duelists found by number.
    rw [← Effect.decide?_congr (h.now.at e) hwin hescape]
    cases hdecide : e.decide? ctx b.now with
    | none => exact .none
    | some deed =>
      refine .some ⟨h.now.scene.possible deed, List.forall₂_same.mpr ?_⟩
      rcases deed.moves ctx with ⟨o, rfl⟩ | hmoves
      · rcases Effect.aimed_of_decide? hdecide with ha | ha
        · exact absurd ha hwin
        · exact absurd ha hescape
      · exact fun s hs => alike_move (hmoves s hs)

theorem mirrors_mirror (h : b.Apart) : b.Mirrors b.scene.HasActor b.mirror where
  apart := h
  actor := id
  scene := b.scene.mirror_mirrors
  outcome := fun _ => rfl
  history := rfl
  depth := rfl

end Battle

/-- Effects and phases treat the two sides alike: what they do to a duel with the sides exchanged is
what they do to the duel, with the sides exchanged. -/
theorem sides_symmetric (ctx : Context) (b : Battle) (h : b.Apart) :
    (∀ e, (ctx.dispatch e b.mirror).1 = (ctx.dispatch e b).1 ∧
      (ctx.dispatch e b).2.Mirrors b.scene.HasActor (ctx.dispatch e b.mirror).2) ∧
    ∀ timing, (ctx.resolve timing b.mirror).1 = (ctx.resolve timing b).1 ∧
      (ctx.resolve timing b).2.Mirrors b.scene.HasActor (ctx.resolve timing b.mirror).2 := by
  have sim := Battle.mirrors_simulation ctx b.scene.HasActor
  refine ⟨fun e => ?_, fun timing => ?_⟩
  · obtain ⟨hhandled, hbattle⟩ := sim.dispatch (e := e) trivial (Battle.mirrors_mirror h)
    exact ⟨hhandled.symm, hbattle⟩
  · have hadvanced : (b.advance timing).Apart :=
      ⟨h.scene, List.forall_mem_cons.mpr ⟨h.scene, h.history⟩⟩
    have hmirrors : (b.advance timing).Mirrors b.scene.HasActor (b.mirror.advance timing) :=
      Battle.mirrors_mirror hadvanced
    -- The order of the duelists is that of who acts first, which is the same on both sides.
    have hes : (b.advance timing).scene.effectsAt timing =
        (b.mirror.advance timing).scene.effectsAt timing :=
      hmirrors.now.scene.effectsAt rfl timing
    unfold Context.resolve
    dsimp only
    rw [← hes]
    have hall : ∀ e ∈ (b.advance timing).scene.effectsAt timing, True := fun _ _ => trivial
    obtain ⟨hcount, hbattle⟩ :=
      sim.dispatchEach (fun _ _ hm => hm.scene.phase.symm) timing hall hmirrors
    exact ⟨hcount.symm, hbattle⟩

/-- An escape of the first of two duelists, seen from either side. -/
theorem escape_symmetric :
    let ctx : Context := ⟨.empty, {}⟩
    let b := Battle.new (.new ⟨1⟩ [default] 0) (.new ⟨2⟩ [default] 0)
    let e := Effect.new .attack .escape .empty
    b.Apart ∧ b.scene.HasActor ∧ (ctx.dispatch e b.mirror).1 = (ctx.dispatch e b).1 ∧
      (ctx.dispatch e b.mirror).2.scene.outcome = (ctx.dispatch e b).2.scene.outcome.mirror := by
  intro ctx b e
  have hapart : b.Apart := ⟨by decide, List.forall_mem_nil _⟩
  have hactor : b.scene.HasActor := rfl
  obtain ⟨hhandled, hmirrors⟩ := (sides_symmetric ctx b hapart).1 e
  exact ⟨hapart, hactor, hhandled, hmirrors.outcome hactor⟩

/-- When somebody else than the two is acting, an escape counts as that of the opponent on either
side. -/
theorem escape_of_nobody_not_mirrored :
    let ctx : Context := ⟨.empty, {}⟩
    let b := (Battle.new (.new ⟨0⟩ [] 0) (.new ⟨1⟩ [] 0)).onScene fun s => { s with acting := ⟨9⟩ }
    let e := (Effect.new .attack .escape .empty).actingFor ⟨1⟩
    b.Apart ∧ (ctx.dispatch e b.mirror).2.scene.outcome ≠
      (ctx.dispatch e b).2.scene.outcome.mirror := by
  intro ctx b e
  exact ⟨⟨by decide, List.forall_mem_nil _⟩, by decide⟩

end PetDuel
