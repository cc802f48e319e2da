import PetDuel.Proofs.Course
import PetDuel.Proofs.Draws
import PetDuel.Proofs.Quiet
import PetDuel.Proofs.Sight

/-!
Chance is confined. As long as the coming and the leaving of buffs is answered without a draw, an
effect moves a random stream only when it asks for a draw, and then only that of the duelist it
draws for. What an effect without a draw does cannot depend on the streams.
-/

namespace PetDuel

/-- The coming and the leaving of such buffs is answered without a draw. -/
def BuffTemplate.AnswersUndrawn (t : BuffTemplate) : Prop :=
  ∀ e ∈ t.effects, e.timing = .buffAdded ∨ e.timing = .buffRemoved → ¬e.Draws

instance (t : BuffTemplate) : Decidable t.AnswersUndrawn :=
  inferInstanceAs (Decidable (∀ e ∈ t.effects, _ → _))

def Scene.SameButStreams (s t : Scene) : Prop := t = s.withStreams t.streams

structure Battle.SameButStreams (b c : Battle) : Prop where
  scene : b.scene.SameButStreams c.scene
  history : List.Forall₂ Scene.SameButStreams b.history c.history
  depth : c.depth = b.depth

/-- Two duels that are the same but for the streams, which are settled for either of them. -/
structure Battle.Restreamed (r r' : Random.Stream × Random.Stream) (b c : Battle) : Prop where
  streams : b.scene.streams = r
  scene : c.scene = b.scene.withStreams r'
  history : List.Forall₂ Scene.SameButStreams b.history c.history
  depth : c.depth = b.depth

namespace Scene

variable (s : Scene) (r : Random.Stream × Random.Stream) (id : DuelistId)

/-- Other streams do not change which duelist has a number, nor anything about it but its stream. -/
theorem duelist?_withStreams : Option.Rel (fun d e => ∃ stream, e = { d with stream })
    (s.duelist? id) ((s.withStreams r).duelist? id) := by
  change Option.Rel _ _ (if s.own.id = id then _ else if s.opposing.id = id then _ else none)
  unfold duelist?
  split
  · exact .some ⟨r.1, rfl⟩
  · split
    · exact .some ⟨r.2, rfl⟩
    · exact .none

/-- No effect sees the streams. -/
theorem sameSight_withStreams : s.SameSight (s.withStreams r) where
  duelist? := by
    intro id
    have hrel := s.duelist?_withStreams r id
    generalize s.duelist? id = o, (s.withStreams r).duelist? id = p at hrel
    cases hrel with
    | none => exact .none
    | some h =>
      obtain ⟨stream, rfl⟩ := h
      exact .some ⟨rfl, rfl, rfl⟩
  rivalId? := fun _ => rfl
  phase := rfl
  turn := rfl
  weather := rfl

end Scene

namespace Step.Blind

variable {step : Step}

/-- A blind step does the same under other streams, and hands them on as they are. -/
theorem move_withStreams (h : step.Blind) (s : Scene) (r : Random.Stream × Random.Stream) :
    step.move (s.withStreams r) = (step.move s).withStreams r := by
  cases step with
  | scene f => exact h s r
  | duelist id f =>
    change (s.withStreams r).update id (fun d => (f d).1) =
      (s.update id fun d => (f d).1).withStreams r
    unfold Scene.update
    by_cases hown : s.own.id = id
    · rw [if_pos hown, if_pos (show (s.withStreams r).own.id = id from hown)]
      have hf := congrArg Prod.fst (h s.own r.1)
      exact congrArg (fun d => { s.withStreams r with own := d }) hf
    · rw [if_neg hown, if_neg (show ¬(s.withStreams r).own.id = id from hown)]
      by_cases hopposing : s.opposing.id = id
      · rw [if_pos hopposing, if_pos (show (s.withStreams r).opposing.id = id from hopposing)]
        have hf := congrArg Prod.fst (h s.opposing r.2)
        exact congrArg (fun d => { s.withStreams r with opposing := d }) hf
      · rw [if_neg hopposing, if_neg (show ¬(s.withStreams r).opposing.id = id from hopposing)]

theorem streams_move (h : step.Blind) (s : Scene) : (step.move s).streams = s.streams :=
  -- A scene is itself with its own streams.
  calc (step.move s).streams = ((step.move s).withStreams s.streams).streams :=
        congrArg Scene.streams (h.move_withStreams s s.streams)
    _ = s.streams := rfl

/-- Blind steps do alike to duels that differ in their streams alone. -/
theorem alike (h : step.Blind) {r r' : Random.Stream × Random.Stream} :
    Step.Alike (Battle.Restreamed r r') (fun _ => True) step step := by
  intro b c hbc
  refine ⟨?_, ?_, fun _ _ _ _ _ => trivial⟩
  · rw [act_fst_eq_move, act_fst_eq_move]
    refine ⟨(h.streams_move b.scene).trans hbc.streams, ?_, hbc.history, hbc.depth⟩
    change step.move c.scene = _
    rw [hbc.scene, h.move_withStreams]
  · cases step with
    | scene f => rfl
    | duelist id f =>
      rw [act_duelist_snd, act_duelist_snd, hbc.scene]
      have hrel := b.scene.duelist?_withStreams r' id
      generalize b.scene.duelist? id = o, (b.scene.withStreams r').duelist? id = p at hrel
      cases hrel with
      | none => rfl
      | @some d e hd =>
        obtain ⟨stream, rfl⟩ := hd
        rw [Option.map_some, Option.map_some, congrArg Prod.snd (h d stream)]

end Step.Blind

theorem BuffTemplate.AnswersUndrawn.stable :
    Buff.Stable fun x => x.template.AnswersUndrawn := by
  intro x y hxy hx
  rw [hxy.template]
  exact hx

def Licence.undrawn : Licence := .bearing _ BuffTemplate.AnswersUndrawn.stable

/-- What answers the coming and leaving of such buffs draws nothing. -/
theorem BuffChange.Bears.not_draws_of_mem_answers {change : BuffChange}
    (h : change.Bears Licence.undrawn.bears) (id : DuelistId) :
    ∀ e ∈ change.answers id, ¬e.Draws := by
  have hfires {x : Buff} (hx : x.template.AnswersUndrawn) {timing : Timing}
      (htiming : timing = .buffAdded ∨ timing = .buffRemoved) :
      ∀ e ∈ x.effectsAt timing id, ¬e.Draws := by
    refine List.forall_mem_map.mpr fun e he => ?_
    obtain ⟨hmem, hfilter⟩ := List.mem_filter.mp he
    have htime : e.timing = timing := beq_iff_eq.mp hfilter
    exact hx e hmem (htime ▸ htiming)
  refine List.forall_mem_append.mpr ⟨?_, ?_⟩
  · exact List.forall_mem_flatMap.mpr fun x hx => hfires (h.2 x hx) (Or.inr rfl)
  · exact List.forall_mem_flatMap.mpr fun x hx => hfires (h.1 x hx) (Or.inl rfl)

namespace Battle

variable {b c : Battle} {r r' : Random.Stream × Random.Stream}

theorem Restreamed.refl (b : Battle) : b.Restreamed b.scene.streams b.scene.streams b where
  streams := rfl
  scene := rfl
  history := List.forall₂_same.mpr fun _ _ => rfl
  depth := rfl

theorem SameButStreams.restreamed (h : b.SameButStreams c) :
    b.Restreamed b.scene.streams c.scene.streams c := ⟨rfl, h.scene, h.history, h.depth⟩

namespace Restreamed

theorem sameButStreams (h : b.Restreamed r r' c) : b.SameButStreams c := by
  refine ⟨?_, h.history, h.depth⟩
  rw [h.scene]
  rfl

theorem now (h : b.Restreamed r r' c) : b.now.SameSight c.now where
  scene := by
    change b.scene.SameSight c.scene
    rw [h.scene]
    exact b.scene.sameSight_withStreams r'
  history := by
    refine List.Forall₂.imp (fun s t hst => ?_) h.history
    rw [show t = s.withStreams t.streams from hst]
    exact s.sameSight_withStreams t.streams

end Restreamed

end Battle

section Confined

variable {ctx : Context} {r r' : Random.Stream × Random.Stream}
  (hcatalog : ∀ id t, ctx.catalog.buff? id = some t → t.AnswersUndrawn)

include hcatalog

/-- Effects that draw nothing are read alike and carried out alike whatever the streams are, and
leave them. -/
theorem restreamed_simulation :
    Simulation ctx (fun b c => b.Restreamed r r' c ∧ b.scene.Licensed .undrawn)
      fun e => ¬e.Draws := by
  refine .bearing (fun _ hchange => hchange.not_draws_of_mem_answers)
    (fun id t ht _ _ => hcatalog id t ht) (fun b c h => h.depth.symm)
    (fun _ _ _ h => ⟨h.streams, h.scene, h.history, rfl⟩) fun e b c he h => ?_
  have hown : b.scene.isOwn = c.scene.isOwn := by
    rw [h.scene]
    rfl
  have hacting : b.scene.acting = c.scene.acting := by
    rw [h.scene]
    rfl
  rw [← Effect.decide?_congr_of_sides (h.now.at e) hown hacting]
  cases hread : e.decide? ctx b.now with
  | none => exact .none
  | some deed =>
    have hblind := Deed.blind_steps ctx fun id hdraws =>
      he (Effect.draws_of_decide? hread hdraws).1
    refine .some ⟨h.now.scene.possible deed, ?_⟩
    exact List.forall₂_same.mpr fun step hstep => (hblind step hstep).alike

/-- Steps that are blind, and whose answers draw nothing, keep two duels the same but for the
streams. -/
theorem restreamed_play {steps : List Step} (hblind : ∀ step ∈ steps, step.Blind)
    (hobey : ∀ step ∈ steps, step.Obeys .undrawn) {b c : Battle} (h : b.Restreamed r r' c)
    (hb : b.scene.Licensed .undrawn) :
    (b.play ctx.answer steps).Restreamed r r' (c.play ctx.answer steps) := by
  have halike : List.Forall₂ (Step.Alike
      (fun b c => b.Restreamed r r' c ∧ b.scene.Licensed .undrawn) fun e => ¬e.Draws) steps steps :=
    List.forall₂_same.mpr fun step hstep => (hblind step hstep).alike.bearing
      (fun _ hchange => hchange.not_draws_of_mem_answers) (hobey step hstep)
  exact (Battle.play_alike halike (restreamed_simulation hcatalog).answer ⟨h, hb⟩).1

/-- What answers the coming and the leaving of buffs leaves the streams. -/
theorem streams_answer {b : Battle} (hb : b.scene.Licensed .undrawn) {change : BuffChange}
    (hchange : change.Bears Licence.undrawn.bears) (id : DuelistId) :
    (ctx.answer id change b).scene.streams = b.scene.streams :=
  ((restreamed_simulation hcatalog).answer id change b b (hchange.not_draws_of_mem_answers id)
    ⟨.refl b, hb⟩).1.streams

/-- Whatever answers a step draws nothing, so the streams after it are those that the step itself
leaves. -/
theorem streams_play {b : Battle} {step : Step} (hstep : step.Obeys .undrawn)
    (hb : b.scene.Licensed .undrawn) :
    (step.play ctx.answer b).scene.streams = (step.act b).1.scene.streams := by
  obtain ⟨hbecomes, hbears⟩ := hstep.act hb
  unfold Step.play
  rcases hact : step.act b with ⟨b', _ | ⟨id, change⟩⟩
  · rfl
  · rw [hact] at hbecomes
    exact streams_answer hcatalog hbecomes.licensed (hbears id change (congrArg Prod.snd hact)) id

/-- Whatever is dispatched, the streams stay, unless the effect asks for a draw; then it draws from
the stream that it says. -/
theorem dispatch_streams {b : Battle} (hb : b.scene.Licensed .undrawn) (e : Effect) :
    (ctx.dispatch e b).2.scene.streams = b.scene.streams ∨ ∃ id, e.Draws ∧
      e.drawer? b.scene = some id ∧ b.scene.DrawnBy id (ctx.dispatch e b).2.scene := by
  have hlicensed : ctx.catalog.Licensed .undrawn :=
    ⟨fun id t ht _ _ => hcatalog id t ht, fun _ _ _ _ _ => trivial⟩
  have hplay := ctx.dispatchWith_snd ctx.answer_idle e b
  cases hread : e.decide? ctx b.now with
  | none =>
    rw [Context.dispatch_of_decide?_eq_none hread]
    exact Or.inl rfl
  | some deed =>
    rw [hread] at hplay
    change (ctx.dispatch e b).2 = b.play ctx.answer (deed.steps ctx) at hplay
    rw [hplay]
    have hobey := Deed.obeys_steps hlicensed <|
      Effect.licensed_of_decide? hlicensed hb trivial hread
    -- A deed that draws is one step, and all steps of the other deeds are blind to the streams.
    by_cases hdraws : ∃ id, deed.DrawsFor id
    · obtain ⟨id, hid⟩ := hdraws
      obtain ⟨step, hsteps, hdrawn⟩ := Deed.drawn_step ctx hid
      obtain ⟨he, hdrawer⟩ := Effect.draws_of_decide? hread hid
      rw [hsteps] at hobey ⊢
      have hanswered := streams_play hcatalog (hobey step List.mem_cons_self) hb
      exact Or.inr ⟨id, he, hdrawer, (hdrawn b).congr hanswered⟩
    · have hblind := Deed.blind_steps ctx (not_exists.mp hdraws)
      exact Or.inl (restreamed_play hcatalog hblind hobey (.refl b) hb).streams

end Confined

/-- Chance is confined. An effect that draws nothing leaves both streams, and what it does is the
same for any streams. An effect that draws moves at most the stream of the duelist it draws for, and
leaves the seed of this one too. -/
theorem draws_confined {ctx : Context} {b : Battle}
    (hboards : ∀ f ∈ b.scene.fighters, ∀ x ∈ f.board.active, x.template.AnswersUndrawn)
    (hcatalog : ∀ id t, ctx.catalog.buff? id = some t → t.AnswersUndrawn) (e : Effect) :
    (¬e.Draws → (ctx.dispatch e b).2.scene.streams = b.scene.streams ∧
      ∀ c, b.SameButStreams c → (ctx.dispatch e b).1 = (ctx.dispatch e c).1 ∧
        (ctx.dispatch e b).2.SameButStreams (ctx.dispatch e c).2) ∧
    (e.Draws → (ctx.dispatch e b).2.scene.streams = b.scene.streams ∨
      ∃ id, e.drawer? b.scene = some id ∧ b.scene.DrawnBy id (ctx.dispatch e b).2.scene) := by
  have hb : b.scene.Licensed .undrawn := Scene.licensed_bearing hboards
  refine ⟨fun he => ⟨?_, fun c hc => ?_⟩, fun _ => ?_⟩
  · rcases dispatch_streams hcatalog hb e with hstreams | ⟨_, hdraws, _⟩
    · exact hstreams
    · exact absurd hdraws he
  · obtain ⟨hhandled, hresult, -⟩ :=
      (restreamed_simulation hcatalog).dispatch he ⟨hc.restreamed, hb⟩
    exact ⟨hhandled, hresult.sameButStreams⟩
  · rcases dispatch_streams hcatalog hb e with hstreams | ⟨id, _, hdrawer, hdrawn⟩
    · exact Or.inl hstreams
    · exact Or.inr ⟨id, hdrawer, hdrawn⟩

/-- A buff tries to capture at the end of each turn, and only enrages when it comes. Adding it draws
nothing, and a random rise of the opponent leaves the stream of the own side. -/
theorem draws_confined_to_named :
    let enrage := Effect.new .buffAdded .rage ⟨[("add", "5")]⟩
    let capture := Effect.new .turnEnd .capture ⟨[("prob", "50")]⟩
    let template : BuffTemplate :=
      { (default : BuffTemplate) with id := 7, effects := [enrage, capture] }
    let ctx : Context := ⟨⟨[template], [], []⟩, {}⟩
    let f := { (default : Fighter) with board := (BuffBoard.empty.push (.ofTemplate template)).1 }
    let b := Battle.new (.new ⟨1⟩ [f] 5) (.new ⟨2⟩ [default] 5)
    let add := (Effect.new .attack .addBuff ⟨[("id", "7")]⟩).actingFor ⟨1⟩
    let raise := (Effect.new .attack .raiseStages
      ⟨[("who", "op"), ("atk", "1"), ("spd", "1"), ("random", "true"),
        ("random_pdf", "uniform")]⟩).actingFor ⟨1⟩
    (∀ f ∈ b.scene.fighters, ∀ x ∈ f.board.active, x.template.AnswersUndrawn) ∧
      (∀ id t, ctx.catalog.buff? id = some t → t.AnswersUndrawn) ∧ capture.Draws ∧
      ¬add.Draws ∧ (ctx.dispatch add b).2.scene.streams = b.scene.streams ∧
      raise.Draws ∧ (ctx.dispatch raise b).2.scene.own.stream = b.scene.own.stream := by
  intro enrage capture template ctx f b add raise
  have hboards : ∀ f ∈ b.scene.fighters, ∀ x ∈ f.board.active, x.template.AnswersUndrawn := by
    decide
  have hcatalog : ∀ id t, ctx.catalog.buff? id = some t → t.AnswersUndrawn := by
    intro id t ht
    obtain rfl := List.mem_singleton.mp (Catalog.buff?_cases ht).1
    decide
  have hadd : ¬add.Draws := by decide
  have hraise : raise.Draws := by decide
  have hdrawer : raise.drawer? b.scene = some ⟨2⟩ := by decide
  have hstream : (ctx.dispatch raise b).2.scene.own.stream = b.scene.own.stream := by
    rcases (draws_confined hboards hcatalog raise).2 hraise with hstreams | ⟨id, hid, hdrawn⟩
    · exact congrArg Prod.fst hstreams
    · obtain rfl : (⟨2⟩ : DuelistId) = id := Option.some.inj (hdrawer.symm.trans hid)
      rcases hdrawn.own with hown | ⟨hown, _⟩
      · exact hown
      · exact absurd hown (by decide)
  exact ⟨hboards, hcatalog, by decide, hadd, ((draws_confined hboards hcatalog add).1 hadd).1,
    hraise, hstream⟩

end PetDuel
