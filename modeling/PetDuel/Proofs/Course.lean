import PetDuel.Proofs.Handled
import PetDuel.Proofs.Licensed

/-!
The course of a duel. From outside, an effect is dispatched, a phase is resolved or merely entered,
or a turn ends. As long as the duel, the content and the effects from outside keep to a licence,
every fighter goes through changes under this licence and nothing else, however deep answers nest.
-/

namespace PetDuel

inductive Event
  | dispatch (e : Effect)
  | resolve (timing : Timing)
  | advance (phase : Timing)
  | endTurn

def Event.run (ctx : Context) (b : Battle) : Event → Battle
  | dispatch e => (ctx.dispatch e b).2
  | resolve timing => (ctx.resolve timing b).2
  | advance phase => b.advance phase
  | endTurn => ctx.endTurn b

/-- A duel after some events, each under content and rules of its own. -/
def Battle.after (b : Battle) (events : List (Context × Event)) : Battle :=
  events.foldl (fun b step => step.2.run step.1 b) b

def Event.Licensed (L : Licence) : Event → Prop
  | dispatch e => e.Licensed L
  | _ => True

variable {L : Licence} {ctx : Context}

theorem Buff.effectsAt_licensed {x : Buff} (hx : L.bears x) {timing : Timing} {id : DuelistId} :
    ∀ e ∈ x.effectsAt timing id, e.Licensed L :=
  List.forall_mem_map.mpr fun e he => L.effects x hx e (List.mem_filter.mp he).1

theorem BuffChange.Bears.answers {change : BuffChange} (h : change.Bears L.bears)
    (id : DuelistId) : ∀ e ∈ change.answers id, e.Licensed L := by
  refine List.forall_mem_append.mpr ⟨?_, ?_⟩
  · exact List.forall_mem_flatMap.mpr fun x hx => Buff.effectsAt_licensed (h.2 x hx)
  · exact List.forall_mem_flatMap.mpr fun x hx => Buff.effectsAt_licensed (h.1 x hx)

/-- Whatever a scene was before, a step that keeps to the licence goes on from there. -/
theorem Step.Obeys.keeps {step : Step} (h : step.Obeys L) {s : Scene} (b : Battle)
    (hb : s.Becomes L b.scene) : s.Becomes L (step.act b).1.scene ∧
      ∀ id change, (step.act b).2 = some (id, change) → ∀ e ∈ change.answers id, e.Licensed L := by
  obtain ⟨hbecomes, hbears⟩ := h.act hb.licensed
  exact ⟨hb.trans hbecomes, fun id change hasked => (hbears id change hasked).answers id⟩

/-- What a scene becomes under a licence is an invariant of all effects that may be dispatched. -/
theorem invariant_becomes (hcatalog : ctx.catalog.Licensed L) (s : Scene) :
    Invariant ctx (fun b => s.Becomes L b.scene) (Effect.Licensed L) where
  atDepth := fun _ _ h => h
  steps := by
    intro e b deed he hb hdecide step hstep
    have hdeed := Effect.licensed_of_decide? hcatalog hb.licensed he hdecide
    exact (Deed.obeys_steps hcatalog hdeed step hstep).keeps

theorem Scene.Licensed.freed {s : Scene} (h : s.Licensed L) : s.Licensed L.freed :=
  ⟨⟨h.own.fighters, fun _ _ => trivial⟩, ⟨h.opposing.fighters, fun _ _ => trivial⟩⟩

section Bearing

variable {B : Buff → Prop} {hB : Buff.Stable B} {R : Battle → Battle → Prop} {Q : Effect → Prop}
  (hanswers : ∀ change : BuffChange, change.Bears B → ∀ id, ∀ e ∈ change.answers id, Q e)

include hanswers

/-- Of two steps that keep duels related, the change of buffs is answered by effects with a property
when those of the buffs that are borne have it. -/
theorem Step.Alike.bearing {step step' : Step} (h : Step.Alike R (fun _ => True) step step')
    (hstep : step.Obeys (.bearing B hB)) :
    Step.Alike (fun b c => R b c ∧ b.scene.Licensed (.bearing B hB)) Q step step' := by
  rintro b c ⟨hbc, hb⟩
  obtain ⟨hacted, hasked, -⟩ := h b c hbc
  obtain ⟨hbecomes, hbears⟩ := hstep.act hb
  exact ⟨⟨hacted, hbecomes.licensed⟩, hasked, fun id change hc =>
    hanswers change (hbears id change hc) id⟩

/-- Two duels, the first of which bears buffs of a kind. What relates them over each step of the
deeds that an effect with a property comes to relates them all along, since what answers the coming
and the leaving of such buffs has the property again. -/
theorem Simulation.bearing
    (hcatalog : ∀ id t, ctx.catalog.buff? id = some t → ∀ turn value, B (.new t turn value))
    (hdepth : ∀ b c, R b c → b.depth = c.depth)
    (hatDepth : ∀ n b c, R b c → R (b.atDepth n) (c.atDepth n))
    (hdecide : ∀ (e : Effect) b c, Q e → R b c →
      Option.Rel (fun deed deed' : Deed => deed.possible b.scene = deed'.possible c.scene ∧
          List.Forall₂ (Step.Alike R fun _ => True) (deed.steps ctx) (deed'.steps ctx))
        (e.decide? ctx b.now) (e.decide? ctx c.now)) :
    Simulation ctx (fun b c => R b c ∧ b.scene.Licensed (.bearing B hB)) Q where
  depth := fun b c h => hdepth b c h.1
  atDepth := fun n b c h => ⟨hatDepth n b c h.1, h.2⟩
  decide := by
    rintro e b c he ⟨h, hb⟩
    have hlicensed : ctx.catalog.Licensed (.bearing B hB) := ⟨hcatalog, fun _ _ _ _ _ => trivial⟩
    have hrel := hdecide e b c he h
    generalize hread : e.decide? ctx b.now = read, e.decide? ctx c.now = read' at hrel ⊢
    cases hrel with
    | none => exact .none
    | @some deed deed' hdeeds =>
      obtain ⟨hpossible, hsteps⟩ := hdeeds
      have hobey := Deed.obeys_steps hlicensed <|
        Effect.licensed_of_decide? hlicensed hb trivial hread
      refine .some ⟨hpossible, ((List.forall₂_and_left _ _).mpr ⟨hobey, hsteps⟩).imp ?_⟩
      exact fun step step' hstep => hstep.2.bearing hanswers hstep.1

end Bearing

/-- All effects that a scene has ready for a timing may be dispatched. -/
theorem Scene.Licensed.effectsAt {s : Scene} (h : s.Licensed L) (timing : Timing) :
    ∀ e ∈ s.effectsAt timing, e.Licensed L := by
  have horder : ∀ d ∈ s.inOrder, d.Licensed L := by
    intro d hd
    unfold Scene.inOrder at hd
    split at hd
    · cases hd
    · obtain ⟨id, _, hid⟩ := List.mem_filterMap.mp hd
      exact h.duelist? hid
  refine List.forall_mem_append.mpr ⟨List.forall_mem_flatMap.mpr fun d hd => ?_,
    List.forall_mem_flatMap.mpr fun d hd => ?_⟩
  · exact List.forall_mem_map.mpr fun e he =>
      (horder d hd).skill e (List.mem_filter.mp he).1
  · unfold Scene.buffEffects
    split
    · exact List.forall_mem_nil _
    · rename_i f hf
      have hbears : f.board.Bears L.bears := (horder d hd).active? hf
      exact List.forall_mem_flatMap.mpr fun x hx => Buff.effectsAt_licensed (hbears x hx)

/-- The end of a turn brings no buff onto a board, so it keeps to every licence. -/
theorem Scene.endTurnSteps_obey (s : Scene) : ∀ step ∈ s.endTurnSteps, step.Obeys L := by
  have htick (id : DuelistId) : (Step.board id BuffBoard.tick).Obeys L :=
    Step.obeys_board fun _ hboard => hboard.tick L.stable
  have hnext : (Step.scene Scene.nextTurn).Obeys L := fun s hs =>
    ⟨hs.own.becomes rfl hs.own.skill, hs.opposing.becomes rfl hs.opposing.skill⟩
  refine List.forall_mem_cons.mpr ⟨htick s.own.id, ?_⟩
  exact List.forall_mem_cons.mpr ⟨htick s.opposing.id, List.forall_mem_singleton.mpr hnext⟩

/-- What one event makes of a duel. -/
theorem Event.run_becomes (hcatalog : ctx.catalog.Licensed L) {event : Event}
    (hevent : event.Licensed L) {b : Battle} (hb : b.scene.Licensed L) :
    b.scene.Becomes L (event.run ctx b).scene := by
  have inv := invariant_becomes hcatalog b.scene
  have hstart : b.scene.Becomes L b.scene := .refl hb
  cases event with
  | dispatch e => exact inv.dispatch hevent hstart
  | resolve timing =>
    -- The effects are collected after the phase is entered, from the same duelists.
    have hadvanced : b.scene.Becomes L (b.advance timing).scene := ⟨hstart.own, hstart.opposing⟩
    exact inv.dispatchEach timing (hadvanced.licensed.effectsAt timing) hadvanced
  | advance phase => exact ⟨hstart.own, hstart.opposing⟩
  | endTurn =>
    change b.scene.Becomes L (ctx.endTurn b).scene
    rw [ctx.endTurn_eq_play]
    exact inv.play (fun step hstep => (b.scene.endTurnSteps_obey step hstep).keeps) hstart

/-- However long a duel goes on, all that happens to its fighters are changes under the licence that
the duel, the content and the effects from outside keep to. -/
theorem Battle.after_becomes {b : Battle} (hb : b.scene.Licensed L)
    {events : List (Context × Event)}
    (hevents : ∀ step ∈ events, step.1.catalog.Licensed L ∧ step.2.Licensed L) :
    b.scene.Becomes L (b.after events).scene := by
  induction events generalizing b with
  | nil => exact .refl hb
  | cons step events ih =>
    obtain ⟨⟨hcatalog, hevent⟩, hrest⟩ := List.forall_mem_cons.mp hevents
    have hfirst := Event.run_becomes hcatalog hevent hb
    exact hfirst.trans (ih hfirst.licensed hrest)

theorem Scene.licensed_bearing {B : Buff → Prop} {hB : Buff.Stable B} {s : Scene}
    (h : ∀ f ∈ s.fighters, f.board.Bears B) : s.Licensed (.bearing B hB) := by
  obtain ⟨hown, hopposing⟩ := List.forall_mem_append.mp h
  exact ⟨⟨hown, fun _ _ => trivial⟩, ⟨hopposing, fun _ _ => trivial⟩⟩

/-- Where every effect may be dispatched, only the buffs of the start and of the content matter. -/
theorem Battle.after_becomes_bearing {B : Buff → Prop} (hB : Buff.Stable B) {b : Battle}
    (events : List (Context × Event)) (hb : ∀ f ∈ b.scene.fighters, f.board.Bears B)
    (hcatalog : ∀ step ∈ events, ∀ id t, step.1.catalog.buff? id = some t →
      ∀ turn value, B (.new t turn value)) :
    b.scene.Becomes (.bearing B hB) (b.after events).scene := by
  refine Battle.after_becomes (Scene.licensed_bearing hb) fun step hstep =>
    ⟨⟨hcatalog step hstep, ?_⟩, ?_⟩
  · exact fun _ _ _ _ _ => trivial
  · cases step.2 <;> trivial

end PetDuel
