import PetDuel.Proofs.Course
import PetDuel.Proofs.Quiet
import PetDuel.Proofs.Sight

/-!
Hindsight. What was kept of a duel matters only to effects with an option that speaks of the last
turn. As long as no such effect is dispatched, and none is carried by a buff that is borne or that
the content offers, the present alone says how the duel goes on, however deep answers nest.
-/

namespace PetDuel

/-- Two duels with the same present. What was kept of them may be anything. -/
structure Battle.SamePresent (b c : Battle) : Prop where
  scene : c.scene = b.scene
  depth : c.depth = b.depth

def Licence.present : Licence := .only (fun _ o => ¬o.SaysLast) (by decide)

variable {ctx : Context} {b c : Battle}

namespace Battle.SamePresent

/-- A step acts on the present alone. -/
theorem step_alike (s : Step) : Step.Alike SamePresent (fun _ => True) s s := by
  intro b c h
  refine ⟨?_, ?_, fun _ _ _ _ _ => trivial⟩
  · rw [s.act_fst b, s.act_fst c]
    refine ⟨?_, h.depth⟩
    rw [s.act_fst_eq_move, s.act_fst_eq_move, h.scene]
  · cases s with
    | scene f => rfl
    | duelist id f =>
      rw [Step.act_duelist_snd, Step.act_duelist_snd, h.scene]

/-- An effect that does not speak of the last turn sees the same in duels with the same present. -/
theorem sameSight (h : b.SamePresent c) {e : Effect} (he : ¬e.options.SaysLast) :
    e.SameSight b.now c.now where
  scene := by
    change b.scene.SameSight c.scene
    rw [h.scene]
    exact .refl b.scene
  history := fun hlast => absurd hlast he

/-- Under content that does not speak of the last turn, having the same present is kept by
everything that the dispatching of an effect sets off. -/
theorem simulation
    (hcatalog : ∀ id t, ctx.catalog.buff? id = some t → ∀ e ∈ t.effects, ¬e.options.SaysLast) :
    Simulation ctx (fun b c => b.SamePresent c ∧ b.scene.Licensed Licence.present.freed)
      (Effect.Licensed .present) := by
  refine .bearing (fun _ hchange => hchange.answers) (fun id t ht _ _ => hcatalog id t ht)
    (fun b c h => h.depth.symm) (fun _ _ _ h => ⟨h.scene, rfl⟩) fun e b c he h => ?_
  have hread : e.decide? ctx b.now = e.decide? ctx c.now :=
    Effect.decide?_congr_of_sides (h.sameSight he) (congrArg Scene.isOwn h.scene.symm)
      (congrArg Scene.acting h.scene.symm)
  rw [← hread]
  cases e.decide? ctx b.now with
  | none => exact .none
  | some deed =>
    refine .some ⟨congrArg deed.possible h.scene.symm, ?_⟩
    exact List.forall₂_same.mpr fun s _ => step_alike s

section Present

variable
  (hcatalog : ∀ id t, ctx.catalog.buff? id = some t → ∀ e ∈ t.effects, ¬e.options.SaysLast)

include hcatalog

/-- The same present gives the same result and the same present again. -/
theorem dispatch (h : b.SamePresent c) (hb : b.scene.Licensed Licence.present.freed) {e : Effect}
    (he : ¬e.options.SaysLast) : (ctx.dispatch e b).1 = (ctx.dispatch e c).1 ∧
      (ctx.dispatch e b).2.SamePresent (ctx.dispatch e c).2 := by
  obtain ⟨hhandled, hpresent, -⟩ := (simulation hcatalog).dispatch he ⟨h, hb⟩
  exact ⟨hhandled, hpresent⟩

/-- A phase is resolved alike, as both duels collect the same effects. -/
theorem resolve (h : b.SamePresent c) (hb : b.scene.Licensed .present) (timing : Timing) :
    (ctx.resolve timing b).1 = (ctx.resolve timing c).1 ∧
      (ctx.resolve timing b).2.SamePresent (ctx.resolve timing c).2 := by
  have hadvanced : (b.advance timing).SamePresent (c.advance timing) :=
    ⟨congrArg (fun s => { s with phase := timing }) h.scene, h.depth⟩
  have hlicensed : (b.advance timing).scene.Licensed .present :=
    ⟨⟨hb.own.fighters, hb.own.skill⟩, ⟨hb.opposing.fighters, hb.opposing.skill⟩⟩
  -- Both duels come to the phase with the same effects, and what is kept there is not looked at.
  have hes : (c.advance timing).scene.effectsAt timing =
      (b.advance timing).scene.effectsAt timing :=
    congrArg (fun s => Scene.effectsAt s timing) hadvanced.scene
  obtain ⟨hcount, hpresent, -⟩ := (simulation hcatalog).dispatchEach
    (fun _ _ hsame => congrArg Scene.phase hsame.1.scene.symm) timing
    (hlicensed.effectsAt timing) ⟨hadvanced, hlicensed.freed⟩
  unfold Context.resolve
  dsimp only
  rw [hes]
  exact ⟨hcount, hpresent⟩

theorem endTurn (h : b.SamePresent c) (hb : b.scene.Licensed Licence.present.freed) :
    (ctx.endTurn b).SamePresent (ctx.endTurn c) := by
  have hsteps : List.Forall₂ (Step.Alike
      (fun b c => b.SamePresent c ∧ b.scene.Licensed Licence.present.freed)
      (Effect.Licensed .present)) b.scene.endTurnSteps c.scene.endTurnSteps := by
    rw [h.scene]
    exact List.forall₂_same.mpr fun s hs =>
      (step_alike s).bearing (fun _ hchange => hchange.answers) (b.scene.endTurnSteps_obey s hs)
  rw [ctx.endTurn_eq_play, ctx.endTurn_eq_play]
  exact (Battle.play_alike hsteps (simulation hcatalog).answer ⟨h, hb⟩).1

end Present

/-- The present goes on through events in which nothing speaks of the last turn. -/
theorem after (h : b.SamePresent c) (hb : b.scene.Licensed .present)
    {events : List (Context × Event)}
    (hevents : ∀ step ∈ events, step.1.catalog.Licensed .present ∧ step.2.Licensed .present) :
    (b.after events).SamePresent (c.after events) := by
  induction events generalizing b c with
  | nil => exact h
  | cons step events ih =>
    obtain ⟨⟨hcatalog, hevent⟩, hrest⟩ := List.forall_mem_cons.mp hevents
    have hbuffs : ∀ id t, step.1.catalog.buff? id = some t →
        ∀ e ∈ t.effects, ¬e.options.SaysLast := fun id t ht => hcatalog.buffs id t ht 0 0
    refine ih ?_ (Event.run_becomes hcatalog hevent hb).licensed hrest
    obtain ⟨ctx, event⟩ := step
    cases event with
    | dispatch e => exact (h.dispatch hbuffs hb.freed hevent).2
    | resolve timing => exact (h.resolve hbuffs hb timing).2
    | advance phase => exact ⟨congrArg (fun s => { s with phase }) h.scene, h.depth⟩
    | endTurn => exact h.endTurn hbuffs hb.freed

end Battle.SamePresent

/-- The present alone says how a duel goes on, as long as no option of the effects that are
dispatched, of the skills in use, of the buffs on any fighter or of the content speaks of the last
turn. -/
theorem present_decides (h : b.SamePresent c)
    (hboards : ∀ f ∈ b.scene.fighters, ∀ x ∈ f.board.active, ∀ e ∈ x.template.effects,
      ¬e.options.SaysLast)
    (hcatalog : ∀ id t, ctx.catalog.buff? id = some t → ∀ e ∈ t.effects, ¬e.options.SaysLast) :
    (∀ e : Effect, ¬e.options.SaysLast → (ctx.dispatch e b).1 = (ctx.dispatch e c).1 ∧
      (ctx.dispatch e b).2.SamePresent (ctx.dispatch e c).2) ∧
    (∀ timing, (∀ e ∈ b.scene.own.skill.effects, ¬e.options.SaysLast) →
      (∀ e ∈ b.scene.opposing.skill.effects, ¬e.options.SaysLast) →
      (ctx.resolve timing b).1 = (ctx.resolve timing c).1 ∧
        (ctx.resolve timing b).2.SamePresent (ctx.resolve timing c).2) ∧
    (ctx.endTurn b).SamePresent (ctx.endTurn c) ∧
    ∀ events : List (Context × Event), b.scene.Licensed .present →
      (∀ step ∈ events, step.1.catalog.Licensed .present ∧ step.2.Licensed .present) →
      (b.after events).SamePresent (c.after events) := by
  have hbears : ∀ f ∈ b.scene.fighters, f.board.Bears Licence.present.bears := hboards
  have hfreed : b.scene.Licensed Licence.present.freed := Scene.licensed_bearing hbears
  refine ⟨fun e he => h.dispatch hcatalog hfreed he, fun timing hown hopposing => ?_,
    h.endTurn hcatalog hfreed, fun _ hb hevents => h.after hb hevents⟩
  have hlicensed : b.scene.Licensed .present :=
    ⟨⟨hfreed.own.fighters, hown⟩, ⟨hfreed.opposing.fighters, hopposing⟩⟩
  exact h.resolve hcatalog hlicensed timing

/-- A buff that enrages when it comes is added alike whether the turn before was kept or not. What
enrages by the slot of the last turn tells the two apart. -/
theorem present_decides_enraging_buff :
    let enrage := Effect.new .buffAdded .rage ⟨[("add", "5")]⟩
    let template : BuffTemplate := { (default : BuffTemplate) with id := 7, effects := [enrage] }
    let ctx : Context := ⟨⟨[template], [], []⟩, {}⟩
    let first := Battle.new (.new ⟨1⟩ [default] 0) (.new ⟨2⟩ [default] 0)
    let b := first.onScene fun s => { s with turn := 1 }
    let c := { b with history := [first.scene] }
    let add := (Effect.new .attack .addBuff ⟨[("id", "7")]⟩).actingFor ⟨1⟩
    let backward := (Effect.new .attack .rage ⟨[("add", "last.cursor")]⟩).actingFor ⟨1⟩
    b.SamePresent c ∧
      (∀ f ∈ b.scene.fighters, ∀ x ∈ f.board.active, ∀ e ∈ x.template.effects,
        ¬e.options.SaysLast) ∧
      (∀ id t, ctx.catalog.buff? id = some t → ∀ e ∈ t.effects, ¬e.options.SaysLast) ∧
      ¬add.options.SaysLast ∧ (ctx.dispatch add b).2.SamePresent (ctx.dispatch add c).2 ∧
      backward.options.SaysLast ∧ (ctx.dispatch backward b).1 ≠ (ctx.dispatch backward c).1 := by
  intro enrage template ctx first b c add backward
  have hsame : b.SamePresent c := ⟨rfl, rfl⟩
  have hboards : ∀ f ∈ b.scene.fighters, ∀ x ∈ f.board.active, ∀ e ∈ x.template.effects,
      ¬e.options.SaysLast := by decide
  have hcatalog : ∀ id t, ctx.catalog.buff? id = some t → ∀ e ∈ t.effects,
      ¬e.options.SaysLast := by
    intro id t ht
    obtain rfl := List.mem_singleton.mp (Catalog.buff?_cases ht).1
    decide
  have hadd : ¬add.options.SaysLast := by decide
  have hread : (ctx.dispatch backward b).1 ≠ (ctx.dispatch backward c).1 := by decide +kernel
  exact ⟨hsame, hboards, hcatalog, hadd, ((present_decides hsame hboards hcatalog).1 add hadd).2,
    by decide, hread⟩

end PetDuel
