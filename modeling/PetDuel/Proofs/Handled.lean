import PetDuel.Proofs.Answers

/-!
When an effect counts as handled. No deed gives a duelist another number, and so neither does any
answer; whoever was there when a deed was decided on is still there in the middle of it.
-/

namespace PetDuel

def Step.KeepsIds : Step → Prop
  | scene f => ∀ s, (f s).ids = s.ids
  | duelist _ f => ∀ d, (f d).1.id = d.id

def Answer.KeepsIds (answer : Answer) : Prop :=
  ∀ id change b, (answer id change b).scene.ids = b.scene.ids

/-- A step of this kind leaves the numbers of the duelists alone. -/
theorem Step.KeepsIds.act {s : Step} (h : s.KeepsIds) (b : Battle) :
    (s.act b).1.scene.ids = b.scene.ids := by
  cases s with
  | scene f => exact h b.scene
  | duelist id f =>
    cases hd : b.scene.duelist? id with
    | none => rw [Step.act_duelist_of_none hd]
    | some d =>
      rw [Step.act_duelist_of_some hd]
      exact Scene.update_ids hd (h d)

namespace Duelist

theorem mapFighter_id (f : Fighter → Fighter) (d : Duelist) : (d.mapFighter f).id = d.id := by
  unfold mapFighter
  split <;> rfl

theorem onFighter_id (f : Fighter → Fighter × BuffChange) (d : Duelist) :
    (d.onFighter f).1.id = d.id := by
  unfold onFighter
  split <;> rfl

end Duelist

namespace Scene

/-- A capture may end the duel, but the duelists stay who they are. -/
theorem capture_ids (id : DuelistId) (chance : Double) (s : Scene) :
    (s.capture id chance).ids = s.ids := by
  unfold capture
  cases hd : s.duelist? id with
  | none => rfl
  | some d =>
    have hupdate : (s.update id fun _ => (d.tryCapture chance).2).ids = s.ids := update_ids hd rfl
    dsimp only
    split
    · exact hupdate
    · exact hupdate

theorem sendOut_ids (id : DuelistId) (slot : Nat) (s : Scene) :
    (s.sendOut id slot).ids = s.ids := by
  unfold sendOut
  split <;> rfl

end Scene

theorem Deed.comeOut_id (target : Nat) (carried : Int32) (d : Duelist) :
    (comeOut target carried d).id = d.id := by
  unfold comeOut
  dsimp only
  split <;> rfl

/-- Every step that a deed is made of leaves the numbers alone. -/
theorem Move.keepsIds {ctx : Context} {s : Step} (h : Move ctx s) : s.KeepsIds := by
  cases h with
  | weather => exact fun _ => rfl
  | capture id chance => exact Scene.capture_ids id chance
  | sendOut id slot => exact Scene.sendOut_ids id slot
  | comeOut id target carried => exact Deed.comeOut_id target carried
  | credit | setTurn | useSkill => exact fun _ => rfl
  | setHp | enrage | addStats | block => exact Duelist.mapFighter_id _
  | moveStages id wanted pick => exact fun d => Duelist.onFighter_id _ _
  | shiftStages | resetStage | removeListed | writeFighter | add | addEach | removeEach
  | removeBoth | removeWhere | writeBuff => exact Duelist.onFighter_id _

/-- Who is there and who is acting is an invariant of every dispatch. -/
theorem invariant_ids (ctx : Context) (ids : DuelistId × DuelistId × DuelistId) :
    Invariant ctx (fun b => b.scene.ids = ids) fun _ => True where
  atDepth := fun _ _ h => h
  steps := fun _ _ deed _ _ _ s hs b h =>
    have hkeeps : s.KeepsIds :=
      Deed.forall_steps (fun _ _ => rfl) (fun _ hmove => hmove.keepsIds) deed s hs
    ⟨(hkeeps.act b).trans h, fun _ _ _ _ _ => trivial⟩

theorem Context.answer_keepsIds (ctx : Context) : Answer.KeepsIds ctx.answer := fun _ _ _ =>
  (invariant_ids ctx _).answer (fun _ _ => trivial) rfl

/-- A step with its answer leaves the numbers alone, when answers do. -/
theorem Step.KeepsIds.play {answer : Answer} (ha : answer.KeepsIds) {s : Step} (h : s.KeepsIds)
    (b : Battle) : (s.play answer b).scene.ids = b.scene.ids := by
  have hact := h.act b
  unfold Step.play
  rcases hb : s.act b with ⟨b', _ | ⟨id, change⟩⟩
  · rw [hb] at hact
    exact hact
  · rw [hb] at hact
    exact (ha id change b').trans hact

theorem Battle.changeActive_fst (answer : Answer) (id : DuelistId)
    (f : Fighter → Fighter × BuffChange) (b : Battle) :
    (b.changeActive answer id f).1 = (b.scene.active? id).isSome := by
  unfold changeActive
  cases b.scene.active? id <;> rfl

namespace Deed

variable {answer : Answer}

/-- A switch is carried out when there is the duelist: the answers to the buffs that leave do not
change that. -/
theorem switchFighter_fst (hidle : answer.Idle) (hids : answer.KeepsIds) (id : DuelistId)
    (target : Nat) (carried : Int32) (inherited : List Buff) (fainted : Bool) (b : Battle) :
    (switchFighter answer id target carried inherited fainted b).1 =
      (b.scene.duelist? id).isSome := by
  -- The duelist is looked up once more after the buffs that leave have been answered.
  have hleft (f : BuffBoard → BuffBoard × BuffChange) (b : Battle) :
      (b.changeBoard answer id f).2.scene.ids = b.scene.ids := by
    have hstep : (Step.board id f).KeepsIds := Duelist.onFighter_id _
    rw [← Step.play_board hidle]
    exact hstep.play hids b
  have hboth := (hleft (fun board => board.removeWhere fun x => !x.template.keep) _).trans
    (hleft (fun board => board.removeEach inherited) b)
  rw [← Scene.isSome_duelist?_congr hboth]
  unfold switchFighter
  dsimp only
  split
  · rename_i hd
    rw [hd]
    rfl
  · rename_i d hd
    rw [hd]
    rfl

/-- Stages are moved when there is a fighter out, even if none of them moves. -/
theorem moveStages_fst (ctx : Context) (id : DuelistId) (wanted : Stages) (pick : Pick)
    (b : Battle) :
    (moveStages answer ctx id wanted pick b).1 = (b.scene.active? id).isSome := by
  unfold moveStages
  cases hd : b.scene.duelist? id with
  | none => simp only [Scene.active?, hd, Option.bind_none, Option.isSome_none]
  | some d =>
    have hdrawn := Scene.duelist?_update hd
      (f := fun d' => { d' with stream := (picked wanted pick d.stream).2 }) rfl
    have hactive := (Scene.active?_of_duelist? hdrawn).trans (Scene.active?_of_duelist? hd).symm
    dsimp only
    rw [Battle.changeActive_fst]
    exact congrArg Option.isSome hactive

/-- A deed is carried out exactly when there is someone to carry it out on. -/
theorem carryOut_fst (hidle : answer.Idle) (hids : answer.KeepsIds) (ctx : Context) (deed : Deed)
    (b : Battle) : (deed.carryOut answer ctx b).1 = deed.possible b.scene := by
  cases deed with
  | capture id chance =>
    cases hd : b.scene.duelist? id with
    | none => simp only [carryOut, tryCapture, possible, hd, Option.isSome_none]
    | some d => simp only [carryOut, tryCapture_of_some hd, possible, hd, Option.isSome_some]
  | switchPet id target carried inherited fainted =>
    exact switchFighter_fst hidle hids id target carried inherited fainted b
  | raiseStages id wanted pick => exact moveStages_fst ctx id wanted pick b
  | addBuff id | setBuff id | setPet id => exact Battle.changeActive_fst answer id _ b
  | _ => rfl

end Deed

/-- An effect that is refused changes nothing. -/
theorem Context.dispatch_of_decide?_eq_none {ctx : Context} {e : Effect} {b : Battle}
    (h : e.decide? ctx b.now = none) : ctx.dispatch e b = (false, b) := by
  simp only [dispatch, dispatchWith, h]

theorem Context.dispatch_of_decide?_eq_some {ctx : Context} {e : Effect} {b : Battle} {deed : Deed}
    (h : e.decide? ctx b.now = some deed) :
    ctx.dispatch e b = deed.carryOut ctx.answer ctx b := by
  simp only [dispatch, dispatchWith, h]

/-- Whether an effect is handled is known before it is carried out: it comes to a deed, and there is
someone to carry it out on. -/
theorem Context.dispatch_fst (ctx : Context) (e : Effect) (b : Battle) :
    (ctx.dispatch e b).1 =
      match e.decide? ctx b.now with
      | none => false
      | some deed => deed.possible b.scene := by
  unfold dispatch dispatchWith
  cases e.decide? ctx b.now with
  | none => rfl
  | some deed => exact Deed.carryOut_fst ctx.answer_idle ctx.answer_keepsIds ctx deed b

/-- Under a simulation an effect is handled in both battles or in neither, and the battles stay
related. -/
theorem Simulation.dispatch {ctx : Context} {R : Battle → Battle → Prop} {Q : Effect → Prop}
    (sim : Simulation ctx R Q) {e : Effect} (hq : Q e) {b c : Battle} (h : R b c) :
    (ctx.dispatch e b).1 = (ctx.dispatch e c).1 ∧ R (ctx.dispatch e b).2 (ctx.dispatch e c).2 := by
  refine ⟨?_, sim.dispatchWith_snd ctx.answer_idle sim.answer hq h⟩
  rw [ctx.dispatch_fst, ctx.dispatch_fst]
  rcases sim.decide_cases hq h with ⟨hb, hc⟩ | ⟨deed, deed', hb, hc, hpossible, _⟩
  · rw [hb, hc]
  · rw [hb, hc]
    exact hpossible

/-- Under a simulation in which duels end together, the effects of a phase are handled alike. -/
theorem Simulation.dispatchEach {ctx : Context} {R : Battle → Battle → Prop} {Q : Effect → Prop}
    (sim : Simulation ctx R Q) (hphase : ∀ b c, R b c → b.scene.phase = c.scene.phase)
    (timing : Timing) {es : List Effect} (hq : ∀ e ∈ es, Q e) {b c : Battle} (h : R b c) :
    (ctx.dispatchEach timing es b).1 = (ctx.dispatchEach timing es c).1 ∧
      R (ctx.dispatchEach timing es b).2 (ctx.dispatchEach timing es c).2 := by
  induction es generalizing b c with
  | nil => exact ⟨rfl, h⟩
  | cons e es ih =>
    obtain ⟨hhandled, hbattle⟩ := sim.dispatch (hq e List.mem_cons_self) h
    obtain ⟨hcount, hrest⟩ := ih (fun e he => hq e (List.mem_cons_of_mem _ he)) hbattle
    unfold Context.dispatchEach
    rw [hphase b c h]
    split
    · exact ⟨rfl, h⟩
    · dsimp only
      rw [hhandled, hcount]
      exact ⟨rfl, hrest⟩

namespace Invariant

variable {ctx : Context} {P : Battle → Prop} {Q : Effect → Prop}

theorem dispatch (inv : Invariant ctx P Q) {e : Effect} (hq : Q e) {b : Battle} (h : P b) :
    P (ctx.dispatch e b).2 := (inv.simulation.dispatch hq ⟨rfl, h⟩).2.2

theorem dispatchEach (inv : Invariant ctx P Q) (timing : Timing) {es : List Effect}
    (hq : ∀ e ∈ es, Q e) {b : Battle} (h : P b) : P (ctx.dispatchEach timing es b).2 := by
  have hphase : ∀ b c : Battle, b = c ∧ P b → b.scene.phase = c.scene.phase := by
    rintro b c ⟨rfl, _⟩
    rfl
  exact (inv.simulation.dispatchEach hphase timing hq ⟨rfl, h⟩).2.2

end Invariant

end PetDuel
