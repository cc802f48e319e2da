import PetDuel.Proofs.Handled
import PetDuel.Proofs.Licensed
import PetDuel.Proofs.StagesShown

/-!
Quiet duels, in which nothing answers the coming and the leaving of buffs. There a deed makes of a
battle what its steps make of the scene, one after the other.
-/

namespace PetDuel

def Step.move (s : Scene) : Step → Scene
  | scene f => f s
  | duelist id f => s.update id fun d => (f d).1

def Scene.walk (steps : List Step) (s : Scene) : Scene := steps.foldl Step.move s

/-- A step by itself changes the scene and nothing else. -/
theorem Step.act_fst_eq_move (step : Step) (b : Battle) :
    (step.act b).1 = { b with scene := step.move b.scene } := by
  cases step with
  | scene f => rfl
  | duelist id f =>
    cases hd : b.scene.duelist? id with
    | none =>
      rw [act_duelist_of_none hd]
      exact congrArg (fun s => { b with scene := s })
        (Scene.update_of_duelist?_eq_none hd fun d => (f d).1).symm
    | some d =>
      rw [act_duelist_of_some hd]
      exact congrArg (fun s => { b with scene := s })
        (Scene.update_of_duelist?_eq_some hd fun d => (f d).1).symm

def Licence.quiet : Licence :=
  .bearing (fun x => x.template.Quiet) (BuffBoard.stable_kind fun _ t => t.Quiet)

theorem BuffChange.Bears.answers_eq_nil {change : BuffChange} (h : change.Bears Licence.quiet.bears)
    (id : DuelistId) : change.answers id = [] := by
  refine List.append_eq_nil_iff.mpr ⟨?_, ?_⟩
  · exact List.flatMap_eq_nil_iff.mpr fun x hx =>
      BuffTemplate.Quiet.effectsAt (h.2 x hx) (Or.inr rfl) id
  · exact List.flatMap_eq_nil_iff.mpr fun x hx =>
      BuffTemplate.Quiet.effectsAt (h.1 x hx) (Or.inl rfl) id

/-- A step that nothing answers makes of a battle what it makes of its scene. -/
theorem Step.play_eq_move {ctx : Context} {step : Step} {b : Battle}
    (h : ∀ id change, (step.act b).2 = some (id, change) → change.answers id = []) :
    step.play ctx.answer b = { b with scene := step.move b.scene } := by
  have hmove := step.act_fst_eq_move b
  unfold Step.play
  rcases hact : step.act b with ⟨b', _ | ⟨id, change⟩⟩
  · rw [hact] at hmove
    exact hmove
  · rw [hact] at hmove
    have hnil := h id change (congrArg Prod.snd hact)
    exact (ctx.answer_of_answers_nil hnil b').trans hmove

/-- In a quiet duel steps make of a battle what they make of its scene, and nothing else. -/
theorem Battle.play_eq_walk {ctx : Context} {steps : List Step}
    (hsteps : ∀ step ∈ steps, step.Obeys .quiet) {b : Battle} (hb : b.scene.Licensed .quiet) :
    b.play ctx.answer steps = { b with scene := b.scene.walk steps } := by
  induction steps generalizing b with
  | nil => rfl
  | cons step steps ih =>
    obtain ⟨hstep, hsteps⟩ := List.forall_mem_cons.mp hsteps
    obtain ⟨hbecomes, hbears⟩ := hstep.act hb
    have hplay : step.play ctx.answer b = { b with scene := step.move b.scene } :=
      Step.play_eq_move fun id change hasked => (hbears id change hasked).answers_eq_nil id
    rw [step.act_fst_eq_move b] at hbecomes
    rw [Battle.play_cons, hplay, ih hsteps hbecomes.licensed]
    rfl

/-- In a quiet duel an effect that is not refused makes of the battle what the steps of its deed
make of the scene. -/
theorem Context.dispatch_eq_walk {ctx : Context} {b : Battle}
    (hcatalog : ∀ t ∈ ctx.catalog.buffs, t.Quiet)
    (hboards : ∀ f ∈ b.scene.fighters, ∀ x ∈ f.board.active, x.template.Quiet) {e : Effect}
    {deed : Deed} (h : e.decide? ctx b.now = some deed) :
    ctx.dispatch e b =
      (deed.possible b.scene, { b with scene := b.scene.walk (deed.steps ctx) }) := by
  have hquiet : ctx.catalog.Licensed .quiet :=
    ⟨fun _ t ht _ _ => hcatalog t (Catalog.buff?_cases ht).1, fun _ _ _ _ _ => trivial⟩
  obtain ⟨hown, hopposing⟩ := List.forall_mem_append.mp hboards
  have hscene : b.scene.Licensed .quiet :=
    ⟨⟨hown, fun _ _ => trivial⟩, ⟨hopposing, fun _ _ => trivial⟩⟩
  have hdeed : deed.Licensed .quiet := Effect.licensed_of_decide? hquiet hscene trivial h
  have hplay : b.play ctx.answer (deed.steps ctx) =
      { b with scene := b.scene.walk (deed.steps ctx) } :=
    Battle.play_eq_walk (Deed.obeys_steps hquiet hdeed) hscene
  rw [dispatch_of_decide?_eq_some h, ← hplay, ← Deed.carryOut_snd ctx.answer_idle,
    ← Deed.carryOut_fst ctx.answer_idle ctx.answer_keepsIds ctx]

theorem Scene.walk_cons (step : Step) (steps : List Step) (s : Scene) :
    s.walk (step :: steps) = (step.move s).walk steps := rfl

theorem Scene.walk_append (steps steps' : List Step) (s : Scene) :
    s.walk (steps ++ steps') = (s.walk steps).walk steps' := List.foldl_append

theorem Step.move_quiet (id : DuelistId) (f : Duelist → Duelist) (s : Scene) :
    (quiet id f).move s = s.update id f := rfl

theorem Step.move_board (id : DuelistId) (f : BuffBoard → BuffBoard × BuffChange) (s : Scene) :
    (board id f).move s = s.update id fun d => (d.onFighter (Fighter.onBoard f)).1 := rfl

theorem Duelist.onFighter_fst {d : Duelist} {f : Fighter} (hf : d.active? = some f)
    (op : Fighter → Fighter × BuffChange) : (d.onFighter op).1 = d.setActive (op f).1 := by
  unfold onFighter
  rw [hf]

namespace Scene

variable {s : Scene} {id id' : DuelistId} {f : Fighter}

/-- Two changes under one number are one, as long as the first keeps the number. -/
theorem update_comp {f : Duelist → Duelist} (hf : ∀ d, (f d).id = d.id)
    (g : Duelist → Duelist) (s : Scene) :
    (s.update id f).update id g = s.update id fun d => g (f d) := by
  cases hd : s.duelist? id with
  | none =>
    rw [update_of_duelist?_eq_none hd, update_of_duelist?_eq_none hd,
      update_of_duelist?_eq_none hd]
  | some d =>
    rw [update_update hd (hf d)]
    exact (update_of_duelist?_eq_some hd fun d => g (f d)).symm

theorem setActive_self (hf : s.active? id = some f) : s.setActive id f = s := by
  obtain ⟨d, hd, hactive⟩ := Option.bind_eq_some_iff.mp hf
  unfold setActive
  rw [update_of_duelist?_eq_some hd, Duelist.setActive_self hactive, update_self hd]

theorem setActive_setActive (id : DuelistId) (f g : Fighter) (s : Scene) :
    (s.setActive id f).setActive id g = s.setActive id g := by
  have hid (d : Duelist) : (d.setActive f).id = d.id := rfl
  unfold setActive
  rw [update_comp hid]
  simp only [Duelist.setActive_setActive]

theorem active?_setActive (hf : s.active? id = some f) (g : Fighter) :
    (s.setActive id g).active? id = some g := by
  obtain ⟨d, hd, hactive⟩ := Option.bind_eq_some_iff.mp hf
  have hupdated := duelist?_update (f := fun d => d.setActive g) hd rfl
  exact (active?_of_duelist? hupdated).trans (Duelist.active?_setActive hactive g)

theorem active?_setActive_of_ne (hne : id' ≠ id) (g : Fighter) :
    (s.setActive id g).active? id' = s.active? id' := by
  have hid (d : Duelist) : (d.setActive g).id = d.id := rfl
  exact congrArg (fun d => d.bind Duelist.active?) (duelist?_update_of_ne hne hid)

/-- Changes for two different duelists can be made in either order. -/
theorem setActive_comm (hne : id' ≠ id) (f g : Fighter) (s : Scene) :
    (s.setActive id f).setActive id' g = (s.setActive id' g).setActive id f := by
  have hid (d : Duelist) (f : Fighter) : (d.setActive f).id = d.id := rfl
  unfold setActive update
  by_cases hown : s.own.id = id
  · by_cases hopposing : s.opposing.id = id' <;> simp [hown, hopposing, hid, hne.symm]
  · by_cases hown' : s.own.id = id'
    · by_cases hopposing : s.opposing.id = id <;> simp [hown', hopposing, hid, hne]
    · by_cases hopposing : s.opposing.id = id
      · simp [hown, hown', hopposing, hid, hne.symm]
      · by_cases hopposing' : s.opposing.id = id' <;>
          simp [hown, hown', hopposing, hopposing', hid, hne]

/-- Steps of the fighter that is out for a duelist put it through their changes. -/
theorem walk_fighters (hf : s.active? id = some f) (ops : List (Fighter → Fighter × BuffChange)) :
    s.walk (ops.map (Step.fighter id)) = s.setActive id (f.through ops) := by
  induction ops generalizing s f with
  | nil => exact (setActive_self hf).symm
  | cons op ops ih =>
    have hfirst : (Step.fighter id op).move s = s.setActive id (op f).1 := by
      obtain ⟨d, hd, hactive⟩ := Option.bind_eq_some_iff.mp hf
      change (s.update id fun d => (d.onFighter op).1) = s.update id fun d => d.setActive (op f).1
      rw [update_of_duelist?_eq_some hd,
        update_of_duelist?_eq_some hd fun d => d.setActive (op f).1,
        Duelist.onFighter_fst hactive]
    rw [List.map_cons, walk_cons, hfirst, ih (active?_setActive hf _), setActive_setActive]
    rfl

end Scene

/-- A switch as one change of the duelist: what stays with the team leaves the fighter that was out
and joins the one that comes out. -/
def Duelist.switch (target : Nat) (carried : Int32) (inherited : List Buff) (fainted : Bool)
    (d : Duelist) : Duelist :=
  let d := (d.onFighter (Fighter.onBoard fun board => board.removeEach inherited)).1
  let d := (d.onFighter (Fighter.onBoard fun board =>
    board.removeWhere fun x => !x.template.keep)).1
  let d := Deed.comeOut target carried d
  if fainted then d
  else (d.onFighter (Fighter.onBoard fun board => board.addEach inherited)).1

/-- The steps of a switch are one change of the duelist, after which the slot is recorded. -/
theorem Scene.walk_switchSteps (id : DuelistId) (target : Nat) (carried : Int32)
    (inherited : List Buff) (fainted : Bool) (s : Scene) :
    s.walk (Deed.switchSteps id target carried inherited fainted) =
      (s.update id (Duelist.switch target carried inherited fainted)).sendOut id target := by
  have hboard (f : BuffBoard → BuffBoard × BuffChange) (d : Duelist) :
      (d.onFighter (Fighter.onBoard f)).1.id = d.id := Duelist.onFighter_id _ d
  unfold Deed.switchSteps Deed.comeOutSteps Duelist.switch
  rw [walk_cons, walk_cons, walk_cons, Step.move_board, Step.move_board, Step.move_quiet,
    update_comp (hboard _), update_comp (hboard _)]
  cases fainted with
  | true => rfl
  | false =>
    rw [if_neg Bool.false_ne_true, List.singleton_append, walk_cons, Step.move_board,
      update_comp fun d => (Deed.comeOut_id _ _ _).trans ((hboard _ _).trans (hboard _ d))]
    rfl

end PetDuel
