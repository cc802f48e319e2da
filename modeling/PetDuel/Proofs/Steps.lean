import PetDuel.Proofs.Lookup

/-!
Deeds as lists of steps. A step changes the scene, or one duelist; the second kind says which buffs
came and left, and is answered before the next step. What every deed keeps is shown here of its
steps, and then holds of the deed under any answer.
-/

namespace PetDuel

def Answer.Idle (answer : Answer) : Prop := ∀ id b, answer id .none b = b

/-- One change of a battle while a deed is carried out. -/
inductive Step
  /-- The scene changes, and there is nothing to answer. -/
  | scene (f : Scene → Scene)
  /-- A duelist changes, and the change of the buffs on its fighter is answered. -/
  | duelist (id : DuelistId) (f : Duelist → Duelist × BuffChange)

namespace Duelist

def mapFighter (f : Fighter → Fighter) (d : Duelist) : Duelist :=
  match d.active? with
  | some x => d.setActive (f x)
  | none => d

def onFighter (f : Fighter → Fighter × BuffChange) (d : Duelist) : Duelist × BuffChange :=
  match d.active? with
  | some x => (d.setActive (f x).1, (f x).2)
  | none => (d, .none)

def tryCapture (chance : Double) (d : Duelist) : Bool × Duelist :=
  let (roll, d) := d.roll
  let success := decide (roll ≤ chance)
  let skill := { d.skill with options := d.skill.options.set "capture_result" (showFlag success) }
  (success, { d with turn := { d.turn with skill } })

def moveStages (ctx : Context) (wanted : Stages) (pick : Pick) (d : Duelist) :
    Duelist × BuffChange :=
  let (delta, stream) := Deed.picked wanted pick d.stream
  { d with stream }.onFighter fun f => f.shiftStages ctx.catalog (Deed.doubled f.board delta)

end Duelist

namespace Scene

def capture (id : DuelistId) (chance : Double) (s : Scene) : Scene :=
  match s.duelist? id with
  | none => s
  | some d =>
    let s := s.update id fun _ => (d.tryCapture chance).2
    if (d.tryCapture chance).1 then s.finish .captured else s

/-- The record of the slot that a duelist sends out; only the player's own side is recorded. -/
def sendOut (id : DuelistId) (slot : Nat) (s : Scene) : Scene :=
  if s.isOwn id then { s with sentOut := s.sentOut ++ [slot] } else s

end Scene

namespace Step

def act (b : Battle) : Step → Battle × Option (DuelistId × BuffChange)
  | scene f => (b.onScene f, none)
  | duelist id f =>
    match b.scene.duelist? id with
    | none => (b, none)
    | some d => (b.update id fun _ => (f d).1, some (id, (f d).2))

def play (answer : Answer) (b : Battle) (s : Step) : Battle :=
  match s.act b with
  | (b, none) => b
  | (b, some (id, change)) => answer id change b

def quiet (id : DuelistId) (f : Duelist → Duelist) : Step := duelist id fun d => (f d, .none)

def fighter (id : DuelistId) (f : Fighter → Fighter × BuffChange) : Step :=
  duelist id (Duelist.onFighter f)

def board (id : DuelistId) (f : BuffBoard → BuffBoard × BuffChange) : Step :=
  fighter id (Fighter.onBoard f)

end Step

def Battle.play (answer : Answer) (steps : List Step) (b : Battle) : Battle :=
  steps.foldl (Step.play answer) b

namespace Deed

def healSteps (id : DuelistId) : Healing → List Step
  | .set hp => [.quiet id (Duelist.mapFighter fun f => f.setHp hp)]
  | .gain account amount =>
    [.quiet id fun d => { d with turn := credit account amount d.turn },
     .quiet id (Duelist.mapFighter fun f =>
       f.setHp (f.hp + if account = some .buff then 0 else amount))]

def comeOutSteps (id : DuelistId) (target : Nat) (carried : Int32) (inherited : List Buff)
    (fainted : Bool) : List Step :=
  .quiet id (comeOut target carried) ::
    ((if fainted then [] else [.board id fun board => board.addEach inherited]) ++
      [.scene (Scene.sendOut id target)])

def switchSteps (id : DuelistId) (target : Nat) (carried : Int32) (inherited : List Buff)
    (fainted : Bool) : List Step :=
  (.board id fun board => board.removeEach inherited) ::
    (.board id fun board => board.removeWhere fun x => !x.template.keep) ::
      comeOutSteps id target carried inherited fainted

def categorySteps (id : DuelistId) (category : Category) : List Step :=
  (.board id fun board => board.removeWhere fun x => x.template.category == category) ::
    if category = .turnBased then [.board id fun board => board.removeWhere isSweptMark] else []

def removeSteps (ctx : Context) (id : DuelistId) (categories : List Category) (ids : List Int32) :
    List Step :=
  categories.flatMap (categorySteps id) ++
    if ids.isEmpty then [] else [.fighter id (removeListed ctx ids)]

def takeBack (xs ys : List Buff) (board : BuffBoard) : BuffBoard × BuffChange :=
  let (board, first) := board.removeEach xs
  let (board, second) := board.removeEach ys
  (board, first ++ second)

def copySteps (ctx : Context) (source target : DuelistId) (listed : List Buff) (stages : Stages)
    (drained : List StageChannel) (typed : List Buff) (transfer : Bool) : List Step :=
  (listed.map fun x => .board target fun board => board.add x) ++
  [.fighter target fun f => f.shiftStages ctx.catalog stages] ++
  (drained.map fun c => .fighter source fun f => f.setStage ctx.catalog c 0) ++
  (typed.map fun x => .board target fun board => board.add x) ++
  if transfer then [.board source (takeBack listed typed)] else []

def steps (ctx : Context) : Deed → List Step
  | .finish o => [.scene fun s => s.finish o]
  | .capture id chance => [.scene (Scene.capture id chance)]
  | .switchPet id target carried inherited fainted =>
    switchSteps id target carried inherited fainted
  | .heal id h => healSteps id h
  | .rage id low high gain => [.quiet id (Duelist.mapFighter (enrage low high gain))]
  | .raiseStages id wanted pick => [.duelist id (Duelist.moveStages ctx wanted pick)]
  | .addStats id c amount =>
    [.quiet id (Duelist.mapFighter fun f =>
      { f with sheet := f.sheet.addTo c (Double.ofInt32 amount) })]
  | .blockBuffs id block ids ranges => [.quiet id (Duelist.mapFighter (blockOn block ids ranges))]
  | .addBuff id x => [.board id fun board => board.add x]
  | .removeBuffs id categories ids => removeSteps ctx id categories ids
  | .copyBuffs source target listed stages drained typed transfer =>
    copySteps ctx source target listed stages drained typed transfer
  | .setBuff id buff a x => [.board id (writeBuff buff a x)]
  | .setTurn id a x => [.quiet id fun d => { d with turn := (d.turn.write? a x).getD d.turn }]
  | .setSkill id choice ownCost => [.quiet id (useSkill ctx choice ownCost)]
  | .setPet id a x => [.fighter id (writeFighter ctx a x)]
  | .setWeather w => [.scene fun s => { s with weather := w }]

def possible (s : Scene) : Deed → Bool
  | .capture id _ | .switchPet id .. => (s.duelist? id).isSome
  | .raiseStages id .. | .addBuff id _ | .setBuff id .. | .setPet id .. => (s.active? id).isSome
  | _ => true

end Deed

namespace Step

variable {answer : Answer} {b : Battle} {id : DuelistId} {d : Duelist}

theorem act_duelist_of_none (hd : b.scene.duelist? id = none)
    (f : Duelist → Duelist × BuffChange) : (duelist id f).act b = (b, none) := by
  simp only [act, hd]

theorem act_duelist_of_some (hd : b.scene.duelist? id = some d)
    (f : Duelist → Duelist × BuffChange) :
    (duelist id f).act b = (b.update id fun _ => (f d).1, some (id, (f d).2)) := by
  simp only [act, hd]

theorem act_duelist_snd (b : Battle) (id : DuelistId) (f : Duelist → Duelist × BuffChange) :
    ((duelist id f).act b).2 = (b.scene.duelist? id).map fun d => (id, (f d).2) := by
  cases hd : b.scene.duelist? id with
  | none => rw [act_duelist_of_none hd, Option.map_none]
  | some d => rw [act_duelist_of_some hd, Option.map_some]

theorem act_fst (s : Step) (b : Battle) : (s.act b).1 = { b with scene := (s.act b).1.scene } := by
  cases s with
  | scene f => rfl
  | duelist id f =>
    cases hd : b.scene.duelist? id with
    | none => rw [act_duelist_of_none hd]
    | some d =>
      rw [act_duelist_of_some hd]
      rfl

theorem play_quiet (h : answer.Idle) (id : DuelistId) (f : Duelist → Duelist) (b : Battle) :
    (quiet id f).play answer b = b.update id f := by
  unfold play quiet
  cases hd : b.scene.duelist? id with
  | none =>
    rw [act_duelist_of_none hd]
    exact congrArg (fun s => { b with scene := s }) (Scene.update_of_duelist?_eq_none hd f).symm
  | some d =>
    rw [act_duelist_of_some hd]
    exact (h id _).trans
      (congrArg (fun s => { b with scene := s }) (Scene.update_of_duelist?_eq_some hd f).symm)

/-- A step on a fighter is the change of the fighter that is out, with its answer. -/
theorem play_fighter (h : answer.Idle) (id : DuelistId) (f : Fighter → Fighter × BuffChange)
    (b : Battle) : (fighter id f).play answer b = (b.changeActive answer id f).2 := by
  unfold play fighter Battle.changeActive
  cases hd : b.scene.duelist? id with
  | none => rw [act_duelist_of_none hd, Scene.active?, hd, Option.bind_none]
  | some d =>
    rw [act_duelist_of_some hd, Scene.active?_of_duelist? hd]
    cases hx : d.active? with
    | none =>
      -- The change is empty, and writing the duelist back changes nothing.
      simp only [Duelist.onFighter, hx]
      rw [h, Battle.update, Battle.onScene, Scene.update_self hd]
    | some x =>
      simp only [Duelist.onFighter, hx]
      rw [Battle.update, Battle.onScene, Battle.onScene, Scene.setActive,
        Scene.update_of_duelist?_eq_some hd fun d => d.setActive (f x).1]

theorem play_board (h : answer.Idle) (id : DuelistId) (f : BuffBoard → BuffBoard × BuffChange)
    (b : Battle) : (board id f).play answer b = (b.changeBoard answer id f).2 :=
  play_fighter h id _ b

end Step

namespace Battle

variable {answer : Answer}

theorem update_of_duelist?_eq_none {b : Battle} {id : DuelistId} (h : b.scene.duelist? id = none)
    (f : Duelist → Duelist) : b.update id f = b :=
  congrArg (fun s => { b with scene := s }) (Scene.update_of_duelist?_eq_none h f)

theorem changeActive_of_active?_eq_none {b : Battle} {id : DuelistId}
    (h : b.scene.active? id = none) (f : Fighter → Fighter × BuffChange) :
    b.changeActive answer id f = (false, b) := by
  simp only [changeActive, h]

theorem play_nil (b : Battle) : b.play answer [] = b := rfl

theorem play_cons (s : Step) (ss : List Step) (b : Battle) :
    b.play answer (s :: ss) = (s.play answer b).play answer ss := rfl

theorem play_append (ss ts : List Step) (b : Battle) :
    b.play answer (ss ++ ts) = (b.play answer ss).play answer ts := List.foldl_append

theorem play_fighters {α : Type} (h : answer.Idle) (id : DuelistId)
    (step : α → Fighter → Fighter × BuffChange) (xs : List α) (b : Battle) :
    b.play answer (xs.map fun x => .fighter id (step x)) = b.changeForEach answer id step xs := by
  unfold play changeForEach
  rw [List.foldl_map]
  simp only [Step.play_fighter h]

end Battle

namespace Deed

variable {answer : Answer}

theorem healFighter_eq (h : answer.Idle) (id : DuelistId) (x : Healing) (b : Battle) :
    healFighter id x b = b.play answer (healSteps id x) := by
  cases x <;> simp only [healSteps, Battle.play_cons, Battle.play_nil, Step.play_quiet h] <;> rfl

/-- A try to capture always succeeds as a deed, whether the fighter is caught or not. -/
theorem tryCapture_of_some {b : Battle} {id : DuelistId} {d : Duelist}
    (hd : b.scene.duelist? id = some d) (chance : Double) :
    tryCapture id chance b = (true, b.onScene (Scene.capture id chance)) := by
  have hscene : Scene.capture id chance b.scene =
      if (d.tryCapture chance).1
      then (b.scene.update id fun _ => (d.tryCapture chance).2).finish .captured
      else b.scene.update id fun _ => (d.tryCapture chance).2 := by
    simp only [Scene.capture, hd]
  have hbattle : tryCapture id chance b =
      (true, if (d.tryCapture chance).1
        then (b.update id fun _ => (d.tryCapture chance).2).onScene fun s => s.finish .captured
        else b.update id fun _ => (d.tryCapture chance).2) := by
    simp only [tryCapture, hd]
    rfl
  change _ = (true, { b with scene := Scene.capture id chance b.scene })
  rw [hbattle, hscene]
  split <;> rfl

theorem play_sendOut (id : DuelistId) (slot : Nat) (b : Battle) :
    (Step.scene (Scene.sendOut id slot)).play answer b =
      if b.scene.isOwn id then b.onScene fun s => { s with sentOut := s.sentOut ++ [slot] }
      else b := by
  change { b with scene := Scene.sendOut id slot b.scene } = _
  unfold Scene.sendOut
  split <;> rfl

/-- Nobody comes out for a duelist that is not there. -/
theorem play_comeOutSteps_of_none (h : answer.Idle) {b : Battle} {id : DuelistId}
    (hd : b.scene.duelist? id = none) (target : Nat) (carried : Int32) (inherited : List Buff)
    (fainted : Bool) : b.play answer (comeOutSteps id target carried inherited fainted) = b := by
  have hactive : b.scene.active? id = none := by rw [Scene.active?, hd, Option.bind_none]
  have hown : b.scene.isOwn id = false := by
    rcases b.scene.duelist?_cases id with ⟨_, hs, _⟩ | ⟨_, _, hs, _⟩ | ⟨hne, _, _, _⟩
    · cases hs.symm.trans hd
    · cases hs.symm.trans hd
    · exact beq_eq_false_iff_ne.mpr hne
  cases fainted <;>
    simp only [comeOutSteps, Battle.play_append, Battle.play_cons, Battle.play_nil,
      Step.play_quiet h, Step.play_board h, Battle.changeBoard, play_sendOut,
      Battle.update_of_duelist?_eq_none hd, Battle.changeActive_of_active?_eq_none hactive, hown,
      if_true, if_false, Bool.false_eq_true]

theorem play_comeOutSteps (h : answer.Idle) (b : Battle) (id : DuelistId) (target : Nat)
    (carried : Int32) (inherited : List Buff) (fainted : Bool) :
    b.play answer (comeOutSteps id target carried inherited fainted) =
      let b := b.update id (comeOut target carried)
      let b :=
        if fainted then b
        else (b.changeBoard answer id fun board => board.addEach inherited).2
      if b.scene.isOwn id then b.onScene fun s => { s with sentOut := s.sentOut ++ [target] }
      else b := by
  cases fainted <;>
    simp only [comeOutSteps, Battle.play_append, Battle.play_cons, Battle.play_nil,
      Step.play_quiet h, Step.play_board h, play_sendOut,
      if_true, if_false, Bool.false_eq_true]

/-- A switch is its steps, whether there is a fighter to call back or not. -/
theorem switchFighter_snd (h : answer.Idle) (id : DuelistId) (target : Nat) (carried : Int32)
    (inherited : List Buff) (fainted : Bool) (b : Battle) :
    (switchFighter answer id target carried inherited fainted b).2 =
      b.play answer (switchSteps id target carried inherited fainted) := by
  rw [switchSteps, Battle.play_cons, Battle.play_cons, Step.play_board h, Step.play_board h]
  unfold switchFighter
  dsimp only
  -- When the answers to the buffs that leave have left no such duelist, the rest of the switch
  -- finds nobody either.
  split
  · rename_i hd
    exact (play_comeOutSteps_of_none h hd target carried inherited fainted).symm
  · exact (play_comeOutSteps h _ id target carried inherited fainted).symm

/-- Moving stages is one step, draw included. -/
theorem moveStages_snd (h : answer.Idle) (ctx : Context) (id : DuelistId) (wanted : Stages)
    (pick : Pick) (b : Battle) :
    (moveStages answer ctx id wanted pick b).2 =
      (Step.duelist id (Duelist.moveStages ctx wanted pick)).play answer b := by
  cases hd : b.scene.duelist? id with
  | none => simp only [moveStages, Step.play, hd, Step.act_duelist_of_none hd]
  | some d =>
    -- The draw is a change of its own in the deed, and part of the one step here.
    have hdrawn := Scene.duelist?_update hd
      (f := fun d' => { d' with stream := (picked wanted pick d.stream).2 }) rfl
    simp only [moveStages, hd]
    rw [← Step.play_fighter h, Step.play, Step.fighter, Step.act_duelist_of_some hdrawn, Step.play,
      Step.act_duelist_of_some hd]
    dsimp only [Battle.update, Battle.onScene]
    rw [Scene.update_update hd rfl]
    rfl

theorem removeCategory_eq (h : answer.Idle) (id : DuelistId) (category : Category) (b : Battle) :
    removeCategory answer id b category = b.play answer (categorySteps id category) := by
  unfold removeCategory categorySteps
  rw [Battle.play_cons, Step.play_board h]
  split
  · rw [Battle.play_cons, Battle.play_nil, Step.play_board h]
  · rfl

/-- A removal is one sweep for each category and then the removal of the listed numbers. -/
theorem removeFrom_eq (h : answer.Idle) (ctx : Context) (id : DuelistId)
    (categories : List Category) (ids : List Int32) (b : Battle) :
    removeFrom answer ctx id categories ids b =
      b.play answer (removeSteps ctx id categories ids) := by
  have hfold (cs : List Category) (b : Battle) :
      cs.foldl (removeCategory answer id) b = b.play answer (cs.flatMap (categorySteps id)) := by
    induction cs generalizing b with
    | nil => rfl
    | cons c cs ih =>
      rw [List.foldl_cons, List.flatMap_cons, Battle.play_append, ih, removeCategory_eq h]
  unfold removeFrom removeSteps
  rw [Battle.play_append, hfold]
  dsimp only
  split
  · rfl
  · rw [Battle.play_cons, Battle.play_nil, Step.play_fighter h]

/-- A copy is its steps, those on the target and those on the source. -/
theorem copyBetween_eq (h : answer.Idle) (ctx : Context) (source target : DuelistId)
    (listed : List Buff) (stages : Stages) (drained : List StageChannel) (typed : List Buff)
    (transfer : Bool) (b : Battle) :
    copyBetween answer ctx source target listed stages drained typed transfer b =
      b.play answer (copySteps ctx source target listed stages drained typed transfer) := by
  have hput (xs : List Buff) (b : Battle) :
      b.play answer (xs.map fun x => .board target fun board => board.add x) =
        b.changeForEach answer target (fun x => Fighter.onBoard fun board => board.add x) xs :=
    Battle.play_fighters h target _ xs b
  unfold copyBetween copySteps
  simp only [Battle.play_append, Battle.play_cons, Battle.play_nil, Step.play_fighter h, hput]
  rw [Battle.play_fighters h]
  split
  · rw [Battle.play_cons, Battle.play_nil, Step.play_board h]
    rfl
  · rfl

/-- Carrying out a deed is playing its steps. -/
theorem carryOut_snd (h : answer.Idle) (ctx : Context) (deed : Deed) (b : Battle) :
    (deed.carryOut answer ctx b).2 = b.play answer (deed.steps ctx) := by
  cases deed with
  | capture id chance =>
    cases hd : b.scene.duelist? id with
    | none =>
      change (tryCapture id chance b).2 = { b with scene := Scene.capture id chance b.scene }
      simp only [tryCapture, Scene.capture, hd]
    | some d => exact congrArg Prod.snd (tryCapture_of_some hd chance)
  | switchPet id target carried inherited fainted =>
    exact switchFighter_snd h id target carried inherited fainted b
  | heal id x => exact healFighter_eq h id x b
  | raiseStages id wanted pick => exact moveStages_snd h ctx id wanted pick b
  | removeBuffs id categories ids => exact removeFrom_eq h ctx id categories ids b
  | copyBuffs source target listed stages drained typed transfer =>
    exact copyBetween_eq h ctx source target listed stages drained typed transfer b
  | finish | setWeather => rfl
  | rage id | addStats id | blockBuffs id | setTurn id | setSkill id =>
    exact (Step.play_quiet h id _ b).symm
  | addBuff id | setBuff id => exact (Step.play_board h id _ b).symm
  | setPet id => exact (Step.play_fighter h id _ b).symm

end Deed

inductive Move (ctx : Context) : Step → Prop
  | capture (id : DuelistId) (chance : Double) : Move ctx (.scene (Scene.capture id chance))
  | sendOut (id : DuelistId) (slot : Nat) : Move ctx (.scene (Scene.sendOut id slot))
  | weather (w : Weather) : Move ctx (.scene fun s => { s with weather := w })
  | comeOut (id : DuelistId) (target : Nat) (carried : Int32) :
    Move ctx (.quiet id (Deed.comeOut target carried))
  | credit (id : DuelistId) (account : Option HealAccount) (amount : Int32) :
    Move ctx (.quiet id fun d => { d with turn := Deed.credit account amount d.turn })
  | setTurn (id : DuelistId) (a : TurnAttribute) (x : Double) :
    Move ctx (.quiet id fun d => { d with turn := (d.turn.write? a x).getD d.turn })
  | useSkill (id : DuelistId) (choice : SkillChoice) (ownCost : Bool) :
    Move ctx (.quiet id (Deed.useSkill ctx choice ownCost))
  | moveStages (id : DuelistId) (wanted : Stages) (pick : Pick) :
    Move ctx (.duelist id (Duelist.moveStages ctx wanted pick))
  | setHp (id : DuelistId) (n : Fighter → Int32) :
    Move ctx (.quiet id (Duelist.mapFighter fun f => f.setHp (n f)))
  | enrage (id : DuelistId) (low high : Option Int32) (gain : Int32) :
    Move ctx (.quiet id (Duelist.mapFighter (Deed.enrage low high gain)))
  | addStats (id : DuelistId) (c : Channel) (amount : Int32) :
    Move ctx (.quiet id (Duelist.mapFighter fun f =>
      { f with sheet := f.sheet.addTo c (Double.ofInt32 amount) }))
  | block (id : DuelistId) (block : Bool) (ids : List Int32) (ranges : List (Int32 × Int32)) :
    Move ctx (.quiet id (Duelist.mapFighter (Deed.blockOn block ids ranges)))
  | shiftStages (id : DuelistId) (stages : Stages) :
    Move ctx (.fighter id fun f => f.shiftStages ctx.catalog stages)
  | resetStage (id : DuelistId) (c : StageChannel) :
    Move ctx (.fighter id fun f => f.setStage ctx.catalog c 0)
  | removeListed (id : DuelistId) (ids : List Int32) :
    Move ctx (.fighter id (Deed.removeListed ctx ids))
  | writeFighter (id : DuelistId) (a : FighterAttribute) (x : Double) :
    Move ctx (.fighter id (Deed.writeFighter ctx a x))
  | add (id : DuelistId) (x : Buff) : Move ctx (.board id fun board => board.add x)
  | addEach (id : DuelistId) (xs : List Buff) : Move ctx (.board id fun board => board.addEach xs)
  | removeEach (id : DuelistId) (xs : List Buff) :
    Move ctx (.board id fun board => board.removeEach xs)
  | removeBoth (id : DuelistId) (xs ys : List Buff) : Move ctx (.board id (Deed.takeBack xs ys))
  | removeWhere (id : DuelistId) (p : Buff → Bool) :
    Move ctx (.board id fun board => board.removeWhere p)
  | writeBuff (id : DuelistId) (buff : Int32) (a : BuffAttribute) (x : Double) :
    Move ctx (.board id (Deed.writeBuff buff a x))

namespace Deed

section Lists

variable {p : Step → Prop} {id : DuelistId}

/-- What holds of a written health and of every credit holds of the steps of a healing. -/
theorem forall_healSteps (h : Healing)
    (hset : ∀ n : Fighter → Int32, p (.quiet id (Duelist.mapFighter fun f => f.setHp (n f))))
    (hcredit : ∀ account amount,
      p (.quiet id fun d => { d with turn := credit account amount d.turn })) :
    ∀ s ∈ healSteps id h, p s := by
  cases h with
  | set hp => exact List.forall_mem_singleton.mpr (hset fun _ => hp)
  | gain account amount =>
    refine List.forall_mem_cons.mpr ⟨hcredit account amount, List.forall_mem_singleton.mpr ?_⟩
    exact hset fun f => f.hp + if account = some .buff then 0 else amount

/-- What holds of the five kinds of steps holds of those of a switch. -/
theorem forall_switchSteps {target : Nat} {carried : Int32} {inherited : List Buff} (fainted : Bool)
    (hleave : p (.board id fun board => board.removeEach inherited))
    (hsweep : p (.board id fun board => board.removeWhere fun x => !x.template.keep))
    (hout : p (.quiet id (comeOut target carried)))
    (hjoin : p (.board id fun board => board.addEach inherited))
    (hsend : p (.scene (Scene.sendOut id target))) :
    ∀ s ∈ switchSteps id target carried inherited fainted, p s := by
  have hcome : ∀ s ∈ comeOutSteps id target carried inherited fainted, p s := by
    refine List.forall_mem_cons.mpr ⟨hout, ?_⟩
    refine List.forall_mem_append.mpr ⟨?_, List.forall_mem_singleton.mpr hsend⟩
    split
    · exact List.forall_mem_nil _
    · exact List.forall_mem_singleton.mpr hjoin
  exact List.forall_mem_cons.mpr ⟨hleave, List.forall_mem_cons.mpr ⟨hsweep, hcome⟩⟩

/-- What holds of every sweep and of the listed removal holds of the steps of a removal. -/
theorem forall_removeSteps {ctx : Context} (categories : List Category) {ids : List Int32}
    (hwhere : ∀ q : Buff → Bool, p (.board id fun board => board.removeWhere q))
    (hlisted : p (.fighter id (removeListed ctx ids))) :
    ∀ s ∈ removeSteps ctx id categories ids, p s := by
  refine List.forall_mem_append.mpr ⟨List.forall_mem_flatMap.mpr fun category _ => ?_, ?_⟩
  · refine List.forall_mem_cons.mpr ⟨hwhere _, ?_⟩
    split
    · exact List.forall_mem_singleton.mpr (hwhere _)
    · exact List.forall_mem_nil _
  · split
    · exact List.forall_mem_nil _
    · exact List.forall_mem_singleton.mpr hlisted

/-- What holds of the four kinds of steps holds of those of a copy. -/
theorem forall_copySteps {ctx : Context} {source target : DuelistId} {listed : List Buff}
    {stages : Stages} {drained : List StageChannel} {typed : List Buff} (transfer : Bool)
    (hput : ∀ x ∈ listed ++ typed, p (.board target fun board => board.add x))
    (hshift : p (.fighter target fun f => f.shiftStages ctx.catalog stages))
    (hdrain : ∀ c, p (.fighter source fun f => f.setStage ctx.catalog c 0))
    (htake : p (.board source (takeBack listed typed))) :
    ∀ s ∈ copySteps ctx source target listed stages drained typed transfer, p s := by
  obtain ⟨hlisted, htyped⟩ := List.forall_mem_append.mp hput
  unfold copySteps
  simp only [List.forall_mem_append]
  refine ⟨⟨⟨⟨List.forall_mem_map.mpr hlisted, List.forall_mem_singleton.mpr hshift⟩,
    List.forall_mem_map.mpr fun c _ => hdrain c⟩, List.forall_mem_map.mpr htyped⟩, ?_⟩
  split
  · exact List.forall_mem_singleton.mpr htake
  · exact List.forall_mem_nil _

end Lists

/-- Every deed is the end of the duel, or made of moves. -/
theorem moves (ctx : Context) (deed : Deed) :
    (∃ o, deed = .finish o) ∨ ∀ s ∈ deed.steps ctx, Move ctx s := by
  -- Only the end of a duel is no move, as it is the one step that is not alike on both sides.
  cases deed with
  | finish o => exact Or.inl ⟨o, rfl⟩
  | switchPet id target carried inherited fainted =>
    exact Or.inr (forall_switchSteps fainted (.removeEach id inherited) (.removeWhere id _)
      (.comeOut id target carried) (.addEach id inherited) (.sendOut id target))
  | heal id h => exact Or.inr (forall_healSteps h (.setHp id) (.credit id))
  | removeBuffs id categories ids =>
    exact Or.inr (forall_removeSteps categories (.removeWhere id) (.removeListed id ids))
  | copyBuffs source target listed stages drained typed transfer =>
    exact Or.inr (forall_copySteps transfer (fun x _ => .add target x) (.shiftStages target stages)
      (.resetStage source) (.removeBoth source listed typed))
  | capture id chance => exact Or.inr (List.forall_mem_singleton.mpr (.capture id chance))
  | rage id low high gain => exact Or.inr (List.forall_mem_singleton.mpr (.enrage id low high gain))
  | raiseStages id wanted pick =>
    exact Or.inr (List.forall_mem_singleton.mpr (.moveStages id wanted pick))
  | addStats id c amount => exact Or.inr (List.forall_mem_singleton.mpr (.addStats id c amount))
  | blockBuffs id block ids ranges =>
    exact Or.inr (List.forall_mem_singleton.mpr (.block id block ids ranges))
  | addBuff id x => exact Or.inr (List.forall_mem_singleton.mpr (.add id x))
  | setBuff id buff a x => exact Or.inr (List.forall_mem_singleton.mpr (.writeBuff id buff a x))
  | setTurn id a x => exact Or.inr (List.forall_mem_singleton.mpr (.setTurn id a x))
  | setSkill id choice ownCost =>
    exact Or.inr (List.forall_mem_singleton.mpr (.useSkill id choice ownCost))
  | setPet id a x => exact Or.inr (List.forall_mem_singleton.mpr (.writeFighter id a x))
  | setWeather w => exact Or.inr (List.forall_mem_singleton.mpr (.weather w))

/-- Whatever holds of the end of the duel and of every move holds of every step of a deed. -/
theorem forall_steps {ctx : Context} {p : Step → Prop}
    (hfinish : ∀ o, p (.scene fun s => s.finish o)) (hmove : ∀ s, Move ctx s → p s) (deed : Deed) :
    ∀ s ∈ deed.steps ctx, p s := by
  rcases deed.moves ctx with ⟨o, rfl⟩ | hmoves
  · exact List.forall_mem_singleton.mpr (hfinish o)
  · exact fun s hs => hmove s (hmoves s hs)

end Deed

end PetDuel
