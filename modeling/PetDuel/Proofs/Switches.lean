import PetDuel.Proofs.Removals

/-!
Switches of fighters where nothing answers the coming and the leaving of buffs. The buffs that stay
with the team move on to the fighter that comes out, and so does a part of the anger; beyond this
only the slot that is out changes.
-/

namespace PetDuel

/-- A fighter after it was called back: what moves on and what does not survive a switch is gone. -/
def Fighter.calledBack (f : Fighter) : Fighter :=
  { f with board := { f.board with
      active := f.board.active.filter fun x => x.template.keep && !x.template.inherit } }

def Fighter.arriving (carried : Int32) (inherited : List Buff) (g : Fighter) : Fighter :=
  { g with anger := g.sheet.limitAnger carried, board := (g.board.addEach inherited).1 }

/-- The fighter that comes out in the place of another: it takes over its part of the anger, and the
buffs that move on if the other one can still fight. -/
def Fighter.inPlaceOf (rules : Rules) (f g : Fighter) : Fighter :=
  g.arriving (Double.ofInt32 f.anger * rules.angerCarry).floorToInt32
    (if f.isDead then [] else f.board.active.filter fun x => x.template.inherit)

variable {d : Duelist} {f g : Fighter} {target : Nat}

namespace Fighter

/-- Calling back takes away one by one what moves on, and then what does not survive a switch. -/
theorem calledBack_eq (f : Fighter) :
    ((f.onBoard fun board => board.removeEach (f.board.active.filter fun x =>
      x.template.inherit)).1.onBoard fun board => board.removeWhere fun x => !x.template.keep).1 =
      f.calledBack := by
  let inherits (x : Buff) : Bool := x.template.inherit
  -- Removing the inherited buffs one by one takes just these, however often they stand there.
  have hinherited : (f.onBoard fun board => board.removeEach (f.board.active.filter inherits)).1 =
      f.without inherits fun _ => false := by
    rw [← onBoard_removeWhere]
    exact congrArg (fun board => { f with board }) (BuffBoard.removeEach_filter inherits f.board)
  have hboth : (f.board.active.filter fun x => !(inherits x || !x.template.keep)) =
      f.board.active.filter fun x => x.template.keep && !inherits x := by
    apply List.filter_congr
    intro x _
    rw [Bool.not_or, Bool.not_not, Bool.and_comm]
  rw [hinherited, onBoard_removeWhere, without_without]
  calc f.without (fun x => inherits x || !x.template.keep) (fun _ => false)
      = { f with board := { f.board with
          active := f.board.active.filter fun x => !(inherits x || !x.template.keep) } } :=
        without_noStage _ f
    _ = f.calledBack := by
        rw [hboth]
        rfl

end Fighter

namespace Duelist

def exchange (target : Nat) (f g : Fighter) (d : Duelist) : Duelist :=
  { d with team := ⟨(d.team.fighters.set d.team.cursor f).set target g, target⟩ }

/-- Coming out after a change of the fighter that is out is an exchange of the two slots. -/
theorem comeOut_setActive (hg : d.team.fighters[target]? = some g) (hne : target ≠ d.team.cursor)
    (carried : Int32) (f : Fighter) :
    Deed.comeOut target carried (d.setActive f) = d.exchange target f (g.arriving carried []) := by
  -- Another slot was written, so that the one that comes out is there as before.
  have hthere : (d.team.fighters.set d.team.cursor f)[target]? = some g :=
    (List.getElem?_set_ne hne.symm).trans hg
  have hactive : ({ d.setActive f with team := { (d.setActive f).team with
      cursor := target } } : Duelist).active? = some g := hthere
  unfold Deed.comeOut
  dsimp only
  rw [hactive]
  rfl

theorem active?_exchange (hg : d.team.fighters[target]? = some g) (hne : target ≠ d.team.cursor)
    (f h : Fighter) : (d.exchange target f h).active? = some h := by
  have hthere : (d.team.fighters.set d.team.cursor f)[target]? = some g :=
    (List.getElem?_set_ne hne.symm).trans hg
  obtain ⟨hslot, _⟩ := List.getElem?_eq_some_iff.mp hthere
  exact List.getElem?_set_self hslot

theorem setActive_exchange (f g h : Fighter) :
    (d.exchange target f g).setActive h = d.exchange target f h := by
  have hset : ((d.team.fighters.set d.team.cursor f).set target g).set target h =
      (d.team.fighters.set d.team.cursor f).set target h := List.set_set g
  simp only [exchange, setActive, Team.setActive, hset]

/-- A switch writes two slots: that of the fighter called back and that of the one sent out. -/
theorem switch_eq (hf : d.active? = some f) (hg : d.team.fighters[target]? = some g)
    (hne : target ≠ d.team.cursor) (carried : Int32) (fainted : Bool) :
    d.switch target carried (f.board.active.filter fun x => x.template.inherit) fainted =
      d.exchange target f.calledBack (g.arriving carried
        (if fainted then [] else f.board.active.filter fun x => x.template.inherit)) := by
  let inherited := f.board.active.filter fun x => x.template.inherit
  let left := (f.onBoard fun board => board.removeEach inherited).1
  have hleft : (d.onFighter (Fighter.onBoard fun board => board.removeEach inherited)).1 =
      d.setActive left := onFighter_fst hf _
  have hback : ((d.setActive left).onFighter (Fighter.onBoard fun board =>
      board.removeWhere fun x => !x.template.keep)).1 = d.setActive f.calledBack := by
    rw [onFighter_fst (active?_setActive hf left), setActive_setActive, ← f.calledBack_eq]
  have hout := comeOut_setActive hg hne carried f.calledBack
  -- The cursor moves before the last step, which therefore finds the fighter that came out.
  unfold switch
  dsimp only
  rw [hleft, hback, hout]
  cases fainted with
  | true => rfl
  | false =>
    have hthere := active?_exchange hg hne f.calledBack (g.arriving carried [])
    rw [if_neg Bool.false_ne_true, if_neg Bool.false_ne_true, onFighter_fst hthere,
      setActive_exchange]
    rfl

end Duelist

/-- A switch that names another slot of the team is read as one. -/
theorem Effect.decide?_switch {ctx : Context} {m : Moment} {e : Effect} {id : DuelistId}
    (hability : e.ability = .switchPet)
    (htarget : Number.int64? (Text.trim (e.option "target_index" "-1")) = some (target : Int))
    (hinvoker : e.invoker = some id) (hd : m.scene.duelist? id = some d)
    (hf : d.active? = some f) (hg : d.team.fighters[target]? = some g) :
    e.decide? ctx m = some (.switchPet id target
      (Double.ofInt32 f.anger * ctx.rules.angerCarry).floorToInt32
      (f.board.active.filter fun x => x.template.inherit) f.isDead) := by
  have hslot : d.team.isSlot target = true := by
    obtain ⟨hlt, _⟩ := List.getElem?_eq_some_iff.mp hg
    unfold Team.isSlot
    rw [Bool.and_eq_true, decide_eq_true_iff, decide_eq_true_iff]
    omega
  have hread : e.decide? ctx m = e.decideSwitch ctx m := by
    unfold decide?
    rw [hability]
  rw [hread]
  simp only [decideSwitch, htarget, hinvoker, hd, hf, hslot, guard_true, Option.bind_eq_bind,
    Option.bind_some, Int.toNat_natCast]
  rfl

/-- A switch to another slot in a quiet duel is carried out. The fighter that was out keeps, in
order, the buffs that survive a switch and do not move on; the one that comes out takes over its
part of the anger, and the buffs that move on are added to its own one after the other, unless the
other one has fainted. The slot is recorded on the player's own side, and nothing else changes. -/
theorem switch_moves_inherited {ctx : Context} {b : Battle} {e : Effect} {id : DuelistId}
    (hcatalog : ∀ t ∈ ctx.catalog.buffs, t.Quiet)
    (hboards : ∀ f ∈ b.scene.fighters, ∀ x ∈ f.board.active, x.template.Quiet)
    (hability : e.ability = .switchPet)
    (htarget : Number.int64? (Text.trim (e.option "target_index" "-1")) = some (target : Int))
    (hinvoker : e.invoker = some id) (hd : b.scene.duelist? id = some d)
    (hf : d.active? = some f) (hg : d.team.fighters[target]? = some g)
    (hne : target ≠ d.team.cursor) :
    ctx.dispatch e b = (true, b.onScene fun s =>
      (s.update id fun d => d.exchange target f.calledBack (f.inPlaceOf ctx.rules g)).sendOut
        id target) := by
  let carried := (Double.ofInt32 f.anger * ctx.rules.angerCarry).floorToInt32
  let inherited := f.board.active.filter fun x => x.template.inherit
  have hdecide : e.decide? ctx b.now = some (.switchPet id target carried inherited f.isDead) :=
    Effect.decide?_switch hability htarget hinvoker hd hf hg
  have hpossible : (b.scene.duelist? id).isSome = true := Option.isSome_of_eq_some hd
  -- Only the duelist as it is found there counts for what is made of it.
  have hupdate : b.scene.update id (Duelist.switch target carried inherited f.isDead) =
      b.scene.update id fun d => d.exchange target f.calledBack (f.inPlaceOf ctx.rules g) := by
    rw [Scene.update_of_duelist?_eq_some hd, Duelist.switch_eq hf hg hne,
      Scene.update_of_duelist?_eq_some hd fun d => d.exchange _ _ _]
    rfl
  have hwalk : b.scene.walk (Deed.switchSteps id target carried inherited f.isDead) =
      (b.scene.update id fun d =>
        d.exchange target f.calledBack (f.inPlaceOf ctx.rules g)).sendOut id target := by
    rw [Scene.walk_switchSteps, hupdate]
  rw [Context.dispatch_eq_walk hcatalog hboards hdecide]
  exact congrArg₂ (fun done scene => (done, { b with scene })) hpossible hwalk

/-- A buff that is there twice and is stacked moves on twice, a blocked one is lost, and the anger
taken over is cut to the bound of the fighter that comes out. -/
theorem switch_moves_equal_buffs :
    let template (id : Int32) (keep inherit : Bool) : BuffTemplate :=
      { (default : BuffTemplate) with id, keep, inherit, policy := .stack, maxValue := 9 }
    let moving (turn value : Int32) : Buff := .new (template 22 true true) turn value
    let kept : Buff := .new (template 20 true false) 3 1
    let lost : Buff := .new (template 21 false false) 3 1
    let turnedAway : Buff := .new (template 23 false true) 3 1
    let f := { (default : Fighter) with
      hp := 1, anger := 26
      board := ⟨[moving 3 2, kept, lost, turnedAway, moving 3 2], [], []⟩ }
    let g := { (default : Fighter) with
      sheet := { (default : StatSheet) with maxAnger := 18 }, board := ⟨[moving 1 1], [23], []⟩ }
    let ctx : Context := ⟨⟨[], [], []⟩, {}⟩
    let b := Battle.new (.new ⟨1⟩ [f, f, g] 0) (.new ⟨2⟩ [] 0)
    let e := (Effect.new .attack .switchPet ⟨[("target_index", " 2")]⟩).actingFor ⟨1⟩
    let after := (ctx.dispatch e b).2.scene
    ctx.dispatch e b = (true, b.onScene fun s => (s.update ⟨1⟩ fun d =>
        d.exchange 2 f.calledBack (f.inPlaceOf ctx.rules g)).sendOut ⟨1⟩ 2) ∧
      after.own.team.fighters.map (fun f => (f.anger, f.board.active)) =
        [(26, [kept]), (26, f.board.active), (18, [moving 3 5])] ∧
      after.sentOut = [2] := by
  intro template moving kept lost turnedAway f g ctx b e after
  have hboards : ∀ f ∈ b.scene.fighters, ∀ x ∈ f.board.active, x.template.Quiet := by decide
  have htarget : Number.int64? (Text.trim (e.option "target_index" "-1")) = some 2 := by
    decide +kernel
  have hdispatch : ctx.dispatch e b = (true, b.onScene fun s => (s.update ⟨1⟩ fun d =>
      d.exchange 2 f.calledBack (f.inPlaceOf ctx.rules g)).sendOut ⟨1⟩ 2) :=
    switch_moves_inherited (List.forall_mem_nil _) hboards rfl htarget rfl rfl rfl rfl (by decide)
  have hafter : after = (b.scene.update ⟨1⟩ fun d =>
      d.exchange 2 f.calledBack (f.inPlaceOf ctx.rules g)).sendOut ⟨1⟩ 2 :=
    congrArg (fun p => p.2.scene) hdispatch
  rw [hafter]
  exact ⟨hdispatch, by decide +kernel, rfl⟩

end PetDuel
