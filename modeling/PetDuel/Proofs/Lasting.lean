import PetDuel.Proofs.Bounds
import PetDuel.Proofs.Spared

/-!
What lasts through a duel. Who takes part and with which pets is settled when the duel opens: no
event changes a number, a team or what a pet is made of, the fighter that is out always has a slot
in its team, and a duelist that is done stays done. Deeds rely on this when they look up somebody
again after an answer.
-/

namespace PetDuel

/-- Only attributes that can be written differ: what a pet is and can do, and the statistics that it
has outside the duel, are the same. -/
structure Pet.SameMake (p q : Pet) : Prop where
  id : q.id = p.id
  baseId : q.baseId = p.baseId
  element : q.element = p.element
  subElement : q.subElement = p.subElement
  ev : q.ev = p.ev
  skills : q.skills = p.skills
  entryBuffs : q.entryBuffs = p.entryBuffs
  normal : q.normal = p.normal
  current : q.current = p.current

structure Fighter.SameMake (f g : Fighter) : Prop where
  pet : f.pet.SameMake g.pet
  entry : g.sheet.entry = f.sheet.entry

def Duelist.Placed (d : Duelist) : Prop := d.team.cursor < d.team.fighters.length

structure Duelist.Lasts (d e : Duelist) : Prop where
  id : e.id = d.id
  team : List.Forall₂ Fighter.SameMake d.team.fighters e.team.fighters
  placed : e.Placed
  done : d.done = true → e.done = true

/-- A scene later on: the same duelists, and more slots of the player's own team sent out. -/
structure Scene.Lasts (s t : Scene) : Prop where
  own : s.own.Lasts t.own
  opposing : s.opposing.Lasts t.opposing
  acting : t.acting = s.acting
  sentOut : ∃ slots, t.sentOut = s.sentOut ++ slots ∧ ∀ i ∈ slots, i < s.own.team.fighters.length

namespace Pet

variable {p q r : Pet}

theorem SameMake.refl (p : Pet) : p.SameMake p := ⟨rfl, rfl, rfl, rfl, rfl, rfl, rfl, rfl, rfl⟩

theorem SameMake.trans (h : p.SameMake q) (h' : q.SameMake r) : p.SameMake r where
  id := h'.id.trans h.id
  baseId := h'.baseId.trans h.baseId
  element := h'.element.trans h.element
  subElement := h'.subElement.trans h.subElement
  ev := h'.ev.trans h.ev
  skills := h'.skills.trans h.skills
  entryBuffs := h'.entryBuffs.trans h.entryBuffs
  normal := h'.normal.trans h.normal
  current := h'.current.trans h.current

theorem sameMake_write? {a : PetAttribute} {x : Double} (h : p.write? a x = some q) :
    p.SameMake q := by
  cases a <;> cases h <;> exact ⟨rfl, rfl, rfl, rfl, rfl, rfl, rfl, rfl, rfl⟩

end Pet

namespace Fighter

variable {f g h : Fighter}

theorem SameMake.of_eq (hpet : g.pet = f.pet) (hentry : g.sheet.entry = f.sheet.entry) :
    f.SameMake g := by
  refine ⟨?_, hentry⟩
  rw [hpet]
  exact .refl f.pet

theorem SameMake.refl (f : Fighter) : f.SameMake f := .of_eq rfl rfl

theorem SameMake.trans (hfg : f.SameMake g) (hgh : g.SameMake h) : f.SameMake h :=
  ⟨hfg.pet.trans hgh.pet, hgh.entry.trans hfg.entry⟩

/-- Stages and buffs are no part of what a fighter is made of. -/
theorem Spares.sameMake {ids : Int32 → Bool} (h : f.Spares ids g) : f.SameMake g := by
  rw [h.rest]
  exact .of_eq rfl rfl

theorem sameMake_shiftStages (catalog : Catalog) (delta : Stages) (f : Fighter) :
    f.SameMake (f.shiftStages catalog delta).1 := by
  have hspares : f.Spares (fun _ => true) (f.shiftStages catalog delta).1 :=
    spares_shiftStages (fun _ _ => rfl) delta f
  exact hspares.sameMake

theorem sameMake_setStage (catalog : Catalog) (c : StageChannel) (n : Int32) (f : Fighter) :
    f.SameMake (f.setStage catalog c n).1 := by
  have hspares : f.Spares (fun _ => true) (f.setStage catalog c n).1 :=
    spares_writeStage (fun _ _ => rfl) c n f
  exact hspares.sameMake

/-- What is written of a fighter is no part of its make, also where the write goes through to its
pet. -/
theorem sameMake_write? (a : FighterAttribute) (x : Double) (f : Fighter) :
    f.SameMake ((f.write? a x).getD f) := by
  cases a with
  | stage c =>
    refine .of_eq rfl ?_
    change (f.sheet.setStageOf c x.toInt32).entry = f.sheet.entry
    unfold StatSheet.setStageOf
    split <;> rfl
  | pet a =>
    cases hpet : f.pet.write? a x with
    | none =>
      simp only [write?, hpet, Option.map_none, Option.getD_none]
      exact .refl f
    | some pet =>
      simp only [write?, hpet, Option.map_some, Option.getD_some]
      exact ⟨Pet.sameMake_write? hpet, rfl⟩
  | hp | anger | minAnger | maxAnger | buffs | entryStat | maxHp | isDead | stat =>
    exact .of_eq rfl rfl

theorem sameMake_writeFighter (ctx : Context) (a : FighterAttribute) (x : Double) (f : Fighter) :
    f.SameMake (Deed.writeFighter ctx a x f).1 := by
  have hwritten := sameMake_write? a x f
  have hsynced (g : Fighter) : g.Spares (fun _ => true) (g.syncMarkers ctx.catalog).1 :=
    spares_syncEach (fun _ _ _ => rfl) g
  unfold Deed.writeFighter
  dsimp only
  split
  · exact hwritten.trans (hsynced _).sameMake
  · exact hwritten

theorem sameMake_removeListed (ctx : Context) (ids : List Int32) (f : Fighter) :
    f.SameMake (Deed.removeListed ctx ids f).1 := (spares_removeListed ctx ids f).sameMake

end Fighter

namespace Duelist

variable {d e d' : Duelist}

theorem Lasts.trans (h : d.Lasts e) (h' : e.Lasts d') : d.Lasts d' where
  id := h'.id.trans h.id
  team := forall₂_trans (fun _ _ _ hfg hgh => hfg.trans hgh) h.team h'.team
  placed := h'.placed
  done := fun hdone => h'.done (h.done hdone)

/-- Skills, random streams and the end of the duel are no part of a team. -/
theorem Placed.lasts (h : d.Placed) (hid : e.id = d.id) (hteam : e.team = d.team)
    (hdone : d.done = true → e.done = true) : d.Lasts e where
  id := hid
  team := by
    rw [hteam]
    exact List.forall₂_same.mpr fun f _ => .refl f
  placed := by
    unfold Placed
    rw [hteam]
    exact h
  done := hdone

theorem Placed.refl (h : d.Placed) : d.Lasts d := h.lasts rfl rfl fun hdone => hdone

/-- When the fighter that is out turns into one of the same make, the team stays the same, slot by
slot. -/
theorem Placed.setActive (h : d.Placed) {f g : Fighter} (hf : d.active? = some f)
    (hg : f.SameMake g) : d.Lasts (d.setActive g) where
  id := rfl
  team := forall₂_set .refl hf hg
  placed := by
    change d.team.cursor < (d.team.fighters.set d.team.cursor g).length
    rw [List.length_set]
    exact h
  done := fun hdone => hdone

theorem Placed.mapFighter (h : d.Placed) {op : Fighter → Fighter}
    (hop : ∀ f : Fighter, f.SameMake (op f)) : d.Lasts (d.mapFighter op) := by
  unfold Duelist.mapFighter
  split
  · rename_i f hf
    exact h.setActive hf (hop f)
  · exact h.refl

theorem Placed.onFighter (h : d.Placed) {op : Fighter → Fighter × BuffChange}
    (hop : ∀ f : Fighter, f.SameMake (op f).1) : d.Lasts (d.onFighter op).1 := by
  unfold Duelist.onFighter
  split
  · rename_i f hf
    exact h.setActive hf (hop f)
  · exact h.refl

theorem Placed.moveStages (h : d.Placed) (ctx : Context) (wanted : Stages) (pick : Pick) :
    d.Lasts (d.moveStages ctx wanted pick).1 := by
  have hdrawn : d.Lasts { d with stream := (Deed.picked wanted pick d.stream).2 } :=
    h.lasts rfl rfl fun hdone => hdone
  have hmoved := hdrawn.placed.onFighter fun f => Fighter.sameMake_shiftStages ctx.catalog
    (Deed.doubled f.board (Deed.picked wanted pick d.stream).1) f
  exact hdrawn.trans hmoved

/-- Another fighter comes out of a slot that the team has. -/
theorem Lasts.comeOut (h : d.Lasts e) {target : Nat} (htarget : target < d.team.fighters.length)
    (carried : Int32) : d.Lasts (Deed.comeOut target carried e) := by
  have hsize : d.team.fighters.length = e.team.fighters.length := h.team.length_eq
  have hplaced : target < e.team.fighters.length := hsize ▸ htarget
  have hout : d.Lasts { e with team := { e.team with cursor := target } } :=
    ⟨h.id, h.team, hplaced, h.done⟩
  unfold Deed.comeOut
  dsimp only
  split
  · rename_i f hf
    exact hout.trans (hout.placed.setActive hf (.of_eq rfl rfl))
  · exact hout

end Duelist

namespace Scene

variable {s t : Scene} {id : DuelistId} {d e : Duelist}

theorem lasts_refl (hown : s.own.Placed) (hopposing : s.opposing.Placed) : s.Lasts s where
  own := hown.refl
  opposing := hopposing.refl
  acting := rfl
  sentOut := ⟨[], (List.append_nil _).symm, List.forall_mem_nil _⟩

/-- Whoever has a number had it from the start, and may go on in any way that lasts. -/
theorem Lasts.duelist? (h : s.Lasts t) (he : t.duelist? id = some e) :
    ∃ d, s.duelist? id = some d ∧ d.Lasts e ∧
      ∀ e', d.Lasts e' → s.Lasts (t.update id fun _ => e') := by
  rcases duelist?_eq_some_cases he with ⟨hid, ⟨rfl, hupdate⟩ | ⟨hne, rfl, hupdate⟩⟩
  · have hown : s.own.id = id := h.own.id.symm.trans hid
    refine ⟨s.own, if_pos hown, h.own, fun e' he' => ?_⟩
    rw [hupdate]
    exact ⟨he', h.opposing, h.acting, h.sentOut⟩
  · have hown : s.own.id ≠ id := fun hown => hne (h.own.id.trans hown)
    have hopposing : s.opposing.id = id := h.opposing.id.symm.trans hid
    refine ⟨s.opposing, ?_, h.opposing, fun e' he' => ?_⟩
    · rw [Scene.duelist?, if_neg hown, if_pos hopposing]
    · rw [hupdate]
      exact ⟨h.own, he', h.acting, h.sentOut⟩

/-- The end of a duel changes neither the duelists nor the slots that were sent out. -/
theorem Lasts.finish (h : s.Lasts t) (o : Outcome) : s.Lasts (t.finish o) :=
  ⟨⟨h.own.id, h.own.team, h.own.placed, fun _ => rfl⟩,
    ⟨h.opposing.id, h.opposing.team, h.opposing.placed, fun _ => rfl⟩, h.acting, h.sentOut⟩

/-- A try at a capture moves a stream and may end the duel, and what lasts is touched by neither. -/
theorem Lasts.capture (h : s.Lasts t) (id : DuelistId) (chance : Double) :
    s.Lasts (t.capture id chance) := by
  unfold Scene.capture
  cases he : t.duelist? id with
  | none => exact h
  | some e =>
    obtain ⟨d, _, hlasts, hupdate⟩ := h.duelist? he
    have htried : s.Lasts (t.update id fun _ => (e.tryCapture chance).2) :=
      hupdate _ ⟨hlasts.id, hlasts.team, hlasts.placed, hlasts.done⟩
    dsimp only
    split
    · exact htried.finish .captured
    · exact htried

/-- The slot that is recorded is one of the own team, since only its number brings it here. -/
theorem Lasts.sendOut (h : s.Lasts t) {target : Nat}
    (htarget : ∀ d, s.duelist? id = some d → target < d.team.fighters.length) :
    s.Lasts (t.sendOut id target) := by
  unfold Scene.sendOut
  split
  · rename_i hown
    have hid : s.own.id = id := h.own.id.symm.trans (beq_iff_eq.mp hown)
    have hvalid : target < s.own.team.fighters.length := htarget s.own (if_pos hid)
    obtain ⟨slots, hslots, hslotsValid⟩ := h.sentOut
    refine ⟨h.own, h.opposing, h.acting, slots ++ [target], ?_, ?_⟩
    · change t.sentOut ++ [target] = _
      rw [hslots, List.append_assoc]
    · exact List.forall_mem_append.mpr ⟨hslotsValid, List.forall_mem_singleton.mpr hvalid⟩
  · exact h

end Scene

def Step.Lasting (s : Scene) : Step → Prop
  | scene f => ∀ t, s.Lasts t → s.Lasts (f t)
  | duelist id f => ∀ d e, s.duelist? id = some d → d.Lasts e → d.Lasts (f e).1

def Deed.OnTeam (s : Scene) : Deed → Prop
  | .switchPet id target .. => ∀ d, s.duelist? id = some d → target < d.team.fighters.length
  | _ => True

namespace Step

variable {s : Scene} {id : DuelistId}

/-- A step that lasts from one scene on lasts from every scene that this one has turned into. -/
theorem Lasting.act {step : Step} (h : step.Lasting s) {b : Battle} (hb : s.Lasts b.scene) :
    s.Lasts (step.act b).1.scene := by
  cases step with
  | scene f => exact h b.scene hb
  | duelist id f =>
    cases he : b.scene.duelist? id with
    | none =>
      rw [act_duelist_of_none he]
      exact hb
    | some e =>
      obtain ⟨d, hd, hlasts, hupdate⟩ := hb.duelist? he
      rw [act_duelist_of_some he]
      exact hupdate _ (h d e hd hlasts)

theorem lasting_quiet {f : Duelist → Duelist} (h : ∀ d : Duelist, d.Placed → d.Lasts (f d)) :
    (quiet id f).Lasting s := fun _ e _ hlasts => hlasts.trans (h e hlasts.placed)

theorem lasting_mapFighter {op : Fighter → Fighter} (h : ∀ f : Fighter, f.SameMake (op f)) :
    (quiet id (Duelist.mapFighter op)).Lasting s := lasting_quiet fun _ hd => hd.mapFighter h

theorem lasting_fighter {op : Fighter → Fighter × BuffChange}
    (h : ∀ f : Fighter, f.SameMake (op f).1) : (fighter id op).Lasting s :=
  fun _ _ _ hlasts => hlasts.trans (hlasts.placed.onFighter h)

theorem lasting_board (f : BuffBoard → BuffBoard × BuffChange) : (board id f).Lasting s :=
  lasting_fighter fun _ => .of_eq rfl rfl

end Step

namespace Deed

variable {s : Scene} {ctx : Context} {deed : Deed}

/-- Only a switch names a slot, so every other deed stays on the team. -/
theorem onTeam_of_mem_abilities {a : Ability} (h : a ∈ deed.abilities) (ha : a ≠ .switchPet) :
    deed.OnTeam s := by
  cases deed with
  | switchPet => exact absurd (List.mem_singleton.mp h) ha
  | _ => trivial

/-- What was looked up when the deed was decided on still counts at each of its steps, whatever the
answers in between did. -/
theorem lasting_steps (h : deed.OnTeam s) : ∀ step ∈ deed.steps ctx, step.Lasting s := by
  cases deed with
  | finish o => exact List.forall_mem_singleton.mpr fun t ht => ht.finish o
  | capture id chance => exact List.forall_mem_singleton.mpr fun t ht => ht.capture id chance
  | switchPet id target carried inherited fainted =>
    refine forall_switchSteps fainted ?_ ?_ ?_ ?_ ?_
    · exact Step.lasting_board _
    · exact Step.lasting_board _
    · intro d e hd hlasts
      exact hlasts.comeOut (h d hd) carried
    · exact Step.lasting_board _
    · intro t ht
      exact ht.sendOut h
  | heal id x =>
    refine forall_healSteps x ?_ ?_
    · exact fun n => Step.lasting_mapFighter fun _ => .of_eq rfl rfl
    · exact fun account amount => Step.lasting_quiet fun _ hd => hd.lasts rfl rfl fun h => h
  | rage id | addStats id =>
    exact List.forall_mem_singleton.mpr (Step.lasting_mapFighter fun _ => .of_eq rfl rfl)
  | blockBuffs id block ids ranges =>
    refine List.forall_mem_singleton.mpr (Step.lasting_mapFighter fun f => ?_)
    cases block <;> exact .of_eq rfl rfl
  | raiseStages id wanted pick =>
    refine List.forall_mem_singleton.mpr fun d e _ hlasts => ?_
    exact hlasts.trans (hlasts.placed.moveStages ctx wanted pick)
  | addBuff id | setBuff id => exact List.forall_mem_singleton.mpr (Step.lasting_board _)
  | removeBuffs id categories ids =>
    refine forall_removeSteps categories ?_ ?_
    · exact fun q => Step.lasting_board _
    · exact Step.lasting_fighter (Fighter.sameMake_removeListed ctx ids)
  | copyBuffs source target listed stages drained typed transfer =>
    refine forall_copySteps transfer ?_ ?_ ?_ ?_
    · exact fun x _ => Step.lasting_board _
    · exact Step.lasting_fighter (Fighter.sameMake_shiftStages ctx.catalog stages)
    · exact fun c => Step.lasting_fighter (Fighter.sameMake_setStage ctx.catalog c 0)
    · exact Step.lasting_board _
  | setTurn id | setSkill id =>
    refine List.forall_mem_singleton.mpr (Step.lasting_quiet fun d hd => ?_)
    exact hd.lasts rfl rfl fun h => h
  | setPet id a x =>
    exact List.forall_mem_singleton.mpr
      (Step.lasting_fighter (Fighter.sameMake_writeFighter ctx a x))
  | setWeather w =>
    exact List.forall_mem_singleton.mpr fun t ht => ⟨ht.own, ht.opposing, ht.acting, ht.sentOut⟩

end Deed

/-- A switch is decided on only for a slot that the team has. -/
theorem Effect.onTeam_of_decide? {s : Scene} {ctx : Context} {e : Effect} {m : Moment} {deed : Deed}
    (hm : s.Lasts m.scene) (h : e.decide? ctx m = some deed) : deed.OnTeam s := by
  have hability := mem_abilities_of_decide? h
  by_cases ha : e.ability = .switchPet
  · unfold decide? at h
    simp only [ha, decideSwitch, Option.bind_eq_bind, Option.bind_eq_some_iff,
      Option.guard_eq_some'] at h
    obtain ⟨target, _, id, _, e, he, _, hslot, f, _, h⟩ := h
    cases h
    obtain ⟨d, hd, hlasts, _⟩ := hm.duelist? he
    intro d' hd'
    obtain rfl : d = d' := Option.some.inj (hd.symm.trans hd')
    have hsize : d.team.fighters.length = e.team.fighters.length := hlasts.team.length_eq
    unfold Team.isSlot at hslot
    simp only [Bool.and_eq_true, decide_eq_true_eq] at hslot
    omega
  · exact Deed.onTeam_of_mem_abilities hability ha

/-- Everything lasts through any dispatch, however deep answers nest. -/
theorem invariant_lasts (ctx : Context) (s : Scene) :
    Invariant ctx (fun b => s.Lasts b.scene) fun _ => True where
  atDepth := fun _ _ h => h
  steps := by
    intro e b deed _ hb hdecide step hstep b' hb'
    have hteam : deed.OnTeam s := Effect.onTeam_of_decide? hb hdecide
    have hlasting : step.Lasting s := Deed.lasting_steps hteam step hstep
    exact ⟨hlasting.act hb', fun _ _ _ _ _ => trivial⟩

/-- What lasts is kept by an event, whichever of the four it is. -/
theorem Event.run_lasts (ctx : Context) (event : Event) {s : Scene} {b : Battle}
    (hb : s.Lasts b.scene) : s.Lasts (event.run ctx b).scene := by
  have inv := invariant_lasts ctx s
  have hadvance (phase : Timing) : s.Lasts (b.advance phase).scene :=
    ⟨hb.own, hb.opposing, hb.acting, hb.sentOut⟩
  cases event with
  | dispatch e => exact inv.dispatch trivial hb
  | resolve timing => exact inv.dispatchEach timing (fun _ _ => trivial) (hadvance timing)
  | advance phase => exact hadvance phase
  | endTurn =>
    have hnext : (Step.scene Scene.nextTurn).Lasting s := fun t ht =>
      ⟨⟨ht.own.id, ht.own.team, ht.own.placed, ht.own.done⟩,
        ⟨ht.opposing.id, ht.opposing.team, ht.opposing.placed, ht.opposing.done⟩,
        ht.acting, ht.sentOut⟩
    have hsteps : ∀ step ∈ b.scene.endTurnSteps, step.Lasting s := by
      refine List.forall_mem_cons.mpr ⟨Step.lasting_board _, ?_⟩
      exact List.forall_mem_cons.mpr ⟨Step.lasting_board _, List.forall_mem_singleton.mpr hnext⟩
    change s.Lasts (ctx.endTurn b).scene
    rw [ctx.endTurn_eq_play]
    refine inv.play (fun step hstep b' hb' => ⟨(hsteps step hstep).act hb', ?_⟩) hb
    exact fun _ _ _ _ _ => trivial

/-- However a duel goes on, it goes on between the same two duelists with the same pets, in the same
slots of teams of the same size, and the fighters that are out are always in such a slot. -/
theorem duel_lasts {b : Battle} (hown : b.scene.own.Placed) (hopposing : b.scene.opposing.Placed)
    (events : List (Context × Event)) : b.scene.Lasts (b.after events).scene := by
  have hrun (s : Scene) (b : Battle) (hb : s.Lasts b.scene) : s.Lasts (b.after events).scene := by
    induction events generalizing b with
    | nil => exact hb
    | cons step events ih => exact ih (step.2.run step.1 b) (step.2.run_lasts step.1 hb)
  exact hrun b.scene b (Scene.lasts_refl hown hopposing)

/-- The second fighter of a team is sent out, and then grows to another level. -/
theorem duel_lasts_through_switch :
    let team := [Fighter.new .ofTenHp {}, .new .ofTenHp {}]
    let b := Battle.new (.new ⟨1⟩ team 0) (.new ⟨2⟩ team 0)
    let switch := (Effect.new .attack .switchPet ⟨[("target_index", "1")]⟩).actingFor ⟨1⟩
    let grow := (Effect.new .attack .setPet ⟨[("type", "level"), ("value", "4")]⟩).actingFor ⟨1⟩
    let events : List (Context × Event) :=
      [(⟨.empty, {}⟩, .dispatch switch), (⟨.empty, {}⟩, .dispatch grow)]
    b.scene.own.Placed ∧ b.scene.opposing.Placed ∧ b.scene.Lasts (b.after events).scene ∧
      (b.after events).scene.own.team.cursor = 1 ∧ (b.after events).scene.sentOut = [1] ∧
      (b.after events).scene.own.active?.map (fun f => f.pet.level) = some 5 := by
  intro team b switch grow events
  have hown : b.scene.own.Placed := Nat.zero_lt_succ 1
  have hopposing : b.scene.opposing.Placed := Nat.zero_lt_succ 1
  refine ⟨hown, hopposing, duel_lasts hown hopposing events, ?_, ?_, ?_⟩ <;> decide +kernel

end PetDuel
