import PetDuel.Proofs.FighterChanges
import PetDuel.Proofs.Readings
import PetDuel.Proofs.Steps

/-!
Keeping to a licence. A scene keeps to a licence when its fighters bear what they may and the skills
in use do what they may. An effect that may be dispatched there comes to a deed that keeps to the
licence, and every step of such a deed takes the fighters of both teams, out or not, through changes
under the licence.
-/

namespace PetDuel

def Scene.fighters (s : Scene) : List Fighter := s.own.team.fighters ++ s.opposing.team.fighters

def Effect.Licensed (L : Licence) (e : Effect) : Prop := L.fires e.ability e.options

structure Duelist.Licensed (L : Licence) (d : Duelist) : Prop where
  fighters : ∀ f ∈ d.team.fighters, f.board.Bears L.bears
  skill : ∀ e ∈ d.skill.effects, e.Licensed L

structure Scene.Licensed (L : Licence) (s : Scene) : Prop where
  own : s.own.Licensed L
  opposing : s.opposing.Licensed L

def Deed.Licensed (L : Licence) : Deed → Prop
  | .switchPet _ _ _ inherited _ => ∀ x ∈ inherited, L.bears x
  | .addStats _ c _ => L.Grows c
  | .blockBuffs _ block _ _ => block = true ∨ L.Unblocks
  | .addBuff _ x => L.bears x
  | .copyBuffs _ _ listed _ _ typed _ => ∀ x ∈ listed ++ typed, L.bears x
  | .setSkill _ (.fixed s) _ => ∀ e ∈ s.effects, e.Licensed L
  | _ => True

/-- A duelist goes on under a licence: each of its fighters changes under it. -/
structure Duelist.Becomes (L : Licence) (d e : Duelist) : Prop where
  fighters : List.Forall₂ (Fighter.Changes L) d.team.fighters e.team.fighters
  licensed : e.Licensed L

structure Scene.Becomes (L : Licence) (s t : Scene) : Prop where
  own : s.own.Becomes L t.own
  opposing : s.opposing.Becomes L t.opposing

/-- A step under which duelists go on under a licence, and which asks to answer only the change of
buffs that may be borne. -/
def Step.Obeys (L : Licence) : Step → Prop
  | scene f => ∀ s : Scene, s.Licensed L → s.Becomes L (f s)
  | duelist _ f => ∀ d : Duelist, d.Licensed L → d.Becomes L (f d).1 ∧ (f d).2.Bears L.bears

variable {L : Licence} {ctx : Context}

namespace Duelist

variable {d e d' : Duelist} {f g : Fighter}

theorem Becomes.refl (h : d.Licensed L) : d.Becomes L d :=
  ⟨List.forall₂_same.mpr fun _ _ => .refl, h⟩

theorem Becomes.trans (h : d.Becomes L e) (h' : e.Becomes L d') : d.Becomes L d' :=
  ⟨forall₂_trans (fun _ _ _ => .trans) h.fighters h'.fighters, h'.licensed⟩

/-- Everything about a duelist but its fighters and the effects of its skill may be anything. -/
theorem Licensed.becomes (h : d.Licensed L) (hfighters : e.team.fighters = d.team.fighters)
    (hskill : ∀ x ∈ e.skill.effects, x.Licensed L) : d.Becomes L e := by
  refine ⟨?_, ?_, hskill⟩
  · rw [hfighters]
    exact List.forall₂_same.mpr fun _ _ => .refl
  · rw [hfighters]
    exact h.fighters

theorem Licensed.setActive (h : d.Licensed L) (hf : d.active? = some f) (hg : f.Changes L g) :
    d.Becomes L (d.setActive g) := by
  have hmem : f ∈ d.team.fighters := List.mem_of_getElem? hf
  refine ⟨forall₂_set (fun _ => .refl) hf hg, fun x hx => ?_, h.skill⟩
  rcases List.mem_or_eq_of_mem_set hx with hold | rfl
  · exact h.fighters x hold
  · exact hg.bears (h.fighters f hmem)

theorem Licensed.active? (h : d.Licensed L) (hf : d.active? = some f) : f.board.Bears L.bears :=
  h.fighters f (List.mem_of_getElem? hf)

theorem Licensed.mapFighter (h : d.Licensed L) {op : Fighter → Fighter}
    (hop : ∀ f : Fighter, f.Changes L (op f)) : d.Becomes L (d.mapFighter op) := by
  unfold Duelist.mapFighter
  split
  · rename_i f hf
    exact h.setActive hf (hop f)
  · exact .refl h

/-- An operation that obeys the licence keeps the duelist to it, and so does what it reports. -/
theorem Licensed.onFighter (h : d.Licensed L) {op : Fighter → Fighter × BuffChange}
    (hop : Fighter.Obeys L op) :
    d.Becomes L (d.onFighter op).1 ∧ (d.onFighter op).2.Bears L.bears := by
  unfold Duelist.onFighter
  split
  · rename_i f hf
    have hresult := hop f (h.active? hf)
    exact ⟨h.setActive hf hresult.changes, hresult.bears⟩
  · exact ⟨.refl h, BuffChange.none_bears⟩

/-- Moving stages obeys a licence that the content keeps to, since markers come from the content. -/
theorem Licensed.moveStages (hcatalog : ctx.catalog.Licensed L) (h : d.Licensed L)
    (wanted : Stages) (pick : Pick) : d.Becomes L (d.moveStages ctx wanted pick).1 ∧
      (d.moveStages ctx wanted pick).2.Bears L.bears := by
  have hdrawn : d.Becomes L { d with stream := (Deed.picked wanted pick d.stream).2 } :=
    h.becomes rfl h.skill
  obtain ⟨hmoved, hbears⟩ := hdrawn.licensed.onFighter <| Fighter.obeys_shiftStages hcatalog
    fun f => Deed.doubled f.board (Deed.picked wanted pick d.stream).1
  exact ⟨hdrawn.trans hmoved, hbears⟩

/-- Coming out moves the cursor and writes the anger that is carried over, both of which every
licence allows. -/
theorem Licensed.comeOut (h : d.Licensed L) (target : Nat) (carried : Int32) :
    d.Becomes L (Deed.comeOut target carried d) := by
  have hout : d.Becomes L { d with team := { d.team with cursor := target } } :=
    h.becomes rfl h.skill
  unfold Deed.comeOut
  dsimp only
  split
  · rename_i f hf
    have hanger : f.Changes L (f.setAnger carried) := .single (.anger _ _ carried)
    exact hout.trans (hout.licensed.setActive hf hanger)
  · exact hout

/-- Writing an attribute of the turn changes no effect of the skill. -/
theorem effects_write? (t : TurnRecord) (a : TurnAttribute) (x : Double) :
    ((t.write? a x).getD t).skill.effects = t.skill.effects := by
  cases a with
  | skill a =>
    cases a with
    | kind =>
      simp only [TurnRecord.write?, Skill.write?]
      cases SkillKind.ofCode? x.toInt32 <;> rfl
    | _ => rfl
  | _ => rfl

/-- A skill that is chosen has only effects that may be dispatched, also when it is drawn from the
content. -/
theorem Licensed.useSkill (hcatalog : ctx.catalog.Licensed L) (h : d.Licensed L)
    {choice : SkillChoice} (hchoice : ∀ s, choice = .fixed s → ∀ e ∈ s.effects, e.Licensed L)
    (ownCost : Bool) : d.Becomes L (Deed.useSkill ctx choice ownCost d) := by
  refine h.becomes rfl ?_
  unfold Deed.useSkill
  cases choice with
  | fixed s =>
    have hs := hchoice s rfl
    cases ownCost <;> exact hs
  | random =>
    -- A drawn skill is one of the content, or the one that does nothing.
    have hs : ∀ e ∈ ((ctx.catalog.randomSkill d.stream).1.getD .pass).effects, e.Licensed L := by
      cases hdrawn : (ctx.catalog.randomSkill d.stream).1 with
      | none => exact List.forall_mem_nil _
      | some s =>
        obtain ⟨id, _, hid⟩ := Option.bind_eq_some_iff.mp hdrawn
        exact hcatalog.skills id s hid
    cases ownCost <;> exact hs

end Duelist

namespace Scene

variable {s t u : Scene} {id : DuelistId} {d e : Duelist} {f : Fighter}

theorem Becomes.refl (h : s.Licensed L) : s.Becomes L s := ⟨.refl h.own, .refl h.opposing⟩

theorem Becomes.trans (h : s.Becomes L t) (h' : t.Becomes L u) : s.Becomes L u :=
  ⟨h.own.trans h'.own, h.opposing.trans h'.opposing⟩

theorem Becomes.licensed (h : s.Becomes L t) : t.Licensed L :=
  ⟨h.own.licensed, h.opposing.licensed⟩

theorem Becomes.fighters (h : s.Becomes L t) :
    List.Forall₂ (Fighter.Changes L) s.fighters t.fighters :=
  List.rel_append h.own.fighters h.opposing.fighters

theorem Licensed.duelist? (h : s.Licensed L) (hd : s.duelist? id = some d) : d.Licensed L := by
  rcases duelist?_eq_some_cases hd with ⟨_, ⟨rfl, _⟩ | ⟨_, rfl, _⟩⟩
  · exact h.own
  · exact h.opposing

theorem Licensed.active? (h : s.Licensed L) (hf : s.active? id = some f) :
    f.board.Bears L.bears := by
  obtain ⟨d, hd, hactive⟩ := Option.bind_eq_some_iff.mp hf
  exact (h.duelist? hd).active? hactive

theorem Licensed.update (h : s.Licensed L) (hd : s.duelist? id = some d) (he : d.Becomes L e) :
    s.Becomes L (s.update id fun _ => e) := by
  rcases duelist?_eq_some_cases hd with ⟨_, ⟨rfl, hupdate⟩ | ⟨_, rfl, hupdate⟩⟩
  · rw [hupdate]
    exact ⟨he, .refl h.opposing⟩
  · rw [hupdate]
    exact ⟨.refl h.own, he⟩

/-- The end of a duel leaves the fighters and skills of both sides. -/
theorem Licensed.finish (h : s.Licensed L) (o : Outcome) : s.Becomes L (s.finish o) :=
  ⟨h.own.becomes rfl h.own.skill, h.opposing.becomes rfl h.opposing.skill⟩

theorem Licensed.capture (h : s.Licensed L) (id : DuelistId) (chance : Double) :
    s.Becomes L (s.capture id chance) := by
  unfold Scene.capture
  cases hd : s.duelist? id with
  | none => exact .refl h
  | some d =>
    have hdrawn : d.Becomes L (d.tryCapture chance).2 :=
      (h.duelist? hd).becomes rfl (h.duelist? hd).skill
    have htried := h.update hd hdrawn
    dsimp only
    split
    · exact htried.trans (htried.licensed.finish .captured)
    · exact htried

theorem Licensed.sendOut (h : s.Licensed L) (id : DuelistId) (slot : Nat) :
    s.Becomes L (s.sendOut id slot) := by
  unfold Scene.sendOut
  split
  · exact ⟨.refl h.own, .refl h.opposing⟩
  · exact .refl h

end Scene

/-- Most deeds need no licence, and their ability tells. -/
theorem Deed.licensed_of_mem_abilities {deed : Deed} {a : Ability} (h : a ∈ deed.abilities)
    (ha : a ∉ [.switchPet, .addStats, .blockBuffs, .addBuff, .copyBuffs, .setSkill]) :
    deed.Licensed L := by
  cases deed with
  | switchPet | addStats | blockBuffs | addBuff | copyBuffs | setSkill =>
    rw [List.mem_singleton.mp h] at ha
    exact absurd (by decide) ha
  | _ => trivial

namespace Effect

variable {e : Effect} {m : Moment} {deed : Deed}

/-- What a switch hands over comes from a board that keeps to the licence. -/
theorem licensed_of_decideSwitch (hm : m.scene.Licensed L)
    (h : e.decideSwitch ctx m = some deed) : deed.Licensed L := by
  simp only [decideSwitch, Option.bind_eq_bind, Option.bind_eq_some_iff] at h
  obtain ⟨_, _, id, _, d, hd, _, _, f, hf, h⟩ := h
  cases h
  have hbears : f.board.Bears L.bears := (hm.duelist? hd).active? hf
  exact fun x hx => hbears x (List.mem_filter.mp hx).1

theorem licensed_of_decideAddStats (he : L.fires .addStats e.options)
    (h : e.decideAddStats m = some deed) : deed.Licensed L := by
  simp only [decideAddStats, Option.bind_eq_bind, Option.bind_eq_some_iff] at h
  obtain ⟨i, hi, channel, hchannel, _, _, _, _, _, _, _, _, h⟩ := h
  cases h
  exact ⟨e.options, he, Option.bind_eq_some_iff.mpr ⟨i, hi, hchannel⟩⟩

/-- A block is lifted only by an effect that may lift one. -/
theorem licensed_of_decideBlock (he : L.fires .blockBuffs e.options)
    (h : e.decideBlock m = some deed) : deed.Licensed L := by
  simp only [decideBlock, Option.bind_eq_bind] at h
  split at h
  · simp only [Option.bind_eq_some_iff] at h
    obtain ⟨_, hblock, _, _, _, _, _, _, _, _, _, _, h⟩ := h
    cases h
    exact Or.inl (Option.some.inj hblock).symm
  · rename_i hop
    simp only [Option.bind_eq_some_iff] at h
    obtain ⟨_, _, _, _, _, _, _, _, _, _, _, _, h⟩ := h
    cases h
    exact Or.inr ⟨e.options, he, hop⟩
  · cases h

theorem licensed_of_decideAddBuff (hcatalog : ctx.catalog.Licensed L)
    (h : e.decideAddBuff ctx m = some deed) : deed.Licensed L := by
  simp only [decideAddBuff, Option.bind_eq_bind, Option.bind_eq_some_iff] at h
  obtain ⟨number, _, template, htemplate, _, _, _, _, _, _, h⟩ := h
  cases h
  exact hcatalog.buffs number template htemplate _ _

/-- What a copy puts on comes from a board that keeps to the licence. -/
theorem licensed_of_decideCopy (hm : m.scene.Licensed L) (h : e.decideCopy m = some deed) :
    deed.Licensed L := by
  simp only [decideCopy, Option.bind_eq_bind, Option.bind_eq_some_iff] at h
  obtain ⟨_, _, _, _, _, _, _, _, _, _, source, _, target, _, f, hf, g, hg, h⟩ := h
  cases h
  have hbears : f.board.Bears L.bears := hm.active? hf
  refine List.forall_mem_append.mpr ⟨fun x hx => ?_, fun x hx => ?_⟩
  · exact hbears x (List.mem_filter.mp (List.mem_filter.mp hx).1).1
  · exact hbears x (List.mem_filter.mp hx).1

/-- A skill that is chosen by number comes from the content. -/
theorem licensed_of_skillChoice? (hcatalog : ctx.catalog.Licensed L) {s : Skill}
    (h : e.skillChoice? ctx = some (.fixed s)) : ∀ x ∈ s.effects, x.Licensed L := by
  unfold skillChoice? at h
  split at h
  · cases h
    exact List.forall_mem_nil _
  · cases h
    exact List.forall_mem_singleton.mpr L.escape
  · cases h
  · obtain ⟨id, _, hs⟩ := Option.map_eq_some_iff.mp h
    cases hs
    unfold Catalog.skillOrPass
    cases hskill : ctx.catalog.skill? id with
    | none => exact List.forall_mem_nil _
    | some s => exact hcatalog.skills id s hskill

theorem licensed_of_decideSetSkill (hcatalog : ctx.catalog.Licensed L)
    (h : e.decideSetSkill ctx m = some deed) : deed.Licensed L := by
  unfold decideSetSkill at h
  dsimp only at h
  split at h
  · simp only [Option.bind_eq_bind, Option.bind_eq_some_iff] at h
    obtain ⟨_, _, choice, hchoice, _, _, _, _, h⟩ := h
    cases h
    cases choice with
    | fixed s => exact licensed_of_skillChoice? hcatalog hchoice
    | random => trivial
  · simp only [Option.bind_eq_bind, Option.bind_eq_some_iff] at h
    obtain ⟨_, _, _, _, _, _, _, _, h⟩ := h
    cases h
    trivial

/-- An effect that may be dispatched comes to a deed that keeps to the licence. -/
theorem licensed_of_decide? (hcatalog : ctx.catalog.Licensed L) (hm : m.scene.Licensed L)
    (he : e.Licensed L) (h : e.decide? ctx m = some deed) : deed.Licensed L := by
  have hability := mem_abilities_of_decide? h
  unfold decide? at h
  unfold Effect.Licensed at he
  cases ha : e.ability <;> rw [ha] at h he hability
  case switchPet => exact licensed_of_decideSwitch hm h
  case addStats => exact licensed_of_decideAddStats he h
  case blockBuffs => exact licensed_of_decideBlock he h
  case addBuff => exact licensed_of_decideAddBuff hcatalog h
  case copyBuffs => exact licensed_of_decideCopy hm h
  case setSkill => exact licensed_of_decideSetSkill hcatalog h
  all_goals exact Deed.licensed_of_mem_abilities hability (by decide)

end Effect

theorem Step.obeys_quiet {id : DuelistId} {f : Duelist → Duelist}
    (h : ∀ d : Duelist, d.Licensed L → d.Becomes L (f d)) : (Step.quiet id f).Obeys L :=
  fun d hd => ⟨h d hd, BuffChange.none_bears⟩

theorem Step.obeys_board {id : DuelistId} {f : BuffBoard → BuffBoard × BuffChange}
    (h : ∀ board : BuffBoard, board.Bears L.bears → board.Outcome L.bears (f board)) :
    (Step.board id f).Obeys L :=
  fun _ hd => hd.onFighter (Fighter.obeys_onBoard h)

/-- A step that obeys keeps the scene to the licence, and what it asks to be answered as well. -/
theorem Step.Obeys.act {s : Step} (h : s.Obeys L) {b : Battle} (hb : b.scene.Licensed L) :
    b.scene.Becomes L (s.act b).1.scene ∧
      ∀ id change, (s.act b).2 = some (id, change) → change.Bears L.bears := by
  cases s with
  | scene f =>
    refine ⟨h b.scene hb, ?_⟩
    intro id change hasked
    cases hasked
  | duelist id f =>
    cases hd : b.scene.duelist? id with
    | none =>
      rw [Step.act_duelist_of_none hd]
      refine ⟨.refl hb, ?_⟩
      intro id change hasked
      cases hasked
    | some d =>
      obtain ⟨hd', hbears⟩ := h d (hb.duelist? hd)
      rw [Step.act_duelist_of_some hd]
      refine ⟨hb.update hd hd', ?_⟩
      intro id change hasked
      cases hasked
      exact hbears

/-- All steps of a deed that keeps to a licence do so. -/
theorem Deed.obeys_steps (hcatalog : ctx.catalog.Licensed L) {deed : Deed} (h : deed.Licensed L) :
    ∀ s ∈ deed.steps ctx, s.Obeys L := by
  have hsweep (id : DuelistId) (p : Buff → Bool) :
      (Step.board id fun board => board.removeWhere p).Obeys L :=
    Step.obeys_board fun _ hboard => hboard.removeWhere p
  cases deed with
  | finish o => exact List.forall_mem_singleton.mpr fun s hs => hs.finish o
  | capture id chance => exact List.forall_mem_singleton.mpr fun s hs => hs.capture id chance
  | switchPet id target carried inherited fainted =>
    refine forall_switchSteps fainted ?_ (hsweep id _) ?_ ?_ fun s hs => hs.sendOut id target
    · exact Step.obeys_board fun _ hboard => hboard.removeEach L.stable inherited
    · exact Step.obeys_quiet fun d hd => hd.comeOut target carried
    · exact Step.obeys_board fun _ hboard => hboard.addEach L.stable h
  | heal id x =>
    refine forall_healSteps x (fun n => ?_) fun account amount => ?_
    · exact Step.obeys_quiet fun d hd => hd.mapFighter fun f => .single (.hp (n f))
    · refine Step.obeys_quiet fun d hd => hd.becomes rfl ?_
      cases account with
      | none => exact hd.skill
      | some account => cases account <;> exact hd.skill
  | rage id low high gain =>
    exact List.forall_mem_singleton.mpr <| Step.obeys_quiet fun d hd =>
      hd.mapFighter (Fighter.changes_enrage low high gain)
  | raiseStages id wanted pick =>
    exact List.forall_mem_singleton.mpr fun d hd => hd.moveStages hcatalog wanted pick
  | addStats id c amount =>
    exact List.forall_mem_singleton.mpr <| Step.obeys_quiet fun d hd =>
      hd.mapFighter fun f => .single (.grow c _ h)
  | blockBuffs id block ids ranges =>
    exact List.forall_mem_singleton.mpr <| Step.obeys_quiet fun d hd =>
      hd.mapFighter (Fighter.changes_blockOn h ids ranges)
  | addBuff id x =>
    exact List.forall_mem_singleton.mpr <| Step.obeys_board fun _ hboard => hboard.add L.stable h
  | removeBuffs id categories ids =>
    exact forall_removeSteps categories (hsweep id) fun d hd =>
      hd.onFighter (Fighter.obeys_removeListed hcatalog ids)
  | copyBuffs source target listed stages drained typed transfer =>
    refine forall_copySteps transfer (fun x hx => ?_) ?_ (fun c => ?_) ?_
    · exact Step.obeys_board fun _ hboard => hboard.add L.stable (h x hx)
    · exact fun d hd => hd.onFighter (Fighter.obeys_shiftStages hcatalog fun _ => stages)
    · exact fun d hd => hd.onFighter (Fighter.obeys_setStage hcatalog c 0)
    · refine Step.obeys_board fun board hboard => ?_
      have hfirst := hboard.removeEach L.stable listed
      exact hfirst.append ((hfirst.changes.bears L.stable hboard).removeEach L.stable typed)
  | setBuff id buff a x =>
    exact List.forall_mem_singleton.mpr fun d hd => hd.onFighter (Fighter.obeys_writeBuff buff a x)
  | setTurn id a x =>
    refine List.forall_mem_singleton.mpr <| Step.obeys_quiet fun d hd => hd.becomes rfl ?_
    change ∀ e ∈ ((d.turn.write? a x).getD d.turn).skill.effects, e.Licensed L
    rw [Duelist.effects_write?]
    exact hd.skill
  | setSkill id choice ownCost =>
    refine List.forall_mem_singleton.mpr <| Step.obeys_quiet fun d hd =>
      hd.useSkill hcatalog (fun s hs => ?_) ownCost
    subst hs
    exact h
  | setPet id a x =>
    exact List.forall_mem_singleton.mpr fun d hd =>
      hd.onFighter (Fighter.obeys_writeFighter hcatalog a x)
  | setWeather w =>
    exact List.forall_mem_singleton.mpr fun s hs => ⟨.refl hs.own, .refl hs.opposing⟩

end PetDuel
