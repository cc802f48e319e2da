import PetDuel.Proofs.Footprints
import PetDuel.Proofs.Targets

/-!
A dispatch keeps to the footprint of its effect: the steps of its deed do, and in a quiet duel these
are all that happens.
-/

namespace PetDuel

namespace Scene

variable {named : DuelistId → Prop} {R : Duelist → Duelist → Prop} {s t u : Scene} {id : DuelistId}

theorem Within.refl (s : Scene) : s.Within named R s := ⟨rfl, Or.inl rfl, Or.inl rfl⟩

theorem Within.trans (hR : ∀ d e d', R d e → R e d' → R d d') (hst : s.Within named R t)
    (htu : t.Within named R u) : s.Within named R u where
  rest := by
    have hlast := htu.rest
    rw [hst.rest] at hlast
    exact hlast
  own := hst.own.trans hR htu.own
  opposing := hst.opposing.trans hR htu.opposing

/-- A change of a named duelist stays within the named ones. -/
theorem within_update (hid : named id) {f : Duelist → Duelist} (hf : ∀ d, R d (f d)) (s : Scene) :
    s.Within named R (s.update id f) := by
  rcases s.duelist?_cases id with
    ⟨hown, _, hupdate⟩ | ⟨_, hopposing, _, hupdate⟩ | ⟨_, _, _, hupdate⟩
  · rw [hupdate]
    exact ⟨rfl, Or.inr ⟨hown ▸ hid, hf s.own⟩, Or.inl rfl⟩
  · rw [hupdate]
    exact ⟨rfl, Or.inl rfl, Or.inr ⟨hopposing ▸ hid, hf s.opposing⟩⟩
  · rw [hupdate]
    exact .refl s

theorem Within.keepsBench (h : s.Within named R t) (hR : ∀ d e, R d e → d.KeepsBench e) :
    s.own.KeepsBench t.own ∧ s.opposing.KeepsBench t.opposing :=
  ⟨h.own.keepsBench hR, h.opposing.keepsBench hR⟩

theorem Ends.teams (h : s.Ends t) :
    t.own.team = s.own.team ∧ t.opposing.team = s.opposing.team :=
  ⟨congrArg (fun u => u.own.team) h, congrArg (fun u => u.opposing.team) h⟩

theorem sendOut_rest (id : DuelistId) (slot : Nat) (s : Scene) :
    s.sendOut id slot = { s with sentOut := (s.sendOut id slot).sentOut } := by
  unfold sendOut
  split <;> rfl

/-- A capture is first a try, which touches the named duelist, and then perhaps the end of the duel.
-/
theorem capture_footprint (hid : named id) (chance : Double) (s : Scene) :
    ∃ u, s.Within named Duelist.Tries u ∧ u.Ends (s.capture id chance) := by
  unfold Scene.capture
  cases hd : s.duelist? id with
  | none => exact ⟨s, .refl s, rfl⟩
  | some d =>
    have htried : s.Within named Duelist.Tries (s.update id fun d => (d.tryCapture chance).2) :=
      within_update hid (fun d => ⟨_, _, rfl⟩) s
    rw [update_of_duelist?_eq_some hd] at htried
    refine ⟨_, htried, ?_⟩
    dsimp only
    split <;> rfl

end Scene

/-- What each step stays within, all steps one after the other stay within: by induction on the
steps. -/
theorem Scene.within_walk {named : DuelistId → Prop} {R : Duelist → Duelist → Prop}
    (hR : ∀ d e d', R d e → R e d' → R d d') {steps : List Step}
    (hsteps : ∀ step ∈ steps, ∀ t : Scene, t.Within named R (step.move t)) (s : Scene) :
    s.Within named R (s.walk steps) := by
  induction steps generalizing s with
  | nil => exact .refl s
  | cons step steps ih =>
    obtain ⟨hstep, hsteps⟩ := List.forall_mem_cons.mp hsteps
    exact (hstep s).trans hR (ih hsteps (step.move s))

section Deeds

variable {e : Effect} {s t : Scene} {ctx : Context} {deed : Deed} {named : DuelistId → Prop}
  {id : DuelistId}

theorem Scene.within_quiet {R : Duelist → Duelist → Prop} (hid : named id) {f : Duelist → Duelist}
    (hf : ∀ d, R d (f d)) (s : Scene) : s.Within named R ((Step.quiet id f).move s) :=
  within_update hid hf s

theorem Scene.within_fighter {R : Fighter → Fighter → Prop} (hid : named id)
    {op : Fighter → Fighter × BuffChange} (hop : ∀ f, R f (op f).1) (s : Scene) :
    s.Within named (Duelist.Out R) ((Step.fighter id op).move s) :=
  within_update hid (Duelist.out_onFighter hop) s

theorem Scene.within_mapFighter {R : Fighter → Fighter → Prop} (hid : named id)
    {op : Fighter → Fighter} (hop : ∀ f, R f (op f)) (s : Scene) :
    s.Within named (Duelist.Out R) ((Step.quiet id (Duelist.mapFighter op)).move s) :=
  within_update hid (Duelist.out_mapFighter hop) s

/-- What is credited and what is gained are one change of the duelist. -/
theorem Scene.within_healSteps (hid : named id) (x : Healing) (s : Scene) :
    s.Within named Duelist.Heals (s.walk (Deed.healSteps id x)) := by
  have honly (n : Fighter → Int32) (f : Fighter) : f.OnlyHp (f.setHp (n f)) := rfl
  cases x with
  | set hp =>
    have hheals (d : Duelist) : d.Heals (d.mapFighter fun f => f.setHp hp) :=
      ⟨d.turn, Or.inl rfl, Duelist.out_mapFighter (honly fun _ => hp) d⟩
    exact within_quiet hid hheals s
  | gain account amount =>
    let credited (d : Duelist) : Duelist := { d with turn := Deed.credit account amount d.turn }
    let gain (f : Fighter) : Int32 := f.hp + if account = some .buff then 0 else amount
    let gained : Duelist → Duelist := Duelist.mapFighter fun f => f.setHp (gain f)
    have hheals (d : Duelist) : d.Heals (gained (credited d)) :=
      ⟨_, d.turn.onlyHeal_credit account amount, Duelist.out_mapFighter (honly gain) (credited d)⟩
    have hcredited (d : Duelist) : (credited d).id = d.id := rfl
    change s.Within named Duelist.Heals ((s.update id credited).update id gained)
    rw [update_comp hcredited gained s]
    exact within_update hid hheals s

theorem Scene.within_removeSteps (hid : named id) (categories : List Category) (ids : List Int32)
    (s : Scene) : s.Within named (Duelist.Out (Fighter.Spares fun _ => true))
      (s.walk (Deed.removeSteps ctx id categories ids)) := by
  refine within_walk (fun _ _ _ => .trans fun _ _ _ => .trans) ?_ s
  refine Deed.forall_removeSteps categories (fun q t => ?_) fun t => ?_
  · exact within_fighter hid
      (Fighter.spares_onBoard (BuffBoard.spares_removeWhere fun _ _ => rfl)) t
  · exact within_fighter hid (Fighter.spares_removeListed ctx ids) t

/-- A copy touches buffs and stages on both sides, and nothing else of the two fighters. -/
theorem Scene.within_copySteps {source target : DuelistId} (hsource : named source)
    (htarget : named target) (listed : List Buff) (stages : Stages) (drained : List StageChannel)
    (typed : List Buff) (transfer : Bool) (s : Scene) :
    s.Within named (Duelist.Out (Fighter.Spares fun _ => true))
      (s.walk (Deed.copySteps ctx source target listed stages drained typed transfer)) := by
  have hremove (xs : List Buff) (board : BuffBoard) :
      board.Spares (fun _ => true) (board.removeEach xs).1 :=
    BuffBoard.spares_each (fun _ _ => BuffBoard.spares_remove rfl) board
  refine within_walk (fun _ _ _ => .trans fun _ _ _ => .trans) ?_ s
  refine Deed.forall_copySteps transfer (fun x _ t => ?_) (fun t => ?_) (fun c t => ?_) fun t => ?_
  · exact within_fighter htarget (Fighter.spares_onBoard (BuffBoard.spares_add rfl)) t
  · exact within_fighter htarget (Fighter.spares_shiftStages (fun _ _ => rfl) stages) t
  · exact within_fighter hsource (Fighter.spares_writeStage (fun _ _ => rfl) c 0) t
  · have htake (board : BuffBoard) :
        board.Spares (fun _ => true) (Deed.takeBack listed typed board).1 :=
      (hremove listed board).trans (hremove typed _)
    exact within_fighter hsource (Fighter.spares_onBoard htake) t

/-- The steps of a deed stay within the footprint of the effect that came to it. -/
theorem Effect.footprint_walk (hability : e.ability ∈ deed.abilities)
    (hnamed : deed.NamedBy e s) : e.Footprint s (s.walk (deed.steps ctx)) := by
  have honly {a : Ability} (ha : e.ability ∈ [a]) : e.ability = a := List.mem_singleton.mp ha
  unfold Effect.Footprint
  -- A deed comes from one ability, save for two kinds of deeds that come from two.
  cases deed with
  | finish o =>
    rcases List.mem_cons.mp hability with ha | ha
    · rw [ha]
      rfl
    · rw [honly ha]
      rfl
  | capture id chance =>
    rw [honly hability]
    exact Scene.capture_footprint hnamed chance s
  | switchPet id target carried inherited fainted =>
    rw [honly hability]
    have hswitches (d : Duelist) := d.switches_switch target carried inherited fainted
    refine ⟨_, Scene.within_update hnamed hswitches s, ?_⟩
    have hwalk : s.walk ((Deed.switchPet id target carried inherited fainted).steps ctx) = _ :=
      Scene.walk_switchSteps id target carried inherited fainted s
    rw [hwalk]
    exact Scene.sendOut_rest ..
  | heal id x =>
    rw [honly hability]
    exact Scene.within_healSteps hnamed x s
  | rage id low high gain =>
    rw [honly hability]
    have hangers (f : Fighter) : f.OnlyAnger (Deed.enrage low high gain f) := rfl
    exact Scene.within_mapFighter hnamed hangers s
  | raiseStages id wanted pick =>
    rw [honly hability]
    exact Scene.within_update hnamed (Duelist.raises_moveStages ctx wanted pick) s
  | addStats id c amount =>
    rw [honly hability]
    exact Scene.within_mapFighter hnamed (fun _ => ⟨c, _, rfl⟩) s
  | blockBuffs id block ids ranges =>
    rw [honly hability]
    exact Scene.within_mapFighter hnamed (Fighter.onlyBlocks_blockOn block ids ranges) s
  | addBuff id x =>
    rw [honly hability]
    exact Scene.within_fighter hnamed.1 (fun f => ⟨x.id, hnamed.2, f.onlyBuffs_add x⟩) s
  | removeBuffs id categories ids =>
    rw [honly hability]
    exact Scene.within_removeSteps hnamed categories ids s
  | copyBuffs source target listed stages drained typed transfer =>
    rw [honly hability]
    exact Scene.within_copySteps (Or.inl hnamed.1) (Or.inr hnamed.2) listed stages drained typed
      transfer s
  | setBuff id n a x =>
    rw [honly hability]
    exact Scene.within_fighter hnamed.1 (fun f => ⟨n, hnamed.2, f.onlyBuffs_writeBuff n a x⟩) s
  | setTurn id a x =>
    obtain ⟨hid, hdamage, hfield⟩ := hnamed
    rcases List.mem_cons.mp hability with ha | ha
    · rw [ha]
      have htakes (d : Duelist) :
          d.TakesDamage { d with turn := (d.turn.write? a x).getD d.turn } :=
        ⟨rfl, d.turn.onlyDamage_write? (hdamage ha) x⟩
      exact Scene.within_quiet hid htakes s
    · rw [honly ha]
      dsimp only
      rw [if_neg (hfield (honly ha))]
      have hwrites (d : Duelist) : d.Writes { d with turn := (d.turn.write? a x).getD d.turn } :=
        ⟨rfl, d.turn.onlyWritten_write? a x⟩
      exact Scene.within_quiet hid hwrites s
  | setSkill id choice ownCost =>
    rw [honly hability]
    dsimp only
    rw [if_pos hnamed.2]
    have hchooses (d : Duelist) : d.Chooses (Deed.useSkill ctx choice ownCost d) := rfl
    exact Scene.within_quiet hnamed.1 hchooses s
  | setPet id a x =>
    rw [honly hability]
    exact Scene.within_fighter hnamed (Fighter.onlyWritten_writeFighter ctx a x) s
  | setWeather w =>
    rw [honly hability]
    rfl

/-- An effect may as well change nothing. -/
theorem Effect.footprint_refl (e : Effect) (s : Scene) : e.Footprint s s := by
  unfold Effect.Footprint
  cases e.ability with
  | win | escape | setWeather => rfl
  | capture | switchPet => exact ⟨s, .refl s, rfl⟩
  | setSkill =>
    dsimp only
    split <;> exact .refl s
  | _ => exact .refl s

/-- No footprint holds a fighter that is not out. -/
theorem Effect.Footprint.keepsBench (h : e.Footprint s t) :
    s.own.KeepsBench t.own ∧ s.opposing.KeepsBench t.opposing := by
  unfold Effect.Footprint at h
  cases ha : e.ability <;> rw [ha] at h
  case win | escape =>
    obtain ⟨hown, hopposing⟩ := h.teams
    exact ⟨.of_team hown, .of_team hopposing⟩
  case capture =>
    obtain ⟨u, htried, hends⟩ := h
    obtain ⟨hown, hopposing⟩ := hends.teams
    obtain ⟨hkept, hkept'⟩ := htried.keepsBench fun _ _ => Duelist.Tries.keepsBench
    exact ⟨hkept.congr hown, hkept'.congr hopposing⟩
  case switchPet =>
    obtain ⟨u, hswitched, hsent⟩ := h
    rw [hsent]
    exact hswitched.keepsBench fun _ _ => Duelist.Switches.keepsBench
  case heal => exact h.keepsBench fun _ _ => Duelist.Heals.keepsBench
  case raiseStages => exact h.keepsBench fun _ _ => Duelist.Raises.keepsBench
  case setDamage => exact h.keepsBench fun _ _ => Duelist.TakesDamage.keepsBench
  case setSkill =>
    dsimp only at h
    split at h
    · exact h.keepsBench fun _ _ => Duelist.Chooses.keepsBench
    · exact h.keepsBench fun _ _ => Duelist.Writes.keepsBench
  case setWeather =>
    rw [h]
    exact ⟨.of_team rfl, .of_team rfl⟩
  all_goals exact h.keepsBench fun _ _ => Duelist.Out.keepsBench

end Deeds

/-- Where no template, of the content or on a board, answers the coming or the leaving of a buff, a
dispatch changes the scene within the footprint of the effect and nothing else. The fighters that
are out neither before nor after are among what it leaves as it is, and so are the kept scenes. -/
theorem dispatch_keeps_to_footprint {ctx : Context} {b : Battle}
    (hcatalog : ∀ t ∈ ctx.catalog.buffs, t.Quiet)
    (hboards : ∀ f ∈ b.scene.fighters, ∀ x ∈ f.board.active, x.template.Quiet) (e : Effect) :
    ∃ t, (ctx.dispatch e b).2 = { b with scene := t } ∧ e.Footprint b.scene t ∧
      b.scene.own.KeepsBench t.own ∧ b.scene.opposing.KeepsBench t.opposing := by
  have hquiet : ctx.catalog.Licensed .quiet :=
    ⟨fun _ t ht _ _ => hcatalog t (Catalog.buff?_cases ht).1, fun _ _ _ _ _ => trivial⟩
  obtain ⟨hown, hopposing⟩ := List.forall_mem_append.mp hboards
  have hscene : b.scene.Licensed .quiet :=
    ⟨⟨hown, fun _ _ => trivial⟩, ⟨hopposing, fun _ _ => trivial⟩⟩
  rw [Context.dispatch, ctx.dispatchWith_snd ctx.answer_idle]
  cases hdecide : e.decide? ctx b.now with
  | none =>
    have hkept := e.footprint_refl b.scene
    exact ⟨b.scene, rfl, hkept, hkept.keepsBench⟩
  | some deed =>
    have hdeed : deed.Licensed .quiet := Effect.licensed_of_decide? hquiet hscene trivial hdecide
    have hplay : b.play ctx.answer (deed.steps ctx) =
        { b with scene := b.scene.walk (deed.steps ctx) } :=
      Battle.play_eq_walk (Deed.obeys_steps hquiet hdeed) hscene
    have hwithin : e.Footprint b.scene (b.scene.walk (deed.steps ctx)) :=
      Effect.footprint_walk (Effect.mem_abilities_of_decide? hdecide)
        (Effect.namedBy_of_decide? hdecide)
    exact ⟨_, hplay, hwithin, hwithin.keepsBench⟩

/-- An attack that falls by three changes the scene, within the footprint of its effect. -/
theorem fallen_attack_keeps_to_footprint :
    let ctx : Context := ⟨.plainMarkers, {}⟩
    let b := Battle.new (.new ⟨1⟩ [.raisedByOne] 0) (.new ⟨2⟩ [] 0)
    let e := (Effect.new .attack .raiseStages ⟨[("atk", "-3")]⟩).actingFor ⟨1⟩
    (∀ t ∈ ctx.catalog.buffs, t.Quiet) ∧
      (∀ f ∈ b.scene.fighters, ∀ x ∈ f.board.active, x.template.Quiet) ∧
      (∃ t, (ctx.dispatch e b).2 = { b with scene := t } ∧ e.Footprint b.scene t ∧
        b.scene.own.KeepsBench t.own ∧ b.scene.opposing.KeepsBench t.opposing) ∧
      (ctx.dispatch e b).2.scene ≠ b.scene := by
  intro ctx b e
  have hcatalog : ∀ t ∈ ctx.catalog.buffs, t.Quiet := Catalog.plainMarkers_marksStages.quiet
  have hboards : ∀ f ∈ b.scene.fighters, ∀ x ∈ f.board.active, x.template.Quiet :=
    List.forall_mem_singleton.mpr <| List.forall_mem_singleton.mpr fun _ he => nomatch he
  exact ⟨hcatalog, hboards, dispatch_keeps_to_footprint hcatalog hboards e, by decide +kernel⟩

end PetDuel
