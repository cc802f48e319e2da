import PetDuel.Proofs.Targets
import PetDuel.Proofs.Steps

/-!
Who draws. Three deeds draw from a random stream, each from that of one duelist: a try to capture,
the rise of one stage of several and the choice of a random skill. Drawing moves the stream on and
leaves its seed. All other deeds act the same whatever the streams are, and leave them.
-/

namespace PetDuel

namespace Random.Stream

@[simp]
theorem seed_next32 (r : Stream) : r.next32.2.seed = r.seed := rfl

@[simp]
theorem seed_next64 (r : Stream) : r.next64.2.seed = r.seed := rfl

/-- However many draws it takes to get below a bound, the seed stays. -/
theorem seed_belowFrom (bound : Double) (tries : Nat) (r : Stream) :
    (belowFrom bound tries r).2.seed = r.seed := by
  induction tries generalizing r with
  | zero => rfl
  | succ tries ih =>
    unfold belowFrom
    dsimp only
    split
    · rfl
    · rw [ih, seed_next64]

theorem seed_indexFrom (n : UInt32) (tries : Nat) (r : Stream) :
    (indexFrom n tries r).2.seed = r.seed := by
  induction tries generalizing r with
  | zero => rfl
  | succ tries ih =>
    unfold indexFrom
    dsimp only
    split
    · rfl
    · rw [ih, seed_next32]

theorem seed_below (r : Stream) (bound : Double) : (r.below bound).2.seed = r.seed :=
  seed_belowFrom bound period r

theorem seed_index (r : Stream) (n : UInt32) : (r.index n).2.seed = r.seed :=
  seed_indexFrom n period r

theorem seed_choose {α : Type} (r : Stream) (xs : List α) : (r.choose xs).2.seed = r.seed := by
  unfold choose
  split
  · rfl
  · exact r.seed_index _

theorem seed_weighted (r : Stream) (weights : List Double) :
    (r.weighted weights).2.seed = r.seed := by
  unfold weighted
  split
  · rfl
  · exact r.seed_below _

end Random.Stream

def Scene.streams (s : Scene) : Random.Stream × Random.Stream := (s.own.stream, s.opposing.stream)

def Scene.withStreams (s : Scene) (r : Random.Stream × Random.Stream) : Scene :=
  { s with own := { s.own with stream := r.1 }, opposing := { s.opposing with stream := r.2 } }

/-- A step that does the same whatever the streams are, and leaves them. -/
def Step.Blind : Step → Prop
  | scene f => ∀ s r, f (s.withStreams r) = (f s).withStreams r
  | duelist _ f => ∀ (d : Duelist) stream,
    f { d with stream } = ({ (f d).1 with stream }, (f d).2)

/-- From one scene to the next, no stream moves but that of one duelist, and its seed stays. -/
structure Scene.DrawnBy (id : DuelistId) (s t : Scene) : Prop where
  own : t.own.stream = s.own.stream ∨
    (s.own.id = id ∧ t.own.stream.seed = s.own.stream.seed)
  opposing : t.opposing.stream = s.opposing.stream ∨
    (s.own.id ≠ id ∧ s.opposing.id = id ∧ t.opposing.stream.seed = s.opposing.stream.seed)

def Deed.DrawsFor (id : DuelistId) : Deed → Prop
  | .capture invoker _ => invoker = id
  | .raiseStages who _ pick => who = id ∧ pick ≠ .every
  | .setSkill who choice _ => who = id ∧ choice = .random
  | _ => False

namespace Effect

def Draws (e : Effect) : Prop :=
  e.ability = .capture ∨
  (e.ability = .raiseStages ∧ flag? (e.option "random" "false") = some true ∧
    e.option "random_pdf" "none" ≠ "none") ∨
  (e.ability = .setSkill ∧ e.option "type" "none" = "id" ∧
    Text.trim (e.option "value" "0") = "random")

instance (e : Effect) : Decidable e.Draws := by
  unfold Draws
  infer_instance

/-- Whose stream an effect that draws is for: that of the duelist it acts for when it captures, and
that of the duelist it names otherwise. -/
def drawer? (e : Effect) (s : Scene) : Option DuelistId :=
  if e.ability = .capture then e.invoker else s.named? e "who" "me"

variable {e : Effect} {ctx : Context} {m : Moment} {deed : Deed} {id : DuelistId}

/-- Only an effect that asks for a random pick is settled by a draw. -/
theorem draws_of_pick? {random : Bool} {pick : Pick} (h : e.pick? random = some pick)
    (hpick : pick ≠ .every) : random = true ∧ e.option "random_pdf" "none" ≠ "none" := by
  unfold pick? at h
  cases random with
  | false =>
    cases h
    exact absurd rfl hpick
  | true =>
    refine ⟨rfl, fun hnone => ?_⟩
    have hempty : e.option "random_pdf" Options.emptyText = "none" := hnone
    simp only [hempty, Bool.not_true, Bool.false_eq_true, if_false, Option.some.injEq] at h
    exact hpick h.symm

theorem trim_of_skillChoice? (h : e.skillChoice? ctx = some .random) :
    Text.trim (e.option "value" "0") = "random" := by
  unfold skillChoice? at h
  split at h
  · cases h
  · cases h
  · assumption
  · obtain ⟨_, _, h⟩ := Option.map_eq_some_iff.mp h
    cases h

theorem drawer?_of_ne_capture {s : Scene} (h : e.ability ≠ .capture) :
    e.drawer? s = s.named? e "who" "me" := if_neg h

/-- An effect that comes to a drawing deed asks for the draw, and the deed draws from the stream
that the effect says. -/
theorem draws_of_decide? (h : e.decide? ctx m = some deed) (hdraws : deed.DrawsFor id) :
    e.Draws ∧ e.drawer? m.scene = some id := by
  have hnamed := namedBy_of_decide? h
  have hability := mem_abilities_of_decide? h
  cases deed with
  | capture invoker chance =>
    obtain rfl : invoker = id := hdraws
    have hcapture : e.ability = .capture := List.mem_singleton.mp hability
    exact ⟨Or.inl hcapture, (if_pos hcapture).trans hnamed⟩
  | raiseStages who wanted pick =>
    obtain ⟨rfl, hpick⟩ := hdraws
    have hraise : e.ability = .raiseStages := List.mem_singleton.mp hability
    simp only [decide?, hraise, decideRaise, Option.bind_eq_bind, Option.bind_eq_some_iff] at h
    obtain ⟨random, hrandom, _, _, pick', hread, _, _, _, _, h⟩ := h
    cases h
    obtain ⟨rfl, hpdf⟩ := draws_of_pick? hread hpick
    have hwho : e.drawer? m.scene = some who := by
      rw [drawer?_of_ne_capture (by rw [hraise]; decide)]
      exact hnamed
    exact ⟨Or.inr (Or.inl ⟨hraise, hrandom, hpdf⟩), hwho⟩
  | setSkill who choice ownCost =>
    obtain ⟨rfl, rfl⟩ := hdraws
    obtain ⟨hid, hfield⟩ := hnamed
    have hset : e.ability = .setSkill := List.mem_singleton.mp hability
    have hvalue : Text.trim (e.option "value" "0") = "random" := by
      simp only [decide?, hset, decideSetSkill, hfield, beq_self_eq_true, if_true,
        Option.bind_eq_bind, Option.bind_eq_some_iff] at h
      obtain ⟨_, _, choice, hchoice, _, _, _, _, h⟩ := h
      cases h
      exact trim_of_skillChoice? hchoice
    have hwho : e.drawer? m.scene = some who := by
      rw [drawer?_of_ne_capture (by rw [hset]; decide), hid]
    exact ⟨Or.inr (Or.inr ⟨hset, hfield, hvalue⟩), hwho⟩
  | _ => cases hdraws

end Effect

namespace Step

theorem blind_mapFighter (id : DuelistId) (f : Fighter → Fighter) :
    (quiet id (Duelist.mapFighter f)).Blind := by
  intro d stream
  have hactive : ({ d with stream } : Duelist).active? = d.active? := rfl
  unfold Duelist.mapFighter
  dsimp only
  rw [hactive]
  cases d.active? <;> rfl

theorem blind_fighter (id : DuelistId) (f : Fighter → Fighter × BuffChange) :
    (fighter id f).Blind := by
  intro d stream
  have hactive : ({ d with stream } : Duelist).active? = d.active? := rfl
  unfold Duelist.onFighter
  rw [hactive]
  cases d.active? <;> rfl

/-- Sending another fighter out does not look at the streams. -/
theorem blind_comeOut (id : DuelistId) (target : Nat) (carried : Int32) :
    (quiet id (Deed.comeOut target carried)).Blind := by
  intro d stream
  let out : Duelist := { d with team := { d.team with cursor := target } }
  have hactive : ({ out with stream } : Duelist).active? = out.active? := rfl
  unfold Deed.comeOut
  dsimp only
  rw [hactive]
  cases out.active? <;> rfl

theorem blind_sendOut (id : DuelistId) (slot : Nat) : (scene (Scene.sendOut id slot)).Blind := by
  intro s r
  have hown : (s.withStreams r).isOwn id = s.isOwn id := rfl
  unfold Scene.sendOut
  rw [hown]
  split <;> rfl

/-- Stages that are all moved are moved without a draw. -/
theorem blind_moveStages (ctx : Context) (id : DuelistId) (wanted : Stages) :
    (duelist id (Duelist.moveStages ctx wanted .every)).Blind := by
  have hpicked (r : Random.Stream) : Deed.picked wanted .every r = (wanted, r) := by
    unfold Deed.picked
    dsimp only
    split <;> rfl
  intro d stream
  simp only [Duelist.moveStages, hpicked]
  exact blind_fighter id (fun f => f.shiftStages ctx.catalog (Deed.doubled f.board wanted)) d stream

end Step

/-- A deed that draws from nobody's stream is made of steps that do not look at the streams. -/
theorem Deed.blind_steps (ctx : Context) {deed : Deed} (h : ∀ id, ¬deed.DrawsFor id) :
    ∀ s ∈ deed.steps ctx, s.Blind := by
  have hboard (id : DuelistId) (f : BuffBoard → BuffBoard × BuffChange) : (Step.board id f).Blind :=
    Step.blind_fighter id _
  -- The three deeds that draw are excluded where they do; no other step looks at the streams.
  cases deed with
  | capture id => exact absurd rfl (h id)
  | finish | setWeather => exact List.forall_mem_singleton.mpr fun _ _ => rfl
  | switchPet id target carried inherited fainted =>
    exact forall_switchSteps fainted (hboard id _) (hboard id _)
      (Step.blind_comeOut id target carried) (hboard id _) (Step.blind_sendOut id target)
  | heal id x => exact forall_healSteps x (fun _ => Step.blind_mapFighter id _) fun _ _ _ _ => rfl
  | rage id | addStats id | blockBuffs id =>
    exact List.forall_mem_singleton.mpr (Step.blind_mapFighter id _)
  | raiseStages id wanted pick =>
    obtain rfl : pick = .every := by_contra fun hpick => h id ⟨rfl, hpick⟩
    exact List.forall_mem_singleton.mpr (Step.blind_moveStages ctx id wanted)
  | addBuff id | setBuff id => exact List.forall_mem_singleton.mpr (hboard id _)
  | removeBuffs id categories ids =>
    exact forall_removeSteps categories (fun _ => hboard id _) (Step.blind_fighter id _)
  | copyBuffs source target listed stages drained typed transfer =>
    exact forall_copySteps transfer (fun _ _ => hboard target _) (Step.blind_fighter target _)
      (fun _ => Step.blind_fighter source _) (hboard source _)
  | setTurn => exact List.forall_mem_singleton.mpr fun _ _ => rfl
  | setSkill id choice ownCost =>
    cases choice with
    | fixed s =>
      refine List.forall_mem_singleton.mpr fun _ _ => ?_
      cases ownCost <;> rfl
    | random => exact absurd ⟨rfl, rfl⟩ (h id)
  | setPet id => exact List.forall_mem_singleton.mpr (Step.blind_fighter id _)

namespace Scene

variable {s t : Scene} {id : DuelistId} {d e : Duelist}

theorem DrawnBy.refl (s : Scene) : s.DrawnBy id s := ⟨Or.inl rfl, Or.inl rfl⟩

theorem DrawnBy.congr {u : Scene} (h : s.DrawnBy id t) (hstreams : u.streams = t.streams) :
    s.DrawnBy id u := by
  have hown : u.own.stream = t.own.stream := congrArg Prod.fst hstreams
  have hopposing : u.opposing.stream = t.opposing.stream := congrArg Prod.snd hstreams
  exact ⟨hown ▸ h.own, hopposing ▸ h.opposing⟩

theorem drawnBy_update (hd : s.duelist? id = some d) (hseed : e.stream.seed = d.stream.seed) :
    s.DrawnBy id (s.update id fun _ => e) := by
  rcases duelist?_eq_some_cases hd with ⟨hid, ⟨rfl, hu⟩ | ⟨hne, rfl, hu⟩⟩
  · rw [hu]
    exact ⟨Or.inr ⟨hid, hseed⟩, Or.inl rfl⟩
  · rw [hu]
    exact ⟨Or.inl rfl, Or.inr ⟨hne, hid, hseed⟩⟩

/-- A capture draws for the duelist that tries it. -/
theorem drawnBy_capture (s : Scene) (id : DuelistId) (chance : Double) :
    s.DrawnBy id (s.capture id chance) := by
  unfold capture
  cases hd : s.duelist? id with
  | none => exact .refl s
  | some d =>
    have hseed : (d.tryCapture chance).2.stream.seed = d.stream.seed :=
      d.stream.seed_below 100.0
    have hdrawn := drawnBy_update hd hseed
    dsimp only
    split
    · exact hdrawn.congr rfl
    · exact hdrawn

end Scene

/-- A pick may move the stream but keeps its seed. -/
theorem Deed.seed_picked (wanted : Stages) (pick : Pick) (r : Random.Stream) :
    (picked wanted pick r).2.seed = r.seed := by
  unfold picked
  dsimp only
  split
  · rfl
  · cases pick with
    | every => rfl
    | evenly => exact r.seed_index _
    | byWeight weights => exact r.seed_weighted weights

theorem Duelist.stream_onFighter (d : Duelist) (f : Fighter → Fighter × BuffChange) :
    (d.onFighter f).1.stream = d.stream := by
  unfold onFighter
  split <;> rfl

/-- A deed that draws is one step, and draws from one stream. -/
theorem Deed.drawn_step (ctx : Context) {deed : Deed} {id : DuelistId} (h : deed.DrawsFor id) :
    ∃ step, deed.steps ctx = [step] ∧ ∀ b : Battle, b.scene.DrawnBy id (step.act b).1.scene := by
  -- A step on a duelist draws for it, as long as the seed of its stream stays.
  have hduelist (f : Duelist → Duelist × BuffChange)
      (hf : ∀ d, (f d).1.stream.seed = d.stream.seed) (b : Battle) :
      b.scene.DrawnBy id ((Step.duelist id f).act b).1.scene := by
    cases hd : b.scene.duelist? id with
    | none =>
      rw [Step.act_duelist_of_none hd]
      exact .refl b.scene
    | some d =>
      rw [Step.act_duelist_of_some hd]
      exact Scene.drawnBy_update hd (hf d)
  cases deed with
  | capture invoker chance =>
    obtain rfl : invoker = id := h
    exact ⟨_, rfl, fun b => b.scene.drawnBy_capture invoker chance⟩
  | raiseStages who wanted pick =>
    obtain ⟨rfl, -⟩ := h
    refine ⟨_, rfl, hduelist (Duelist.moveStages ctx wanted pick) fun d => ?_⟩
    change (Duelist.onFighter _ _).1.stream.seed = _
    rw [Duelist.stream_onFighter]
    exact seed_picked wanted pick d.stream
  | setSkill who choice ownCost =>
    obtain ⟨rfl, rfl⟩ := h
    refine ⟨_, rfl, hduelist _ fun d => ?_⟩
    exact d.stream.seed_choose ctx.catalog.ordinarySkillIds
  | _ => cases h

end PetDuel
