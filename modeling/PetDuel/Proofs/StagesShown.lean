import Mathlib.Data.Option.Basic
import PetDuel.Proofs.Answers
import PetDuel.Proofs.Markers

/-!
Stages stay shown. Where no template answers the coming or the leaving of buffs, an effect changes
the fighters that are out by the steps of its deed alone, and the steps that raise, remove and copy
keep the markers in line with the stages.
-/

namespace PetDuel

/-- A quiet buff does nothing when it comes or leaves. -/
theorem BuffTemplate.Quiet.effectsAt {x : Buff} (h : x.template.Quiet) {timing : Timing}
    (htiming : timing = .buffAdded ∨ timing = .buffRemoved) (id : DuelistId) :
    x.effectsAt timing id = [] := by
  refine List.map_eq_nil_iff.mpr (List.filter_eq_nil_iff.mpr fun e he hfires => ?_)
  obtain ⟨hadded, hremoved⟩ := h e he
  have hsame : e.timing = timing := beq_iff_eq.mp hfires
  rcases htiming with rfl | rfl
  · exact hadded hsame
  · exact hremoved hsame

theorem BuffChange.Of.answers {catalog : Catalog} {change : BuffChange}
    (h : change.Of catalog.Genuine) (id : DuelistId) : change.answers id = [] := by
  refine List.append_eq_nil_iff.mpr ⟨?_, ?_⟩
  · exact List.flatMap_eq_nil_iff.mpr fun x hx => (h.2 x hx).1.effectsAt (Or.inr rfl) id
  · exact List.flatMap_eq_nil_iff.mpr fun x hx => (h.1 x hx).1.effectsAt (Or.inl rfl) id

/-- Without answers a change leaves the duel as it is, at any depth. -/
theorem Context.answer_of_answers_nil (ctx : Context) {id : DuelistId} {change : BuffChange}
    (h : change.answers id = []) (b : Battle) : ctx.answer id change b = b := by
  unfold Context.answer
  cases ctx.rules.hookLimit.toNat - b.depth with
  | zero => rfl
  | succ levels =>
    unfold Context.answerWithin
    rw [h]
    exact ite_self b

def Scene.AllOut (P : Fighter → Prop) (s : Scene) : Prop :=
  (∀ f, s.own.active? = some f → P f) ∧ ∀ f, s.opposing.active? = some f → P f

namespace Scene

variable {P : Fighter → Prop} {s : Scene} {id : DuelistId} {d e : Duelist} {f : Fighter}

theorem AllOut.active? (h : s.AllOut P) (hf : s.active? id = some f) : P f := by
  obtain ⟨d, hd, hactive⟩ := Option.bind_eq_some_iff.mp hf
  rcases duelist?_eq_some_cases hd with ⟨_, ⟨rfl, _⟩ | ⟨_, rfl, _⟩⟩
  · exact h.1 f hactive
  · exact h.2 f hactive

theorem AllOut.update_iff (h : s.AllOut P) (hd : s.duelist? id = some d) :
    (s.update id fun _ => e).AllOut P ↔ ∀ f, e.active? = some f → P f := by
  rcases duelist?_eq_some_cases hd with ⟨_, ⟨_, hupdate⟩ | ⟨_, _, hupdate⟩⟩
  · rw [hupdate]
    exact ⟨fun hall => hall.1, fun he => ⟨he, h.2⟩⟩
  · rw [hupdate]
    exact ⟨fun hall => hall.2, fun he => ⟨h.1, he⟩⟩

end Scene

def Fighter.through (ops : List (Fighter → Fighter × BuffChange)) (f : Fighter) : Fighter :=
  ops.foldl (fun f op => (op f).1) f

theorem Fighter.through_append (ops ops' : List (Fighter → Fighter × BuffChange)) (f : Fighter) :
    f.through (ops ++ ops') = (f.through ops).through ops' := List.foldl_append

theorem Fighter.through_singleton (op : Fighter → Fighter × BuffChange) (f : Fighter) :
    f.through [op] = (op f).1 := rfl

/-- A change of fighters after which the stages of a fighter can still be shown. -/
def Fighter.Keeps (catalog : Catalog) (op : Fighter → Fighter × BuffChange) : Prop :=
  ∀ f : Fighter, f.Marked catalog → f.Kept catalog (op f)

section Playing

variable {ctx : Context} {b : Battle} {id : DuelistId} {d : Duelist} {f : Fighter}
  {ops : List (Fighter → Fighter × BuffChange)}

/-- Nothing is done to a fighter when none is out. -/
theorem Battle.play_of_active?_eq_none (h : b.scene.active? id = none)
    (ops : List (Fighter → Fighter × BuffChange)) :
    b.play ctx.answer (ops.map (Step.fighter id)) = b := by
  induction ops with
  | nil => rfl
  | cons op ops ih =>
    rw [List.map_cons, Battle.play_cons, Step.play_fighter ctx.answer_idle,
      Battle.changeActive_of_active?_eq_none h]
    exact ih

/-- A step that keeps markers genuine does what it does to the fighter, and nothing answers it. -/
theorem Step.play_fighter_of_kept (hd : b.scene.duelist? id = some d)
    (hactive : d.active? = some f) {op : Fighter → Fighter × BuffChange}
    (hop : f.Kept ctx.catalog (op f)) :
    (Step.fighter id op).play ctx.answer b = b.update id fun _ => d.setActive (op f).1 := by
  have hactive' : b.scene.active? id = some f := (Scene.active?_of_duelist? hd).trans hactive
  rw [Step.play_fighter ctx.answer_idle, Battle.changeActive, hactive']
  dsimp only
  rw [ctx.answer_of_answers_nil (hop.change.answers id)]
  exact congrArg (fun s => { b with scene := s })
    (Scene.update_of_duelist?_eq_some hd fun d => d.setActive (op f).1)

/-- Changes of one fighter that bring no answers are made one after the other. -/
theorem Battle.play_fighters_eq (hd : b.scene.duelist? id = some d) (hactive : d.active? = some f)
    (hf : f.Marked ctx.catalog) (hops : ∀ op ∈ ops, Fighter.Keeps ctx.catalog op) :
    b.play ctx.answer (ops.map (Step.fighter id)) =
      b.update id fun _ => d.setActive (f.through ops) := by
  induction ops generalizing b d f with
  | nil =>
    change b = b.update id fun _ => d.setActive f
    rw [Duelist.setActive_self hactive, Battle.update, Battle.onScene, Scene.update_self hd]
  | cons op ops ih =>
    obtain ⟨hop, hops⟩ := List.forall_mem_cons.mp hops
    have hkept := hop f hf
    -- The rest goes on from the fighter that the first change leaves, in the place of the old one.
    have hd' : (b.update id fun _ => d.setActive (op f).1).scene.duelist? id =
        some (d.setActive (op f).1) :=
      Scene.duelist?_update (f := fun _ => d.setActive (op f).1) hd rfl
    have hrest := ih hd' (Duelist.active?_setActive hactive _) hkept.marked hops
    rw [List.map_cons, Battle.play_cons, Step.play_fighter_of_kept hd hactive hkept, hrest,
      Duelist.setActive_setActive]
    have htwice := Scene.update_update (f := fun _ => d.setActive (op f).1) hd rfl
      fun _ => d.setActive ((op f).1.through ops)
    exact congrArg (fun s => { b with scene := s }) htwice

/-- What holds of the fighters that are out still holds after changes of one of them, if it holds of
what becomes of that one. -/
theorem Battle.allOut_play {P : Fighter → Prop} (hall : b.scene.AllOut P)
    (hmarked : ∀ f, P f → f.Marked ctx.catalog)
    (hops : ∀ op ∈ ops, Fighter.Keeps ctx.catalog op)
    (hP : ∀ f, b.scene.active? id = some f → P f → P (f.through ops)) :
    (b.play ctx.answer (ops.map (Step.fighter id))).scene.AllOut P := by
  cases hactive : b.scene.active? id with
  | none =>
    rw [Battle.play_of_active?_eq_none hactive]
    exact hall
  | some f =>
    obtain ⟨d, hd, hf⟩ := Option.bind_eq_some_iff.mp hactive
    have hfighter : P f := hall.active? hactive
    rw [Battle.play_fighters_eq hd hf (hmarked f hfighter) hops]
    refine (hall.update_iff hd).mpr fun g hg => ?_
    rw [Duelist.active?_setActive hf] at hg
    cases hg
    exact hP f hactive hfighter

end Playing

theorem Fighter.through_induction {P : Fighter → Prop}
    {ops : List (Fighter → Fighter × BuffChange)} (hops : ∀ op ∈ ops, ∀ f, P f → P (op f).1)
    {f : Fighter} (hf : P f) : P (f.through ops) := by
  induction ops generalizing f with
  | nil => exact hf
  | cons op ops ih =>
    obtain ⟨hop, hops⟩ := List.forall_mem_cons.mp hops
    exact ih hops (hop f hf)

section Changes

variable {catalog : Catalog} {ctx : Context} {f g : Fighter} {x : Buff} {xs ys : List Buff}
  {cs : List StageChannel} {ids : List Int32} {c : StageChannel} {delta : Stages}

def Buff.Plain (catalog : Catalog) (x : Buff) : Prop :=
  catalog.Genuine x.id x.template ∧ markerOf? x.id = none

def Fighter.KeepsInLine (catalog : Catalog) (op : Fighter → Fighter × BuffChange) : Prop :=
  ∀ f : Fighter, f.InLine catalog → (op f).1.InLine catalog

theorem Fighter.InLine.of_sameAt {result : Fighter × BuffChange} (hf : f.InLine catalog)
    (hkept : f.Kept catalog result) (hsame : ∀ c, SameAt c f result.1) : result.1.InLine catalog :=
  ⟨hkept.marked, fun c => (hsame c).shows (hf.shows c)⟩

theorem keeps_add (hx : x.Plain catalog) :
    Fighter.Keeps catalog (Fighter.onBoard fun board => board.add x) :=
  fun _ hf => hf.onBoard (hf.genuine.add hx.1)

theorem sameAt_add (hx : x.Plain catalog) (c : StageChannel) (f : Fighter) :
    Fighter.SameAt c f (f.onBoard fun board => board.add x).1 :=
  Fighter.sameAt_onBoard fun raised =>
    BuffBoard.valuesOf_add_of_ne (ne_markerId_of_markerOf?_eq_none hx.2 c raised)

theorem keeps_takeBack (catalog : Catalog) (xs ys : List Buff) :
    Fighter.Keeps catalog (Fighter.onBoard (Deed.takeBack xs ys)) := by
  intro f hf
  have hstable := BuffBoard.stable_kind catalog.Genuine
  have hfirst := BuffBoard.Bears.removeEach hstable hf.genuine xs
  have hsecond := (hfirst.changes.bears hstable hf.genuine).removeEach hstable ys
  exact hf.onBoard ((hfirst.append hsecond).kept hf.genuine)

/-- Taking back buffs that mark nothing leaves every channel alone. -/
theorem sameAt_takeBack (hxs : ∀ x ∈ xs, x.Plain catalog) (hys : ∀ y ∈ ys, y.Plain catalog)
    (c : StageChannel) (f : Fighter) :
    Fighter.SameAt c f (f.onBoard (Deed.takeBack xs ys)).1 := by
  have hplain (raised : Bool) {zs : List Buff} (hzs : ∀ z ∈ zs, z.Plain catalog) :
      ∀ z ∈ zs, z.id ≠ markerId c raised := fun z hz =>
    ne_markerId_of_markerOf?_eq_none (hzs z hz).2 c raised
  refine Fighter.sameAt_onBoard fun raised => ?_
  exact (BuffBoard.valuesOf_removeEach_of_ne (hplain raised hys)).trans
    (BuffBoard.valuesOf_removeEach_of_ne (hplain raised hxs))

theorem Fighter.CanShift.congr (h : f.CanShift delta) (hsheet : g.sheet = f.sheet)
    (hblocked : ∀ id, g.board.isBlocked id = f.board.isBlocked id) : g.CanShift delta := by
  have hallowed : allowed g.board delta = allowed f.board delta := by
    simp only [allowed, hblocked]
  intro c
  rw [hsheet, hallowed]
  exact h c

/-- After some channels are brought back to zero, these show it and the others are as they were. -/
theorem resetStages_spec (hcatalog : ctx.catalog.MarksStages) (hf : f.Marked ctx.catalog)
    (cs : List StageChannel) : f.Kept ctx.catalog (Deed.resetStages ctx cs f) ∧
      (∀ d ∉ cs, Fighter.SameAt d f (Deed.resetStages ctx cs f).1) ∧
      ∀ c ∈ cs, (Deed.resetStages ctx cs f).1.ShowsAt c := by
  induction cs generalizing f with
  | nil => exact ⟨hf.kept_none, fun d _ => .refl d f, List.forall_mem_nil _⟩
  | cons c cs ih =>
    obtain ⟨hfirst, hshown, hother⟩ := Fighter.setStage_zero_spec hcatalog hf c
    obtain ⟨hkept, hsame, hshows⟩ := ih hfirst.marked
    -- What the first reset has cleared lasts through the others, even if they come to it again.
    have hcons : Deed.resetStages ctx (c :: cs) f =
        ((Deed.resetStages ctx cs (f.setStage ctx.catalog c 0).1).1,
          (f.setStage ctx.catalog c 0).2 ++
            (Deed.resetStages ctx cs (f.setStage ctx.catalog c 0).1).2) := rfl
    rw [hcons]
    refine ⟨hfirst.append hkept, fun d hd => ?_, fun d hd => ?_⟩
    · rw [List.mem_cons, not_or] at hd
      exact (hother d hd.1).trans (hsame d hd.2)
    · by_cases hmem : d ∈ cs
      · exact hshows d hmem
      · obtain rfl : d = c := (List.mem_cons.mp hd).resolve_right hmem
        exact (hsame d hmem).shows hshown

/-- A channel is marked by a list when the list has one of its markers. -/
theorem mem_markedChannels {ids : List Int32} {c : StageChannel} :
    c ∈ Deed.markedChannels ids ↔ ∃ raised, markerId c raised ∈ ids := by
  constructor
  · intro h
    obtain ⟨id, hid, hmap⟩ := List.mem_filterMap.mp h
    obtain ⟨⟨c', raised⟩, hmarker, hc⟩ := Option.map_eq_some_iff.mp hmap
    cases hc
    exact ⟨raised, markerId_of_markerOf? hmarker ▸ hid⟩
  · rintro ⟨raised, hid⟩
    refine List.mem_filterMap.mpr ⟨_, hid, ?_⟩
    rw [markerOf?_markerId]
    rfl

/-- The removal of listed numbers treats the channels alone whose markers are listed, and writes
zero to the stages of these. -/
theorem removeListed_spec (hcatalog : ctx.catalog.MarksStages) (hf : f.Marked ctx.catalog)
    (ids : List Int32) : f.Kept ctx.catalog (Deed.removeListed ctx ids f) ∧
      (∀ d ∉ Deed.markedChannels ids, Fighter.SameAt d f (Deed.removeListed ctx ids f).1) ∧
      ∀ c ∈ Deed.markedChannels ids, (Deed.removeListed ctx ids f).1.ShowsAt c := by
  let removal : BuffBoard → BuffBoard × BuffChange := fun board =>
    board.removeWhere fun x => ids.contains x.id
  have hfirst : f.Kept ctx.catalog (f.onBoard removal) := hf.onBoard (hf.genuine.removeWhere _)
  obtain ⟨hkept, hsame, hshows⟩ :=
    resetStages_spec hcatalog hfirst.marked (Deed.markedChannels ids)
  refine ⟨hfirst.append hkept, fun d hd => ?_, hshows⟩
  have hspared : Fighter.SameAt d f (f.onBoard removal).1 := by
    refine Fighter.sameAt_onBoard fun raised =>
      BuffBoard.valuesOf_removeWhere_of_spared fun x _ hx => ?_
    refine Bool.eq_false_iff.mpr fun hlisted => hd (mem_markedChannels.mpr ⟨raised, ?_⟩)
    exact hx ▸ List.contains_iff_mem.mp hlisted
  exact hspared.trans (hsame d hd)

/-- Removing listed numbers keeps a fighter in line, as the stages of listed markers go along with
them. -/
theorem removeListed_inLine (hcatalog : ctx.catalog.MarksStages) (ids : List Int32) :
    Fighter.KeepsInLine ctx.catalog (Deed.removeListed ctx ids) := by
  intro f hf
  obtain ⟨hkept, hsame, hshows⟩ := removeListed_spec hcatalog hf.toMarked ids
  refine ⟨hkept.marked, fun c => ?_⟩
  by_cases hc : c ∈ Deed.markedChannels ids
  · exact hshows c hc
  · exact (hsame c hc).shows (hf.shows c)

theorem setStage_zero_inLine (hcatalog : ctx.catalog.MarksStages) (c : StageChannel) :
    Fighter.KeepsInLine ctx.catalog fun f => f.setStage ctx.catalog c 0 := by
  intro f hf
  obtain ⟨hkept, hshown, hother⟩ := Fighter.setStage_zero_spec hcatalog hf.toMarked c
  refine ⟨hkept.marked, fun d => ?_⟩
  by_cases hd : d = c
  · rw [hd]
    exact hshown
  · exact (hother d hd).shows (hf.shows d)

end Changes

section Deeds

variable {ctx : Context} {b : Battle} {e : Effect} {m : Moment} {deed : Deed}
  {source target id : DuelistId} {listed typed : List Buff} {stages wanted : Stages}

/-- Changes that keep the stages of a fighter shown keep those of all fighters that are out. -/
theorem Battle.inLine_play {ops : List (Fighter → Fighter × BuffChange)}
    (hall : b.scene.AllOut (Fighter.InLine ctx.catalog))
    (hops : ∀ op ∈ ops, Fighter.Keeps ctx.catalog op)
    (hinLine : ∀ op ∈ ops, Fighter.KeepsInLine ctx.catalog op) (id : DuelistId) :
    (b.play ctx.answer (ops.map (Step.fighter id))).scene.AllOut (Fighter.InLine ctx.catalog) :=
  Battle.allOut_play hall (fun _ hf => hf.toMarked) hops fun _ _ hf =>
    Fighter.through_induction hinLine hf

/-- The additions of stages that a deed makes stay within a word. -/
def Deed.StagesFit (s : Scene) : Deed → Prop
  | .raiseStages id wanted pick => ∀ d f, s.duelist? id = some d → d.active? = some f →
    f.CanShift (Deed.doubled f.board (Deed.picked wanted pick d.stream).1)
  | .copyBuffs _ target _ stages .. => ∀ f, s.active? target = some f → f.CanShift stages
  | _ => True

/-- A raise keeps all fighters in line, whichever of its channels are picked. -/
theorem inLine_raise (hcatalog : ctx.catalog.MarksStages)
    (hall : b.scene.AllOut (Fighter.InLine ctx.catalog)) (pick : Pick)
    (hfits : (Deed.raiseStages id wanted pick).StagesFit b.scene) :
    (b.play ctx.answer ((Deed.raiseStages id wanted pick).steps ctx)).scene.AllOut
      (Fighter.InLine ctx.catalog) := by
  change ((Step.duelist id (Duelist.moveStages ctx wanted pick)).play ctx.answer b).scene.AllOut _
  unfold Step.play
  cases hd : b.scene.duelist? id with
  | none =>
    rw [Step.act_duelist_of_none hd]
    exact hall
  | some d =>
    rw [Step.act_duelist_of_some hd]
    -- The pick moves the stream on, and the fighter moves the stages that were picked.
    let r := (Deed.picked wanted pick d.stream).2
    let shift : Fighter → Fighter × BuffChange := fun f =>
      f.shiftStages ctx.catalog (Deed.doubled f.board (Deed.picked wanted pick d.stream).1)
    change (ctx.answer id (Duelist.onFighter shift { d with stream := r }).2
      (b.update id fun _ => (Duelist.onFighter shift { d with stream := r }).1)).scene.AllOut _
    cases hactive : d.active? with
    | none =>
      have hnobody : Duelist.onFighter shift { d with stream := r } =
          ({ d with stream := r }, .none) := by
        have hactive' : ({ d with stream := r } : Duelist).active? = none := hactive
        simp only [Duelist.onFighter, hactive']
      rw [hnobody, ctx.answer_idle]
      refine (hall.update_iff hd).mpr fun f hf => ?_
      cases hactive.symm.trans hf
    | some f =>
      have hactive' : ({ d with stream := r } : Duelist).active? = some f := hactive
      have hf : f.InLine ctx.catalog :=
        hall.active? ((Scene.active?_of_duelist? hd).trans hactive)
      have hkept : f.Kept ctx.catalog (shift f) := hf.toMarked.shiftStages hcatalog _
      have hshift : Duelist.onFighter shift { d with stream := r } =
          (({ d with stream := r } : Duelist).setActive (shift f).1, (shift f).2) := by
        simp only [Duelist.onFighter, hactive']
      rw [hshift, ctx.answer_of_answers_nil (hkept.change.answers id)]
      refine (hall.update_iff hd).mpr fun g hg => ?_
      rw [Duelist.active?_setActive hactive'] at hg
      rw [← Option.some.inj hg]
      exact ⟨hkept.marked, hf.shows.shiftStages hcatalog hf.toMarked (hfits d f hd hactive)⟩

/-- The steps of a copy, each part of them about one of the two fighters. -/
theorem Deed.copySteps_eq (ctx : Context) (source target : DuelistId) (listed : List Buff)
    (stages : Stages) (drained : List StageChannel) (typed : List Buff) (transfer : Bool) :
    let add (x : Buff) : Fighter → Fighter × BuffChange := Fighter.onBoard fun board => board.add x
    let shift : Fighter → Fighter × BuffChange := fun f => f.shiftStages ctx.catalog stages
    let zero (c : StageChannel) : Fighter → Fighter × BuffChange := fun f =>
      f.setStage ctx.catalog c 0
    Deed.copySteps ctx source target listed stages drained typed transfer =
      (listed.map add ++ [shift]).map (Step.fighter target) ++
        (drained.map zero).map (Step.fighter source) ++
        (typed.map add).map (Step.fighter target) ++
        (if transfer then [Fighter.onBoard (Deed.takeBack listed typed)] else []).map
          (Step.fighter source) := by
  intro add shift zero
  simp only [Deed.copySteps, List.map_append, List.map_map, List.map_cons, List.map_nil]
  cases transfer <;> rfl

/-- Copying plain buffs and stages, and taking back what was copied, keeps the stages shown. -/
theorem inLine_copy (hcatalog : ctx.catalog.MarksStages)
    (hall : b.scene.AllOut (Fighter.InLine ctx.catalog))
    (hlisted : ∀ x ∈ listed, x.Plain ctx.catalog) (htyped : ∀ x ∈ typed, x.Plain ctx.catalog)
    (drained : List StageChannel) (transfer : Bool)
    (hfits : (Deed.copyBuffs source target listed stages drained typed transfer).StagesFit
      b.scene) :
    (b.play ctx.answer
      (Deed.copySteps ctx source target listed stages drained typed transfer)).scene.AllOut
      (Fighter.InLine ctx.catalog) := by
  let add (x : Buff) : Fighter → Fighter × BuffChange := Fighter.onBoard fun board => board.add x
  let zero (c : StageChannel) : Fighter → Fighter × BuffChange := fun f =>
    f.setStage ctx.catalog c 0
  let shift : Fighter → Fighter × BuffChange := fun f => f.shiftStages ctx.catalog stages
  have hadd {xs : List Buff} (hxs : ∀ x ∈ xs, x.Plain ctx.catalog) :
      ∀ op ∈ xs.map add, Fighter.Keeps ctx.catalog op :=
    List.forall_mem_map.mpr fun x hx => keeps_add (hxs x hx)
  have haddInLine {xs : List Buff} (hxs : ∀ x ∈ xs, x.Plain ctx.catalog) :
      ∀ op ∈ xs.map add, Fighter.KeepsInLine ctx.catalog op :=
    List.forall_mem_map.mpr fun x hx f hf =>
      hf.of_sameAt (keeps_add (hxs x hx) f hf.toMarked) fun c => sameAt_add (hxs x hx) c f
  have hcopied : (b.play ctx.answer ((listed.map add ++ [shift]).map
      (Step.fighter target))).scene.AllOut (Fighter.InLine ctx.catalog) := by
    refine Battle.allOut_play hall (fun _ hf => hf.toMarked) ?_ fun f hactive hf => ?_
    · refine List.forall_mem_append.mpr ⟨hadd hlisted, List.forall_mem_singleton.mpr ?_⟩
      exact fun f hf => hf.shiftStages hcatalog stages
    · -- The buffs that come first change neither the stages nor the blocks.
      have hbefore : (f.through (listed.map add)).InLine ctx.catalog ∧
          (f.through (listed.map add)).sheet = f.sheet ∧
          ∀ id, (f.through (listed.map add)).board.isBlocked id = f.board.isBlocked id := by
        refine Fighter.through_induction (P := fun g => g.InLine ctx.catalog ∧ g.sheet = f.sheet ∧
          ∀ id, g.board.isBlocked id = f.board.isBlocked id) ?_ ⟨hf, rfl, fun _ => rfl⟩
        refine List.forall_mem_map.mpr fun x hx g ⟨hg, hsheet, hblocked⟩ => ?_
        have hkept := keeps_add (hlisted x hx) g hg.toMarked
        exact ⟨hg.of_sameAt hkept fun c => sameAt_add (hlisted x hx) c g, hsheet,
          fun id => (hkept.blocked id).trans (hblocked id)⟩
      obtain ⟨hg, hsheet, hblocked⟩ := hbefore
      have hthrough : f.through (listed.map add ++ [shift]) =
          (shift (f.through (listed.map add))).1 := by
        rw [Fighter.through_append, Fighter.through_singleton]
      have hcan := (hfits f hactive).congr hsheet hblocked
      rw [hthrough]
      exact ⟨(hg.toMarked.shiftStages hcatalog stages).marked,
        hg.shows.shiftStages hcatalog hg.toMarked hcan⟩
  -- From here on every change keeps the stages shown, whichever fighter it is made of: the target
  -- may be the source.
  have hdrained := Battle.inLine_play hcopied
    (List.forall_mem_map.mpr fun c _ f hf => (Fighter.setStage_zero_spec hcatalog hf c).1)
    (List.forall_mem_map.mpr fun c (_ : c ∈ drained) => setStage_zero_inLine hcatalog c) source
  have htypes := Battle.inLine_play hdrained (hadd htyped) (haddInLine htyped) target
  rw [Deed.copySteps_eq]
  simp only [Battle.play_append]
  refine Battle.inLine_play htypes ?_ ?_ source
  · split
    · exact List.forall_mem_singleton.mpr (keeps_takeBack ctx.catalog listed typed)
    · exact List.forall_mem_nil _
  · split
    · refine List.forall_mem_singleton.mpr fun f hf => ?_
      exact hf.of_sameAt (keeps_takeBack ctx.catalog listed typed f hf.toMarked) fun c =>
        sameAt_takeBack hlisted htyped c f
    · exact List.forall_mem_nil _

/-- A removal by number keeps all fighters in line. -/
theorem inLine_removeListed (hcatalog : ctx.catalog.MarksStages)
    (hall : b.scene.AllOut (Fighter.InLine ctx.catalog)) (id : DuelistId) (ids : List Int32) :
    (b.play ctx.answer (Deed.removeSteps ctx id [] ids)).scene.AllOut
      (Fighter.InLine ctx.catalog) := by
  have hsteps : Deed.removeSteps ctx id [] ids =
      (if ids.isEmpty then [] else [Deed.removeListed ctx ids]).map (Step.fighter id) := by
    rw [Deed.removeSteps, List.flatMap_nil, List.nil_append]
    split <;> rfl
  rw [hsteps]
  refine Battle.inLine_play hall ?_ ?_ id
  · split
    · exact List.forall_mem_nil _
    · exact List.forall_mem_singleton.mpr fun f hf => (removeListed_spec hcatalog hf ids).1
  · split
    · exact List.forall_mem_nil _
    · exact List.forall_mem_singleton.mpr (removeListed_inLine hcatalog ids)

theorem of_decideRaise (h : e.decideRaise m = some deed) :
    ∃ id wanted pick, deed = .raiseStages id wanted pick := by
  simp only [Effect.decideRaise, Option.bind_eq_bind, Option.bind_eq_some_iff] at h
  obtain ⟨_, _, wanted, _, pick, _, id, _, _, _, h⟩ := h
  cases h
  exact ⟨id, wanted, pick, rfl⟩

theorem of_decideRemove (h : e.decideRemove m = some deed) :
    ∃ id categories ids, e.listedCategories? = some categories ∧
      (m.scene.active? id).isSome ∧ deed = .removeBuffs id categories ids := by
  simp only [Effect.decideRemove, Option.bind_eq_bind, Option.bind_eq_some_iff] at h
  obtain ⟨ids, _, _, _, categories, hcategories, id, _, f, hf, h⟩ := h
  cases h
  exact ⟨id, categories, ids, hcategories, Option.isSome_of_eq_some hf, rfl⟩

/-- What is copied by number and by category stands on the board of the source. -/
theorem of_decideCopy (h : e.decideCopy m = some deed) :
    ∃ source target f category listed stages drained transfer,
      m.scene.active? source = some f ∧ e.namedCategory? = some category ∧
        (∀ x ∈ listed, x ∈ f.board.active ∧ markerOf? x.id = none) ∧
        deed = .copyBuffs source target listed stages drained
          (f.board.active.filter fun x => category == some x.template.category) transfer := by
  simp only [Effect.decideCopy, Option.bind_eq_bind, Option.bind_eq_some_iff] at h
  obtain ⟨ids, _, _, _, transfer, _, reverse, _, category, hcategory, source, _, target, _, f, hf,
    _, _, h⟩ := h
  cases h
  refine ⟨source, target, f, category, _, _, _, transfer, hf, hcategory, fun x hx => ?_, rfl⟩
  obtain ⟨hlisted, hplain⟩ := List.mem_filter.mp hx
  exact ⟨(List.mem_filter.mp hlisted).1, Option.isNone_iff_eq_none.mp hplain⟩

end Deeds

def BuffTemplate.plainMarker (id : Int32) : BuffTemplate :=
  { (default : BuffTemplate) with
    id, turn := permanentTurn, minValue := Int32.minValue, maxValue := Int32.maxValue }

def Catalog.plainMarkers : Catalog :=
  ⟨[1, 2, 3, 4, 5, 6, 7, 8, 9, 10].map BuffTemplate.plainMarker, [], []⟩

theorem Catalog.plainMarkers_marksStages : plainMarkers.MarksStages := by
  refine ⟨fun c raised => ⟨.plainMarker (markerId c raised), ?_, rfl⟩, ?_⟩
  · cases c <;> cases raised <;> decide
  · exact List.forall_mem_map.mpr fun n _ e he => nomatch he

def Fighter.raisedByOne : Fighter :=
  { (default : Fighter) with
    sheet := { (default : StatSheet) with stages := ⟨#v[1, 0, 0, 0, 0]⟩, stageLimit := 6 }
    board := ⟨[.new (.plainMarker 1) permanentTurn 1], [], []⟩ }

theorem Fighter.raisedByOne_inLine : raisedByOne.InLine .plainMarkers := by
  refine ⟨⟨by decide, fun c raised t ht n _ _ => ?_, ?_⟩, fun c raised => ?_⟩
  · obtain ⟨_, _, rfl⟩ := List.mem_map.mp (Catalog.buff?_cases ht).1
    exact ⟨Int32.minValue_le n, Int32.le_maxValue n⟩
  · refine List.forall_mem_singleton.mpr ⟨fun e he => (nomatch he), fun _ _ _ => ?_⟩
    decide
  · cases c <;> cases raised <;> decide

theorem inLine_of_raisedByOne :
    (Battle.new (.new ⟨1⟩ [.raisedByOne] 0) (.new ⟨2⟩ [] 0)).scene.AllOut
      (Fighter.InLine .plainMarkers) := by
  refine ⟨fun f hf => ?_, fun f hf => nomatch hf⟩
  cases hf
  exact Fighter.raisedByOne_inLine

/-- An effect that moves stages, or that removes or copies buffs by number alone, keeps the stages
of the fighters that are out shown by their markers: in a duel with quiet templates, with markers
that admit every stage, and as long as the stages that it adds up stay within a word. -/
theorem stages_stay_shown {ctx : Context} {b : Battle} {e : Effect}
    (hcatalog : ctx.catalog.MarksStages)
    (hall : b.scene.AllOut (Fighter.InLine ctx.catalog))
    (he : e.ability = .raiseStages ∨ (e.ability = .removeBuffs ∨ e.ability = .copyBuffs) ∧
      e.option "type" Options.emptyText = Options.emptyText)
    (hfits : ∀ deed, e.decide? ctx b.now = some deed → deed.StagesFit b.scene) :
    (ctx.dispatch e b).2.scene.AllOut (Fighter.InLine ctx.catalog) := by
  -- An option that was left out gives no categories, so only what is listed is touched.
  have hnone (h : e.option "type" Options.emptyText = Options.emptyText) :
      Options.isGiven (e.option "type" Options.emptyText) = false := by
    rw [h]
    rfl
  rw [Context.dispatch, ctx.dispatchWith_snd ctx.answer_idle]
  cases hdecide : e.decide? ctx b.now with
  | none => exact hall
  | some deed =>
    have hfit := hfits deed hdecide
    unfold Effect.decide? at hdecide
    rcases he with hability | ⟨hability | hability, htype⟩
    · rw [hability] at hdecide
      obtain ⟨id, wanted, pick, rfl⟩ := of_decideRaise hdecide
      exact inLine_raise hcatalog hall pick hfit
    · rw [hability] at hdecide
      obtain ⟨id, categories, ids, hcategories, _, rfl⟩ := of_decideRemove hdecide
      have hempty : categories = [] := by
        rw [Effect.listedCategories?, hnone htype] at hcategories
        exact (Option.some.inj hcategories).symm
      rw [hempty]
      exact inLine_removeListed hcatalog hall id ids
    · rw [hability] at hdecide
      obtain ⟨source, target, f, category, listed, stages, drained, transfer, hf, hcategory,
        hlisted, rfl⟩ := of_decideCopy hdecide
      have hempty : category = none := by
        rw [Effect.namedCategory?, hnone htype] at hcategory
        exact (Option.some.inj hcategory).symm
      have hsource := hall.active? hf
      refine inLine_copy hcatalog hall (fun x hx => ?_) (fun x hx => ?_) drained transfer hfit
      · exact ⟨hsource.genuine x (hlisted x hx).1, (hlisted x hx).2⟩
      · rw [hempty] at hx
        exact absurd (List.mem_filter.mp hx).2 Bool.false_ne_true

/-- An attack that is raised by one and falls by three is shown by the other marker. -/
theorem stages_shown_after_fall :
    let ctx : Context := ⟨.plainMarkers, {}⟩
    let b := Battle.new (.new ⟨1⟩ [.raisedByOne] 0) (.new ⟨2⟩ [] 0)
    let e := (Effect.new .attack .raiseStages ⟨[("atk", "-3")]⟩).actingFor ⟨1⟩
    ctx.catalog.MarksStages ∧ b.scene.AllOut (Fighter.InLine ctx.catalog) ∧
      e.ability = .raiseStages ∧
      (∀ deed, e.decide? ctx b.now = some deed → deed.StagesFit b.scene) ∧
      (ctx.dispatch e b).2.scene.AllOut (Fighter.InLine ctx.catalog) := by
  intro ctx b e
  have hcatalog := Catalog.plainMarkers_marksStages
  have hdecide : e.decide? ctx b.now = some (.raiseStages ⟨1⟩ ⟨#v[-3, 0, 0, 0, 0]⟩ .every) := by
    decide +kernel
  have hfits : ∀ deed, e.decide? ctx b.now = some deed → deed.StagesFit b.scene := by
    intro deed hdeed
    cases hdecide.symm.trans hdeed
    intro d f hd hf
    cases hd
    cases hf
    intro c
    cases c <;> decide +kernel
  exact ⟨hcatalog, inLine_of_raisedByOne, rfl, hfits,
    stages_stay_shown hcatalog inLine_of_raisedByOne (Or.inl rfl) hfits⟩

end PetDuel
