import PetDuel.Proofs.Copies
import PetDuel.Proofs.Footprints
import PetDuel.Proofs.Removals

/-!
Copies by number. A listed buff goes over as it is, and a listed marker goes over as the stage that
it shows: the target adds the buffs to its own ones and moves its stages, and the source gives up
what was asked of it. Both fighters are given here as a whole, where nothing answers the coming and
the leaving of buffs.
-/

namespace PetDuel

def marksOneOf (cs : List StageChannel) (id : Int32) : Bool :=
  cs.any fun c => id == markerId c true || id == markerId c false

namespace Fighter

/-- Whether a copy by number takes the stage of a channel along: one of its markers is on the board
and listed. -/
def copiesStage (ids : List Int32) (f : Fighter) (c : StageChannel) : Bool :=
  f.board.active.any fun x => ids.contains x.id && x.isMarkerOf c

def copiedStages (ids : List Int32) (reverse : Bool) (f : Fighter) : Stages :=
  .ofFn fun c =>
    if f.copiesStage ids c then (if reverse then -(f.sheet.stage c) else f.sheet.stage c) else 0

/-- A stage after a step: it moves within the limit, unless the board blocks the direction. -/
def stageAfter (delta : Stages) (g : Fighter) (c : StageChannel) : Int32 :=
  if delta.get c = 0 ∨ g.board.isBlocked (markerId c (decide (0 < delta.get c))) = true then
    g.sheet.stage c
  else g.sheet.limitStage (g.sheet.stage c + delta.get c)

def movedChannels (delta : Stages) (g : Fighter) : List StageChannel :=
  StageChannel.all.filter fun c => g.stageAfter delta c ≠ g.sheet.stage c

/-- The target of a copy: it adds buffs in order and moves its stages, and the markers of the
channels whose stage is another one then are brought in line. -/
def receive (catalog : Catalog) (xs : List Buff) (delta : Stages) (g : Fighter) : Fighter :=
  (({ g with
      sheet := { g.sheet with stages := .ofFn (g.stageAfter delta) }
      board := (g.board.addEach xs).1 } : Fighter).syncEach catalog (g.movedChannels delta)).1

/-- The source of a copy by number: what is transferred leaves, and so do the stages that are
transferred or turned, with both their markers. -/
def handOver (ids : List Int32) (transfer reverse : Bool) (f : Fighter) : Fighter :=
  f.without
    (fun x => (transfer && (ids.contains x.id && !marksStage x.id)) ||
      ((transfer || reverse) &&
        StageChannel.all.any fun c => f.copiesStage ids c && x.isMarkerOf c))
    fun c => (transfer || reverse) && f.copiesStage ids c

end Fighter

variable {catalog : Catalog} {f g : Fighter} {c : StageChannel} {ids : List Int32} {delta : Stages}
  {xs : List Buff}

/-- A buff marks a channel exactly when its number is read as a marker of this channel. -/
theorem Buff.isMarkerOf_iff {x : Buff} :
    x.isMarkerOf c = true ↔ (markerOf? x.id).map Prod.fst = some c := by
  unfold isMarkerOf
  rw [Bool.or_eq_true, beq_iff_eq, beq_iff_eq]
  constructor
  · rintro (h | h)
    · rw [h, markerOf?_markerId]
      rfl
    · rw [h, markerOf?_markerId]
      rfl
  · intro h
    obtain ⟨⟨c', raised⟩, hmarker, rfl⟩ := Option.map_eq_some_iff.mp h
    have hid := markerId_of_markerOf? hmarker
    cases raised with
    | true => exact Or.inl hid
    | false => exact Or.inr hid

theorem Buff.isMarkerOf_of_plain {x : Buff} (h : marksStage x.id = false) :
    x.isMarkerOf c = false := by
  rw [Bool.eq_false_iff]
  intro hmarker
  obtain ⟨_, hmarks, _⟩ := Option.map_eq_some_iff.mp (isMarkerOf_iff.mp hmarker)
  rw [marksStage, hmarks] at h
  cases h

/-- The channels with a listed marker on the board are those that a copy by number takes along. -/
theorem Fighter.contains_listedChannels (ids : List Int32) (f : Fighter) (c : StageChannel) :
    (f.listedChannels ids).contains c = f.copiesStage ids c := by
  unfold listedChannels copiesStage
  rw [Bool.eq_iff_iff, List.contains_iff_mem, List.mem_filterMap, List.any_eq_true]
  constructor
  · rintro ⟨x, hx, hc⟩
    obtain ⟨hmem, hlisted⟩ := List.mem_filter.mp hx
    exact ⟨x, hmem, Bool.and_eq_true_iff.mpr ⟨hlisted, Buff.isMarkerOf_iff.mpr hc⟩⟩
  · rintro ⟨x, hmem, hboth⟩
    obtain ⟨hlisted, hc⟩ := Bool.and_eq_true_iff.mp hboth
    exact ⟨x, List.mem_filter.mpr ⟨hmem, hlisted⟩, Buff.isMarkerOf_iff.mp hc⟩

/-- A channel that is written, once or several times, holds its value, and the others hold what they
held. -/
theorem Stages.get_foldl_set (v : StageChannel → Int32) (cs : List StageChannel) (t : Stages)
    (d : StageChannel) :
    (cs.foldl (fun t c => t.set c (v c)) t).get d = if cs.contains d then v d else t.get d := by
  induction cs generalizing t with
  | nil => rfl
  | cons c cs ih =>
    rw [List.foldl_cons, ih, Stages.get_set, List.contains_cons]
    by_cases hd : cs.contains d = true
    · rw [if_pos hd, hd, Bool.or_true, if_pos rfl]
    · rw [if_neg hd, Bool.eq_false_iff.mpr hd, Bool.or_false]
      by_cases hcd : c = d
      · rw [if_pos hcd, if_pos (beq_iff_eq.mpr hcd.symm), hcd]
      · rw [if_neg hcd, if_neg (mt beq_iff_eq.mp (Ne.symm hcd))]

theorem Effect.stagesOf_listedChannels (ids : List Int32) (reverse : Bool) (f : Fighter) :
    stagesOf f.sheet reverse (f.listedChannels ids) = f.copiedStages ids reverse := by
  apply Stages.ext_get
  intro c
  have hzero : Stages.zero.get c = 0 := by cases c <;> rfl
  unfold stagesOf Fighter.copiedStages
  rw [Stages.get_foldl_set, Stages.get_ofFn, f.contains_listedChannels, hzero]

theorem StatSheet.limitStage_of_within {s : StatSheet} (h : s.Within c) :
    s.limitStage (s.stage c) = s.stage c := by
  have hlimit : s.stageLimit.toInt < 2 ^ 31 := s.stageLimit.toInt_lt
  obtain ⟨hlow, hhigh⟩ := h
  have hneg := toInt_neg_of_lt (n := s.stageLimit) (by omega)
  refine bounded_of_le (Int32.le_iff_toInt_le.mpr ?_) (Int32.le_iff_toInt_le.mpr hhigh)
  rw [hneg]
  exact hlow

theorem BuffBoard.isBlocked_addEach (xs : List Buff) (board : BuffBoard) (id : Int32) :
    (board.addEach xs).1.isBlocked id = board.isBlocked id := by
  have hspares : board.Spares (fun _ => true) (board.addEach xs).1 :=
    spares_each (fun _ _ => spares_add rfl) board
  exact hspares.isBlocked id

namespace Fighter

/-- The sheet of a fighter whose stages are moved: every stage by its own step. -/
theorem shiftStages_snd (delta : Stages) (g : Fighter) :
    (g.sheet.shiftStages (allowed g.board delta)).2 =
      { g.sheet with stages := .ofFn (g.stageAfter delta) } := by
  have hstages : (g.sheet.shiftStages (allowed g.board delta)).2.stages =
      .ofFn (g.stageAfter delta) := by
    apply Stages.ext_get
    intro c
    apply (g.sheet.stage_shiftStages (allowed g.board delta) c).trans
    rw [Stages.get_ofFn, allowed, Stages.get_ofFn]
    unfold stageAfter
    -- A step that the board does not let through counts as no step.
    by_cases hzero : delta.get c = 0
    · simp [hzero]
    · cases hblocked : g.board.isBlocked (markerId c (decide (0 < delta.get c))) with
      | true => simp
      | false => simp [hzero]
  have hspares : g.Spares (fun _ => true)
      { g with sheet := (g.sheet.shiftStages (allowed g.board delta)).2 } :=
    spares_shiftEach (allowed g.board delta) StageChannel.all g
  exact (congrArg sheet hspares.rest).trans
    (congrArg (fun stages => { g.sheet with stages }) hstages)

/-- Adding buffs blocks nothing and frees nothing, and so the stages move after it as before. -/
theorem shiftStages_addEach (catalog : Catalog) (xs : List Buff) (delta : Stages) (g : Fighter) :
    (({ g with board := (g.board.addEach xs).1 } : Fighter).shiftStages catalog delta).1 =
      g.receive catalog xs delta := by
  let added : Fighter := { g with board := (g.board.addEach xs).1 }
  have hafter : added.stageAfter delta = g.stageAfter delta := by
    funext c
    unfold stageAfter
    rw [BuffBoard.isBlocked_addEach]
  have hmoved : (added.sheet.shiftStages (allowed added.board delta)).1 =
      g.movedChannels delta := by
    apply (added.sheet.shiftStages_fst _).trans
    apply List.filter_congr
    intro c _
    rw [shiftStages_snd, hafter]
    exact congrArg (fun n => decide (n ≠ g.sheet.stage c)) (Stages.get_ofFn _ c)
  rw [shiftStages_eq, shiftStages_snd, hmoved, hafter]
  rfl

theorem stage_receive (catalog : Catalog) (xs : List Buff) (delta : Stages) (g : Fighter)
    (c : StageChannel) : (g.receive catalog xs delta).sheet.stage c = g.stageAfter delta c := by
  unfold receive
  rw [syncEach_sheet]
  exact Stages.get_ofFn _ c

/-- Without a step, a stage that is within its limit would not be moved by a step of zero either. -/
theorem stageAfter_eq (h : delta.get c ≠ 0 ∨ g.sheet.Within c) : g.stageAfter delta c =
    if g.board.isBlocked (markerId c (decide (0 < delta.get c))) = true then g.sheet.stage c
    else g.sheet.limitStage (g.sheet.stage c + delta.get c) := by
  unfold stageAfter
  by_cases hzero : delta.get c = 0
  · have hwithin : g.sheet.Within c := h.resolve_left fun hstep => hstep hzero
    rw [if_pos (Or.inl hzero), hzero, Int32.add_zero, StatSheet.limitStage_of_within hwithin,
      ite_self]
  · simp only [hzero, false_or]

/-- Beside the markers of the channels that move, the target has what it had with the buffs
added. -/
theorem spares_receive (catalog : Catalog) (xs : List Buff) (delta : Stages) (g : Fighter) :
    (g.board.addEach xs).1.Spares (marksOneOf (g.movedChannels delta))
      (g.receive catalog xs delta).board := by
  have hids : ∀ c ∈ g.movedChannels delta, ∀ raised,
      marksOneOf (g.movedChannels delta) (markerId c raised) = true := by
    intro c hc raised
    apply List.any_eq_true.mpr
    refine ⟨c, hc, ?_⟩
    cases raised with
    | true => rw [beq_self_eq_true, Bool.true_or]
    | false => rw [beq_self_eq_true, Bool.or_true]
  let moved : Fighter :=
    { g with
      sheet := { g.sheet with stages := .ofFn (g.stageAfter delta) }
      board := (g.board.addEach xs).1 }
  exact (spares_syncEach hids moved).board

/-- Taking back what a filter selects, when something else is gone already. -/
theorem onBoard_takeBack {gone p : Buff → Bool} (hapart : ∀ x, p x = true → gone x = false)
    (cleared : StageChannel → Bool) (f : Fighter) :
    ((f.without gone cleared).onBoard (Deed.takeBack (f.board.active.filter p) [])).1 =
      (f.without gone cleared).without p fun _ => false := by
  have hleft : f.board.active.filter p = (f.without gone cleared).board.active.filter p := by
    change _ = (f.board.active.filter fun x => !gone x).filter p
    rw [List.filter_filter]
    apply List.filter_congr
    intro x _
    cases hp : p x with
    | false => rfl
    | true =>
      rw [hapart x hp]
      rfl
  rw [hleft, ← onBoard_removeWhere]
  exact congrArg (fun board => { f.without gone cleared with board })
    (BuffBoard.removeEach_filter p (f.without gone cleared).board)

/-- The source of a copy loses its stages first, and then what is taken back. -/
theorem through_handOver (hlimit : 0 ≤ f.sheet.stageLimit) (catalog : Catalog) (ids : List Int32)
    (transfer reverse : Bool) :
    let drained := if transfer || reverse then f.listedChannels ids else []
    let plain := f.selected fun x => ids.contains x.id
    (f.through (drained.map fun c f => f.setStage catalog c 0)).through
        (if transfer then [onBoard (Deed.takeBack plain [])] else []) =
      f.handOver ids transfer reverse := by
  intro drained plain
  let leaves (x : Buff) : Bool := ids.contains x.id && !marksStage x.id
  have hplain : plain = f.board.active.filter leaves := List.filter_filter
  let taken (x : Buff) : Bool := (transfer || reverse) &&
    StageChannel.all.any fun c => f.copiesStage ids c && x.isMarkerOf c
  have hcleared (c : StageChannel) :
      drained.contains c = ((transfer || reverse) && f.copiesStage ids c) := by
    rw [← f.contains_listedChannels]
    change (if transfer || reverse then f.listedChannels ids else []).contains c = _
    cases transfer || reverse <;> rfl
  have htaken (x : Buff) : drained.any x.isMarkerOf = taken x := by
    rw [StageChannel.any_eq_all_any]
    simp only [hcleared, taken]
    cases transfer || reverse
    · simp
    · rfl
  have hdrained : f.through (drained.map fun c f => f.setStage catalog c 0) =
      f.without taken fun c => (transfer || reverse) && f.copiesStage ids c := by
    rw [through_setStage_zero hlimit]
    exact without_congr (fun x _ => htaken x) hcleared
  -- The markers are gone by then, but none of them is among what is taken back.
  have hapart (x : Buff) (h : leaves x = true) : taken x = false := by
    have hno : marksStage x.id = false := by
      rw [← Bool.not_eq_true']
      exact (Bool.and_eq_true_iff.mp h).2
    have hnone : (StageChannel.all.any fun c => f.copiesStage ids c && x.isMarkerOf c) = false := by
      simp [Buff.isMarkerOf_of_plain hno]
    exact (congrArg (and (transfer || reverse)) hnone).trans (Bool.and_false _)
  let cleared (c : StageChannel) : Bool := (transfer || reverse) && f.copiesStage ids c
  rw [hplain, hdrained]
  have hlast : (f.without taken cleared).through
        (if transfer then [onBoard (Deed.takeBack (f.board.active.filter leaves) [])] else []) =
      (f.without taken cleared).without (fun x => transfer && leaves x) fun _ => false := by
    cases htransfer : transfer with
    | false => exact (without_nothing _).symm
    | true => exact onBoard_takeBack hapart cleared f
  rw [hlast, without_without]
  exact without_congr (fun x _ => Bool.or_comm _ _) fun c => Bool.or_false _

end Fighter

/-- A copy by number alone in a quiet duel, from one duelist to another. The target adds the listed
buffs of the source that are no markers, in their order, and moves the stages whose markers are
listed and on the source: by what the source has there, or its opposite when it is turned, within
the limit and unless the direction is blocked. The markers of the channels that moved are brought in
line then. The source loses the buffs when they are transferred, and the stages with both their
markers when they are transferred or turned. All else is as before.

A step of zero leaves a stage alone, even one beyond its limit, which a step of another size would
move to within. No run leads to such a stage, since every run keeps every stage within its limit
(`fighters_stay_in_bounds`). -/
theorem copy_by_number {ctx : Context} {b : Battle} {e : Effect} {ids : List Int32}
    {transfer reverse : Bool} {source target : DuelistId} {f g : Fighter}
    (hcatalog : ∀ t ∈ ctx.catalog.buffs, t.Quiet)
    (hboards : ∀ f ∈ b.scene.fighters, ∀ x ∈ f.board.active, x.template.Quiet)
    (hability : e.ability = .copyBuffs) (hids : e.listedIds? = some ids)
    (hcategory : e.namedCategory? = some none)
    (htransfer : flag? (e.option "transfer" "false") = some transfer)
    (hreverse : flag? (e.option "reverse" "false") = some reverse)
    (hsource : b.scene.named? e "source" "op" = some source)
    (htarget : b.scene.named? e "target" "me" = some target) (hne : source ≠ target)
    (hf : b.scene.active? source = some f) (hg : b.scene.active? target = some g)
    (hlimit : 0 ≤ f.sheet.stageLimit) (hhandled : (ctx.dispatch e b).1 = true) :
    let copies := f.selected fun x => ids.contains x.id
    let delta := f.copiedStages ids reverse
    let g' := g.receive ctx.catalog copies delta
    ctx.dispatch e b = (true, b.onScene fun s =>
      (s.setActive target g').setActive source (f.handOver ids transfer reverse)) ∧
    (∀ c, f.copiesStage ids c = true →
      let step := if reverse then -(f.sheet.stage c) else f.sheet.stage c
      step ≠ 0 ∨ g.sheet.Within c → g'.sheet.stage c =
        if g.board.isBlocked (markerId c (decide (0 < step))) = true then g.sheet.stage c
        else g.sheet.limitStage (g.sheet.stage c + step)) ∧
    (∀ c, f.copiesStage ids c = false → g'.sheet.stage c = g.sheet.stage c) ∧
    (g.board.addEach copies).1.Spares (marksOneOf (g.movedChannels delta)) g'.board := by
  intro copies delta g'
  obtain ⟨_, _, htransfer', hreverse', hdecide⟩ :=
    Effect.decide?_copyBuffs hability hids hcategory hsource htarget hf hhandled
  cases htransfer.symm.trans htransfer'
  cases hreverse.symm.trans hreverse'
  -- No category is named, so nothing is copied by its category.
  have htyped : (f.board.active.filter fun x => none == some x.template.category) = [] :=
    List.filter_eq_nil_iff.mpr fun x _ => Bool.false_ne_true
  rw [← f.selected_eq, htyped, Effect.stagesOf_listedChannels] at hdecide
  have hdelta (c : StageChannel) : delta.get c = if f.copiesStage ids c then
      (if reverse then -(f.sheet.stage c) else f.sheet.stage c) else 0 := Stages.get_ofFn _ c
  refine ⟨?_, ?_, ?_, g.spares_receive ctx.catalog copies delta⟩
  · let add (x : Buff) : Fighter → Fighter × BuffChange := Fighter.onBoard fun board => board.add x
    let drained := if transfer || reverse then f.listedChannels ids else []
    have hreceived : ((g.through (copies.map add)).shiftStages ctx.catalog delta).1 = g' := by
      rw [Fighter.through_add, Fighter.shiftStages_addEach]
    have hleft := Fighter.through_handOver hlimit ctx.catalog ids transfer reverse
    have hwalk : b.scene.walk (Deed.copySteps ctx source target copies delta drained [] transfer) =
        (b.scene.setActive target g').setActive source (f.handOver ids transfer reverse) :=
      (Deed.walk_copySteps ctx hne hf hg copies delta drained [] transfer).trans
        (congrArg₂ (fun h k => (b.scene.setActive target h).setActive source k) hreceived hleft)
    rw [Context.dispatch_eq_walk hcatalog hboards hdecide]
    exact congrArg (fun scene => (true, { b with scene })) hwalk
  · intro c hc step hmoves
    have hstep : delta.get c = step := by rw [hdelta, if_pos hc]
    rw [← hstep] at hmoves ⊢
    rw [g.stage_receive, Fighter.stageAfter_eq hmoves]
  · intro c hc
    have hstep : delta.get c = 0 := by rw [hdelta, hc]; rfl
    rw [g.stage_receive, Fighter.stageAfter, if_pos (Or.inl hstep)]

/-- A transfer of two equal buffs and two stages. The one stage meets its opposite, so that the
marker of the target leaves, and the other one is lost because the target blocks its marker. -/
theorem copy_by_number_of_equal_buffs :
    let ctx : Context := ⟨.plainMarkers, {}⟩
    let plain (id : Int32) : Buff := .new { (default : BuffTemplate) with id } 3 0
    let marker (id value : Int32) : Buff := .new (.plainMarker id) permanentTurn value
    let sheet (stages : Stages) : StatSheet :=
      { (default : StatSheet) with stages, stageLimit := 6 }
    let f := { (default : Fighter) with
      sheet := sheet ⟨#v[1, 2, 0, 0, 0]⟩
      board := ⟨[plain 20, marker 1 1, plain 21, marker 3 2, plain 20], [], []⟩ }
    let g := { (default : Fighter) with
      sheet := sheet ⟨#v[-1, 0, 0, 0, 0]⟩, board := ⟨[plain 22, marker 2 1], [3], []⟩ }
    let b := Battle.new (.new ⟨1⟩ [g] 0) (.new ⟨2⟩ [f] 0)
    let e := (Effect.new .attack .copyBuffs
      ⟨[("id", "1/20/3"), ("transfer", "true")]⟩).actingFor ⟨1⟩
    let after := (ctx.dispatch e b).2.scene
    e.listedIds? = some [1, 20, 3] ∧ (ctx.dispatch e b).1 = true ∧
      ctx.dispatch e b = (true, b.onScene fun s => (s.setActive ⟨1⟩
        (g.receive ctx.catalog [plain 20, plain 20] (f.copiedStages [1, 20, 3] false))).setActive
          ⟨2⟩ (f.handOver [1, 20, 3] true false)) ∧
      after.fighters.map (fun f => (f.sheet.stages, f.board.active)) =
        [(Stages.zero, [plain 22, plain 20, plain 20]), (Stages.zero, [plain 21])] := by
  intro ctx plain marker sheet f g b e after
  have hcatalog : ∀ t ∈ ctx.catalog.buffs, t.Quiet := Catalog.plainMarkers_marksStages.quiet
  have hboards : ∀ f ∈ b.scene.fighters, ∀ x ∈ f.board.active, x.template.Quiet := by decide
  have hids : e.listedIds? = some [1, 20, 3] := by decide +kernel
  have hcategory : e.namedCategory? = some none := by decide +kernel
  have htransfer : flag? (e.option "transfer" "false") = some true := by decide +kernel
  have hreverse : flag? (e.option "reverse" "false") = some false := by decide +kernel
  have hhandled : (ctx.dispatch e b).1 = true := by decide +kernel
  obtain ⟨hdispatch, _⟩ := copy_by_number hcatalog hboards rfl hids hcategory htransfer hreverse
    rfl rfl (by decide) rfl rfl (by decide) hhandled
  exact ⟨hids, hhandled, hdispatch, by decide +kernel⟩

end PetDuel
