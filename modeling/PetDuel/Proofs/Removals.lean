import PetDuel.Proofs.Categories
import PetDuel.Proofs.Quiet

/-!
Removals. Where nothing answers the leaving of buffs, a removal is one filter of the buffs of a
fighter: the sweeps by category, the sweep by number and the reset of the stages that go with listed
markers come to the same in any order, and only the sets of numbers and categories count.
-/

namespace PetDuel

/-- A fighter without some of its buffs, and with the stages of some channels at zero. -/
def Fighter.without (gone : Buff → Bool) (cleared : StageChannel → Bool) (f : Fighter) : Fighter :=
  { f with
    sheet := { f.sheet with stages := .ofFn fun c => if cleared c then 0 else f.sheet.stage c }
    board := { f.board with active := f.board.active.filter fun x => !gone x } }

def Buff.isMarkerOf (x : Buff) (c : StageChannel) : Bool :=
  x.id == markerId c true || x.id == markerId c false

namespace Deed

def listsMarkerOf (ids : List Int32) (c : StageChannel) : Bool :=
  ids.contains (markerId c true) || ids.contains (markerId c false)

/-- What a removal takes away: buffs with listed numbers or of listed categories, marks that count
turns when the turn-based buffs are listed, and both markers of a channel one of which is listed. -/
def takes (categories : List Category) (ids : List Int32) (x : Buff) : Bool :=
  ids.contains x.id || categories.contains x.template.category ||
    (categories.contains .turnBased && isSweptMark x) ||
    StageChannel.all.any fun c => listsMarkerOf ids c && x.isMarkerOf c

end Deed

variable {f : Fighter} {gone gone' : Buff → Bool} {cleared cleared' : StageChannel → Bool}
  {c : StageChannel} {catalog : Catalog}

namespace Fighter

/-- What matters of the two conditions is what they say of the buffs on the board and of the
channels. -/
theorem without_congr (hgone : ∀ x ∈ f.board.active, gone x = gone' x)
    (hcleared : ∀ c, cleared c = cleared' c) :
    f.without gone cleared = f.without gone' cleared' := by
  obtain rfl : cleared = cleared' := funext hcleared
  have hfilter : (f.board.active.filter fun x => !gone x) =
      f.board.active.filter fun x => !gone' x :=
    List.filter_congr fun x hx => congrArg not (hgone x hx)
  unfold without
  rw [hfilter]

/-- Two removals one after the other are one. -/
theorem without_without (gone gone' : Buff → Bool) (cleared cleared' : StageChannel → Bool)
    (f : Fighter) : (f.without gone cleared).without gone' cleared' =
      f.without (fun x => gone x || gone' x) fun c => cleared c || cleared' c := by
  have hfilter : (f.board.active.filter fun x => !gone x).filter (fun x => !gone' x) =
      f.board.active.filter fun x => !(gone x || gone' x) := by
    rw [List.filter_filter]
    apply List.filter_congr
    intro x _
    rw [Bool.not_or, Bool.and_comm]
  have hstages (c : StageChannel) :
      (if cleared' c then 0 else (f.without gone cleared).sheet.stage c) =
        if cleared c || cleared' c then 0 else f.sheet.stage c := by
    change (if cleared' c then 0 else (Stages.ofFn fun c =>
      if cleared c then 0 else f.sheet.stage c).get c) = _
    rw [Stages.get_ofFn]
    cases cleared c <;> cases cleared' c <;> rfl
  unfold without at hstages ⊢
  dsimp only at hstages ⊢
  rw [hfilter, funext hstages]

theorem without_noStage (gone : Buff → Bool) (f : Fighter) :
    f.without gone (fun _ => false) =
      { f with board := { f.board with active := f.board.active.filter fun x => !gone x } } := by
  have hstages : (Stages.ofFn fun c => if false then 0 else f.sheet.stage c) = f.sheet.stages :=
    Stages.ext_get fun c => Stages.get_ofFn _ c
  exact congrArg (fun stages => { f with
    sheet := { f.sheet with stages }
    board := { f.board with active := f.board.active.filter fun x => !gone x } }) hstages

theorem without_nothing (f : Fighter) : f.without (fun _ => false) (fun _ => false) = f := by
  have hfilter : (f.board.active.filter fun _ => !false) = f.board.active :=
    List.filter_eq_self.mpr fun _ _ => rfl
  rw [without_noStage, hfilter]

theorem onBoard_removeWhere (p : Buff → Bool) (f : Fighter) :
    (f.onBoard fun board => board.removeWhere p).1 = f.without p fun _ => false :=
  (without_noStage p f).symm

end Fighter

/-- Taking away, once each, what a filter keeps leaves what it drops. -/
theorem diff_filter {α : Type} [BEq α] [LawfulBEq α] (p : α → Bool) (xs : List α) :
    xs.diff (xs.filter p) = xs.filter fun x => !p x := by
  induction xs with
  | nil => rfl
  | cons x xs ih =>
    rw [List.filter_cons, List.filter_cons]
    -- What is selected leaves its own place, and what is not stays in front of the rest.
    cases hx : p x with
    | true =>
      change (x :: xs).diff (x :: xs.filter p) = xs.filter fun x => !p x
      rw [List.diff_cons, List.erase_cons_head, ih]
    | false =>
      have habsent : x ∉ xs.filter p := fun hmem =>
        Bool.false_ne_true (hx.symm.trans (List.mem_filter.mp hmem).2)
      change (x :: xs).diff (xs.filter p) = x :: xs.filter fun x => !p x
      rw [List.cons_diff_of_not_mem habsent, ih]

namespace BuffBoard

/-- Removing buffs one after the other takes each of them once. -/
theorem removeEach_eq (board : BuffBoard) (xs : List Buff) :
    (board.removeEach xs).1 = { board with active := board.active.diff xs } := by
  induction xs generalizing board with
  | nil => rfl
  | cons x xs ih =>
    have hfirst : (board.remove x).1 = { board with active := board.active.erase x } := by
      unfold remove
      split
      · rfl
      · rename_i habsent
        rw [List.erase_of_not_mem (mt List.contains_iff_mem.mpr habsent)]
    have hrest : (board.removeEach (x :: xs)).1 = ((board.remove x).1.removeEach xs).1 := rfl
    rw [hrest, ih, hfirst, List.diff_cons]

/-- Among equal buffs it makes no difference which one leaves: removing what a filter selects, one
after the other, is the removal by the filter. -/
theorem removeEach_filter (p : Buff → Bool) (board : BuffBoard) :
    (board.removeEach (board.active.filter p)).1 = (board.removeWhere p).1 := by
  rw [removeEach_eq, diff_filter]
  rfl

end BuffBoard

/-- A stage can always be brought back to zero, unless the limit is negative. -/
theorem StatSheet.limitStage_zero {s : StatSheet} (h : 0 ≤ s.stageLimit) : s.limitStage 0 = 0 := by
  obtain ⟨_, _, hup, hdown⟩ := limitStage_spec h 0
  have hzero : (0 : Int32).toInt = 0 := rfl
  apply Int32.toInt_inj.mp
  omega

namespace Fighter

/-- A channel at stage zero loses both its markers when they are brought in line. -/
theorem syncMarker_of_zero (h : f.sheet.stage c = 0) :
    (f.syncMarker catalog c).1 = f.without (fun x => x.isMarkerOf c) fun _ => false := by
  -- A stage of zero calls for neither marker: both are dropped, and none is put up.
  have hcalled : markerFor? c (f.sheet.stage c) = none := by
    rw [h]
    rfl
  let removal (raised : Bool) : BuffBoard → BuffBoard × BuffChange := fun board =>
    board.removeWhere fun x => x.id == markerId c raised
  have hsync : (f.syncMarker catalog c).1 =
      ((f.onBoard (removal true)).1.onBoard (removal false)).1 := by
    unfold syncMarker onBoard raiseMarker dropMarkers
    dsimp only
    rw [hcalled]
    rfl
  rw [hsync, onBoard_removeWhere, onBoard_removeWhere, without_without]
  exact without_congr (fun x _ => rfl) fun _ => rfl

/-- Writing zero to a stage takes the markers of its channel away, and nothing else. -/
theorem setStage_zero (h : 0 ≤ f.sheet.stageLimit) :
    (f.setStage catalog c 0).1 = f.without (fun x => x.isMarkerOf c) fun d => d == c := by
  have hstage (d : StageChannel) : (f.sheet.setStage c 0).stage d =
      if d == c then 0 else f.sheet.stage d := by
    rw [StatSheet.stage_setStage, StatSheet.limitStage_zero h]
    by_cases hd : d = c
    · rw [if_pos hd.symm, if_pos (beq_iff_eq.mpr hd)]
    · rw [if_neg (Ne.symm hd), if_neg (mt beq_iff_eq.mp hd)]
  have hstages : (f.sheet.setStage c 0).stages =
      .ofFn fun d => if d == c then 0 else f.sheet.stage d := by
    apply Stages.ext_get
    intro d
    rw [Stages.get_ofFn]
    exact hstage d
  have hzero : (f.sheet.setStage c 0).stage c = 0 := (hstage c).trans (if_pos (beq_self_eq_true c))
  calc (f.setStage catalog c 0).1
      = ({ f with sheet := f.sheet.setStage c 0 } : Fighter).without (fun x => x.isMarkerOf c)
          fun _ => false := syncMarker_of_zero hzero
    _ = { f with
          sheet := { f.sheet with stages := (f.sheet.setStage c 0).stages }
          board := { f.board with active := f.board.active.filter fun x => !x.isMarkerOf c } } :=
        without_noStage _ _
    _ = f.without (fun x => x.isMarkerOf c) fun d => d == c := by
        rw [hstages]
        rfl

/-- Several stages are written to zero as if at once. -/
theorem through_setStage_zero (h : 0 ≤ f.sheet.stageLimit) (cs : List StageChannel) :
    f.through (cs.map fun c f => f.setStage catalog c 0) =
      f.without (fun x => cs.any x.isMarkerOf) cs.contains := by
  induction cs generalizing f with
  | nil => exact (without_nothing f).symm
  | cons c cs ih =>
    have hstart : f.through ((c :: cs).map fun c f => f.setStage catalog c 0) =
        (f.setStage catalog c 0).1.through (cs.map fun c f => f.setStage catalog c 0) := rfl
    -- The limit stays, and so the next stage can be written in the same way.
    have hlimit : 0 ≤ (f.without (fun x => x.isMarkerOf c) fun d => d == c).sheet.stageLimit := h
    rw [hstart, setStage_zero h, ih hlimit, without_without]
    apply without_congr
    · intro x _
      rw [List.any_cons]
    · intro d
      rw [List.contains_cons]

theorem resetStages_eq_through (ctx : Context) (cs : List StageChannel) (f : Fighter) :
    (Deed.resetStages ctx cs f).1 = f.through (cs.map fun c f => f.setStage ctx.catalog c 0) := by
  induction cs generalizing f with
  | nil => rfl
  | cons c cs ih => exact ih (f.setStage ctx.catalog c 0).1

end Fighter

theorem StageChannel.any_eq_all_any (cs : List StageChannel) (p : StageChannel → Bool) :
    cs.any p = all.any fun c => cs.contains c && p c := by
  rw [Bool.eq_iff_iff, List.any_eq_true, List.any_eq_true]
  apply exists_congr
  intro c
  rw [Bool.and_eq_true, List.contains_iff_mem, and_iff_right c.mem_all]

namespace Deed

variable {ctx : Context}

theorem contains_markedChannels (ids : List Int32) (c : StageChannel) :
    (markedChannels ids).contains c = listsMarkerOf ids c := by
  unfold listsMarkerOf
  rw [Bool.eq_iff_iff, List.contains_iff_mem, mem_markedChannels, Bool.or_eq_true,
    List.contains_iff_mem, List.contains_iff_mem, Bool.exists_bool, or_comm]

theorem any_markedChannels (ids : List Int32) (x : Buff) :
    (markedChannels ids).any x.isMarkerOf =
      StageChannel.all.any fun c => listsMarkerOf ids c && x.isMarkerOf c := by
  rw [StageChannel.any_eq_all_any]
  simp only [contains_markedChannels]

/-- The sweeps of several categories take what is of one of them, and marks with the turn-based. -/
theorem sweeps_eq (categories : List Category) (x : Buff) :
    sweeps categories x = (categories.contains x.template.category ||
      (categories.contains .turnBased && isSweptMark x)) := by
  induction categories with
  | nil => rfl
  | cons category categories ih =>
    have hcons : sweeps (category :: categories) x = (x.template.category == category ||
      (category == .turnBased && isSweptMark x) || sweeps categories x) := rfl
    have hsymm : (category == .turnBased) = (Category.turnBased == category) := Bool.beq_comm
    rw [hcons, ih, List.contains_cons, List.contains_cons, hsymm]
    cases x.template.category == category <;> cases Category.turnBased == category <;>
      cases isSweptMark x <;> simp

theorem swept_eq (categories : List Category) (f : Fighter) :
    swept categories f = f.without (sweeps categories) fun _ => false :=
  (Fighter.without_noStage _ f).symm

/-- The removal of listed numbers takes the buffs with these numbers and the markers of their
channels, and clears the stages of these. -/
theorem removeListed_eq (h : 0 ≤ f.sheet.stageLimit) (ids : List Int32) :
    (removeListed ctx ids f).1 = f.without
      (fun x => ids.contains x.id || (markedChannels ids).any x.isMarkerOf)
      (markedChannels ids).contains := by
  let plain := (f.onBoard fun board => board.removeWhere fun x => ids.contains x.id).1
  have hplain : plain = f.without (fun x => ids.contains x.id) fun _ => false :=
    Fighter.onBoard_removeWhere _ f
  have hlimit : 0 ≤ plain.sheet.stageLimit := h
  calc (removeListed ctx ids f).1
      = (resetStages ctx (markedChannels ids) plain).1 := rfl
    _ = plain.without (fun x => (markedChannels ids).any x.isMarkerOf)
          (markedChannels ids).contains := by
        rw [Fighter.resetStages_eq_through, Fighter.through_setStage_zero hlimit]
    _ = f.without (fun x => ids.contains x.id || (markedChannels ids).any x.isMarkerOf)
          (markedChannels ids).contains := by
        rw [hplain, Fighter.without_without]
        rfl

/-- A removal by category and number filters the buffs once. -/
theorem removed_eq (h : 0 ≤ f.sheet.stageLimit) (categories : List Category) (ids : List Int32) :
    removed ctx categories ids f = f.without (takes categories ids) (listsMarkerOf ids) := by
  have htakes (x : Buff) : (sweeps categories x ||
      (ids.contains x.id || (markedChannels ids).any x.isMarkerOf)) = takes categories ids x := by
    rw [sweeps_eq, any_markedChannels]
    unfold takes
    cases ids.contains x.id <;> simp
  unfold removed
  split
  · -- Where no number is listed, there is no listed marker either.
    rename_i hempty
    obtain rfl := List.isEmpty_iff.mp hempty
    rw [swept_eq]
    apply Fighter.without_congr
    · intro x _
      rw [← htakes]
      exact (Bool.or_false _).symm
    · intro c
      rfl
  · have hlimit : 0 ≤ (swept categories f).sheet.stageLimit := h
    rw [removeListed_eq hlimit, swept_eq, Fighter.without_without]
    apply Fighter.without_congr
    · intro x _
      exact htakes x
    · intro c
      exact (Bool.false_or _).trans (contains_markedChannels ids c)

/-- Only the sets of categories and numbers count for what a removal takes. -/
theorem takes_congr {categories categories' : List Category} {ids ids' : List Int32}
    (hcategories : ∀ category, category ∈ categories' ↔ category ∈ categories)
    (hids : ∀ n, n ∈ ids' ↔ n ∈ ids) :
    takes categories' ids' = takes categories ids ∧ listsMarkerOf ids' = listsMarkerOf ids := by
  have hcategory (category : Category) :
      categories'.contains category = categories.contains category := by
    rw [Bool.eq_iff_iff, List.contains_iff_mem, List.contains_iff_mem, hcategories]
  have hid (n : Int32) : ids'.contains n = ids.contains n := by
    rw [Bool.eq_iff_iff, List.contains_iff_mem, List.contains_iff_mem, hids]
  have hlists : listsMarkerOf ids' = listsMarkerOf ids := by
    funext c
    unfold listsMarkerOf
    rw [hid, hid]
  refine ⟨?_, hlists⟩
  funext x
  unfold takes
  rw [hid, hcategory, hcategory, hlists]

end Deed

theorem isEmpty_congr {α : Type} {xs ys : List α} (h : ∀ x, x ∈ ys ↔ x ∈ xs) :
    ys.isEmpty = xs.isEmpty := by
  rw [Bool.eq_iff_iff, List.isEmpty_iff, List.isEmpty_iff, List.eq_nil_iff_forall_not_mem,
    List.eq_nil_iff_forall_not_mem]
  exact forall_congr' fun x => not_congr (h x)

/-- An effect lists categories exactly where it gives a text for them. -/
theorem Effect.isGiven_of_listedCategories? {e : Effect} {categories : List Category}
    (h : e.listedCategories? = some categories) :
    Options.isGiven (e.option "type" Options.emptyText) = !categories.isEmpty := by
  unfold listedCategories? at h
  dsimp only at h
  split at h
  · rename_i hgiven
    have hpieces : Text.split '/' (e.option "type" Options.emptyText) ≠ [] := fun hnil =>
      List.splitOn_ne_nil '/' _ (List.map_eq_nil_iff.mp hnil)
    obtain ⟨piece, pieces, hsplit⟩ := List.exists_cons_of_ne_nil hpieces
    rw [hsplit, List.mapM_cons] at h
    simp only [Option.bind_eq_bind, Option.bind_eq_some_iff] at h
    obtain ⟨first, _, rest, _, hlist⟩ := h
    cases hlist
    exact hgiven
  · rename_i hnone
    cases h
    exact Bool.eq_false_iff.mpr hnone

/-- A readable removal is refused exactly when it lists nothing. -/
theorem Effect.decide?_remove (ctx : Context) (m : Moment) {e : Effect} {ids : List Int32}
    {categories : List Category} {id : DuelistId} {f : Fighter}
    (hability : e.ability = .removeBuffs) (hids : e.listedIds? = some ids)
    (hcategories : e.listedCategories? = some categories)
    (hnamed : m.scene.named? e "who" "me" = some id) (hf : m.scene.active? id = some f) :
    e.decide? ctx m =
      if !ids.isEmpty || !categories.isEmpty then some (.removeBuffs id categories ids)
      else none := by
  have hgiven := isGiven_of_listedCategories? hcategories
  have hread : e.decide? ctx m = e.decideRemove m := by
    unfold decide?
    rw [hability]
  rw [hread]
  simp only [decideRemove, hids, hcategories, hnamed, hf, hgiven, Option.bind_eq_bind,
    Option.bind_some]
  cases (!ids.isEmpty || !categories.isEmpty) <;> rfl

/-- A removal in a quiet duel. The fighter keeps the buffs that are not taken, in order, the stages
of the channels with a listed marker go to zero, and nothing else changes. What another effect lists
in another order or several times makes no difference. The text `0` lists no number: it is what an
effect without the option has, and `listedIds?` reads it so. -/
theorem removal_filters_once {ctx : Context} {b : Battle} {e : Effect} {ids : List Int32}
    {categories : List Category} {id : DuelistId} {f : Fighter}
    (hcatalog : ∀ t ∈ ctx.catalog.buffs, t.Quiet)
    (hboards : ∀ f ∈ b.scene.fighters, ∀ x ∈ f.board.active, x.template.Quiet)
    (hability : e.ability = .removeBuffs) (hids : e.listedIds? = some ids)
    (hcategories : e.listedCategories? = some categories)
    (hnamed : b.scene.named? e "who" "me" = some id) (hf : b.scene.active? id = some f)
    (hlimit : 0 ≤ f.sheet.stageLimit) (hhandled : (ctx.dispatch e b).1 = true) :
    ctx.dispatch e b = (true, b.onScene fun s => s.setActive id
      (f.without (Deed.takes categories ids) (Deed.listsMarkerOf ids))) ∧
    ∀ (e' : Effect) (ids' : List Int32) (categories' : List Category),
      e'.ability = .removeBuffs → e'.listedIds? = some ids' →
      e'.listedCategories? = some categories' → b.scene.named? e' "who" "me" = some id →
      (∀ n, n ∈ ids' ↔ n ∈ ids) → (∀ category, category ∈ categories' ↔ category ∈ categories) →
      ctx.dispatch e' b = ctx.dispatch e b := by
  -- What a removal does that lists something.
  have hdispatch {e : Effect} {ids : List Int32} {categories : List Category}
      (hability : e.ability = .removeBuffs) (hids : e.listedIds? = some ids)
      (hcategories : e.listedCategories? = some categories)
      (hnamed : b.scene.named? e "who" "me" = some id)
      (hsome : (!ids.isEmpty || !categories.isEmpty) = true) :
      ctx.dispatch e b = (true, b.onScene fun s => s.setActive id
        (f.without (Deed.takes categories ids) (Deed.listsMarkerOf ids))) := by
    have hdecide := Effect.decide?_remove ctx b.now hability hids hcategories hnamed hf
    rw [if_pos hsome] at hdecide
    have hwalk : b.scene.walk ((Deed.removeBuffs id categories ids).steps ctx) =
        b.scene.setActive id (f.without (Deed.takes categories ids) (Deed.listsMarkerOf ids)) := by
      change b.scene.walk (Deed.removeSteps ctx id categories ids) = _
      rw [Deed.removeSteps_eq, Scene.walk_fighters hf, Deed.through_removeOps,
        Deed.removed_eq hlimit]
    rw [Context.dispatch_eq_walk hcatalog hboards hdecide, hwalk]
    rfl
  have hsome : (!ids.isEmpty || !categories.isEmpty) = true := by
    by_contra hnothing
    have hdecide := Effect.decide?_remove ctx b.now hability hids hcategories hnamed hf
    rw [if_neg hnothing] at hdecide
    rw [Context.dispatch_of_decide?_eq_none hdecide] at hhandled
    cases hhandled
  have hfirst := hdispatch hability hids hcategories hnamed hsome
  refine ⟨hfirst, ?_⟩
  intro e' ids' categories' hability' hids' hcategories' hnamed' hsame hsame'
  obtain ⟨htakes, hlists⟩ := Deed.takes_congr hsame' hsame
  rw [← isEmpty_congr hsame, ← isEmpty_congr hsame'] at hsome
  rw [hdispatch hability' hids' hcategories' hnamed' hsome, hfirst, htakes, hlists]

/-- Listing the marker of a lowered attack takes the marker of a raised one and its stage, and the
turn-based buffs take a mark. The same lists in another order and with repeats do the same. -/
theorem removal_in_any_order :
    let ctx : Context := ⟨.plainMarkers, {}⟩
    let plain (id : Int32) (category : Category) : Buff :=
      .new { (default : BuffTemplate) with id, category } 3 1
    let f := { Fighter.raisedByOne with
      board := ⟨Fighter.raisedByOne.board.active ++
        [plain 20 .normal, plain 21 .mark, plain 22 .feature], [], []⟩ }
    let b := Battle.new (.new ⟨1⟩ [f] 0) (.new ⟨2⟩ [] 0)
    let e := (Effect.new .attack .removeBuffs
      ⟨[("id", "2/20"), ("type", "TurnBased")]⟩).actingFor ⟨1⟩
    let e' := (Effect.new .attack .removeBuffs
      ⟨[("type", "TurnBased/TurnBased"), ("id", "20/2/2")]⟩).actingFor ⟨1⟩
    let left := f.without (Deed.takes [.turnBased] [2, 20]) (Deed.listsMarkerOf [2, 20])
    e.listedIds? = some [2, 20] ∧ e.listedCategories? = some [.turnBased] ∧
      (ctx.dispatch e b).1 = true ∧
      ctx.dispatch e b = (true, b.onScene fun s => s.setActive ⟨1⟩ left) ∧
      left.board.active = [plain 22 .feature] ∧ left.sheet.stages = Stages.zero ∧
      ctx.dispatch e' b = ctx.dispatch e b := by
  intro ctx plain f b e e' left
  have hcatalog : ∀ t ∈ ctx.catalog.buffs, t.Quiet := Catalog.plainMarkers_marksStages.quiet
  have hboards : ∀ f ∈ b.scene.fighters, ∀ x ∈ f.board.active, x.template.Quiet := by decide
  have hids : e.listedIds? = some [2, 20] := by decide +kernel
  have hcategories : e.listedCategories? = some [.turnBased] := by decide +kernel
  have hids' : e'.listedIds? = some [20, 2, 2] := by decide +kernel
  have hcategories' : e'.listedCategories? = some [.turnBased, .turnBased] := by decide +kernel
  have hhandled : (ctx.dispatch e b).1 = true := by decide +kernel
  obtain ⟨hdispatch, hsame⟩ := removal_filters_once hcatalog hboards rfl hids hcategories rfl rfl
    (by decide) hhandled
  refine ⟨hids, hcategories, hhandled, hdispatch, by decide, by decide, ?_⟩
  exact hsame e' _ _ rfl hids' hcategories' rfl (by simp [or_comm]) (by simp)

end PetDuel
