import Mathlib.Data.List.Perm.Basic
import PetDuel.Proofs.Quiet
import PetDuel.Proofs.Spared

/-!
Copies of buffs. A fighter gets copies of what another one has, selected by number, by category or
both. The two selections are copied one after the other, and so a buff that is in both is copied
twice; markers are copied by their stages and not as buffs.
-/

namespace PetDuel

/-- Two selections put together have nothing twice if and only if they do not overlap. -/
theorem perm_filter_append_iff {α : Type} [DecidableEq α] (p q : α → Bool) (xs : List α) :
    (xs.filter p ++ xs.filter q).Perm (xs.filter fun x => p x || q x) ↔
      ∀ x ∈ xs, ¬(p x = true ∧ q x = true) := by
  have hcount (r : α → Bool) (x : α) :
      (xs.filter r).count x = if r x then xs.count x else 0 := by
    split
    · rename_i hr
      exact List.count_filter hr
    · rename_i hr
      exact List.count_eq_zero.mpr fun hx => hr (List.mem_filter.mp hx).2
  rw [List.perm_iff_count]
  simp only [List.count_append, hcount]
  constructor
  · -- What both select would count twice on one side.
    rintro h x hx ⟨hp, hq⟩
    have hpositive := List.count_pos_iff.mpr hx
    have hequal := h x
    simp only [hp, hq, Bool.or_self, if_true] at hequal
    omega
  · intro h x
    by_cases hx : x ∈ xs
    · have hapart := h x hx
      cases hp : p x <;> cases hq : q x <;> simp_all
    · simp only [List.count_eq_zero.mpr hx, ite_self]

namespace BuffBoard

variable {ids : Int32 → Bool} {board board' : BuffBoard} {b : Buff} {id : Int32}

theorem Spares.isBlocked (h : board.Spares ids board') (id : Int32) :
    board'.isBlocked id = board.isBlocked id := by
  unfold BuffBoard.isBlocked
  rw [h.blockedIds, h.blockedRanges]

/-- Whether a number outside of a list is on a board does not depend on the buffs with listed
numbers. -/
theorem contains_eq_any_filter (hid : ids id = false) (board : BuffBoard) :
    board.contains id = (board.active.filter fun x => !ids x.id).any fun x => x.id == id := by
  unfold contains
  rw [List.any_filter]
  refine List.any_congr rfl fun x => ?_
  cases hx : x.id == id with
  | false => rw [Bool.and_false]
  | true =>
    rw [beq_iff_eq.mp hx, hid]
    rfl

theorem Spares.contains (h : board.Spares ids board') (hid : ids id = false) :
    board'.contains id = board.contains id := by
  rw [contains_eq_any_filter hid, contains_eq_any_filter hid, h.others]

/-- The first buff with a number that is not among `ids` is found past those that are. -/
theorem changeFirst_filter (hid : ids id = false) {f : Buff → Buff} (hf : ∀ x, (f x).id = x.id)
    (bs : List Buff) :
    changeFirst id f (bs.filter fun x => !ids x.id) =
      (changeFirst id f bs).map fun p => (p.1.filter fun x => !ids x.id, p.2) := by
  induction bs with
  | nil => rfl
  | cons b bs ih =>
    -- The first buff with the number passes the filter, so both sides change the same one.
    by_cases hb : b.id = id
    · have hstays : (!ids b.id) = true := by rw [hb, hid, Bool.not_false]
      have hstays' : (!ids (f b).id) = true := by rw [hf, hstays]
      rw [List.filter_cons, if_pos hstays, changeFirst, changeFirst, if_pos hb, if_pos hb]
      split
      · rfl
      · rw [Option.map_some, List.filter_cons, if_pos hstays']
    · rw [changeFirst, if_neg hb, Option.map_map]
      by_cases hlisted : (!ids b.id) = true
      · rw [List.filter_cons, if_pos hlisted, changeFirst, if_neg hb, ih, Option.map_map]
        refine congrArg (fun g => Option.map g _) (funext fun p => ?_)
        simp only [Function.comp_apply, List.filter_cons, if_pos hlisted]
      · rw [List.filter_cons, if_neg hlisted, ih]
        refine congrArg (fun g => Option.map g _) (funext fun p => ?_)
        simp only [Function.comp_apply, List.filter_cons, if_neg hlisted]

/-- Boards that differ in listed numbers alone still do so after the first buff with another number
has changed in both. -/
theorem Spares.update? (h : board.Spares ids board') (hid : ids id = false) {f : Buff → Buff}
    (hf : ∀ x, (f x).id = x.id) :
    ((board.update? id f).getD (board, .none)).1.Spares ids
      ((board'.update? id f).getD (board', .none)).1 := by
  have hfirst := changeFirst_filter hid hf board.active
  have hfirst' := changeFirst_filter hid hf board'.active
  rw [h.others, hfirst] at hfirst'
  -- Without the listed numbers the two boards are one, and so is what the change makes of them.
  unfold BuffBoard.update?
  cases hc : changeFirst id f board.active with
  | none =>
    cases hc' : changeFirst id f board'.active with
    | none => exact h
    | some p' => simp [hc, hc'] at hfirst'
  | some p =>
    cases hc' : changeFirst id f board'.active with
    | none => simp [hc, hc'] at hfirst'
    | some p' =>
      rw [hc, hc'] at hfirst'
      have hothers := congrArg Prod.fst (Option.some.inj hfirst')
      exact ⟨hothers.symm, h.blockedIds, h.blockedRanges⟩

theorem Spares.push (h : board.Spares ids board') (b : Buff) :
    (board.push b).1.Spares ids (board'.push b).1 := by
  refine ⟨?_, h.blockedIds, h.blockedRanges⟩
  change (board'.active ++ [b]).filter _ = (board.active ++ [b]).filter _
  rw [List.filter_append, List.filter_append, h.others]

/-- A buff meets on a board only those with its own number. -/
theorem Spares.add (h : board.Spares ids board') (hb : ids b.id = false) :
    (board.add b).1.Spares ids (board'.add b).1 := by
  unfold BuffBoard.add
  rw [h.isBlocked, h.contains hb]
  split
  · exact h
  · split
    · exact h.push b
    · split
      · exact h.push b
      · exact h
      · exact h.update? hb fun x => (CopyPolicy.rewritten_meet _ b x).id

theorem addEach_cons (x : Buff) (xs : List Buff) (board : BuffBoard) :
    (board.addEach (x :: xs)).1 = ((board.add x).1.addEach xs).1 := rfl

theorem addEach_append (xs ys : List Buff) (board : BuffBoard) :
    (board.addEach (xs ++ ys)).1 = ((board.addEach xs).1.addEach ys).1 := by
  induction xs generalizing board with
  | nil => rfl
  | cons x xs ih => exact ih (board.add x).1

/-- Buffs with numbers among `ids` may come or not. -/
theorem Spares.addEach (h : board.Spares ids board') (xs : List Buff) :
    (board.addEach (xs.filter fun x => !ids x.id)).1.Spares ids (board'.addEach xs).1 := by
  induction xs generalizing board board' with
  | nil => exact h
  | cons x xs ih =>
    rw [addEach_cons]
    cases hx : ids x.id with
    | true =>
      rw [List.filter_cons_of_neg (by simp [hx])]
      exact ih (h.trans (spares_add hx board'))
    | false =>
      rw [List.filter_cons_of_pos (by simp [hx]), addEach_cons]
      exact ih (h.add hx)

end BuffBoard

namespace Fighter

theorem through_add (xs : List Buff) (f : Fighter) :
    f.through (xs.map fun x => onBoard fun board => board.add x) =
      { f with board := (f.board.addEach xs).1 } := by
  induction xs generalizing f with
  | nil => rfl
  | cons x xs ih => exact ih (f.onBoard fun board => board.add x).1

theorem board_through_add (xs : List Buff) (f : Fighter) :
    (f.through (xs.map fun x => onBoard fun board => board.add x)).board =
      (f.board.addEach xs).1 := congrArg board (through_add xs f)

end Fighter

def marksStage (id : Int32) : Bool := (markerOf? id).isSome

def BuffBoard.plain (board : BuffBoard) : List Buff :=
  board.active.filter fun x => !marksStage x.id

theorem BuffBoard.Spares.plain {board board' : BuffBoard} (h : board.Spares marksStage board') :
    board'.plain = board.plain := h.others

namespace Deed

variable {source target : DuelistId} {s : Scene} {f g : Fighter}

/-- The two fighters of a copy go each through what is done to it, whatever is done to the other one
in between. -/
theorem walk_copySteps (ctx : Context) (hne : source ≠ target) (hf : s.active? source = some f)
    (hg : s.active? target = some g) (listed : List Buff) (stages : Stages)
    (drained : List StageChannel) (typed : List Buff) (transfer : Bool) :
    let add (x : Buff) : Fighter → Fighter × BuffChange := Fighter.onBoard fun board => board.add x
    let takings := if transfer then [Fighter.onBoard (takeBack listed typed)] else []
    s.walk (copySteps ctx source target listed stages drained typed transfer) =
      (s.setActive target (((g.through (listed.map add)).shiftStages ctx.catalog stages).1.through
        (typed.map add))).setActive source
        ((f.through (drained.map fun c f => f.setStage ctx.catalog c 0)).through takings) := by
  intro add takings
  let shift : Fighter → Fighter × BuffChange := fun f => f.shiftStages ctx.catalog stages
  let zeros := drained.map fun c (f : Fighter) => f.setStage ctx.catalog c 0
  let g₁ := g.through (listed.map add ++ [shift])
  let f₁ := f.through zeros
  let s₁ := s.setActive target g₁
  have hshifted : g₁ = ((g.through (listed.map add)).shiftStages ctx.catalog stages).1 :=
    Fighter.through_append _ _ g
  have hf₁ : s₁.active? source = some f := (Scene.active?_setActive_of_ne hne g₁).trans hf
  have hg₂ : (s₁.setActive source f₁).active? target = some g₁ :=
    (Scene.active?_setActive_of_ne hne.symm f₁).trans (Scene.active?_setActive hg g₁)
  have hf₃ : ((s₁.setActive source f₁).setActive target (g₁.through (typed.map add))).active?
      source = some f₁ :=
    (Scene.active?_setActive_of_ne hne _).trans (Scene.active?_setActive hf₁ f₁)
  -- Four stretches of steps, each on one of two fighters, are sorted by the fighter.
  rw [copySteps_eq, Scene.walk_append, Scene.walk_append, Scene.walk_append,
    Scene.walk_fighters hg, Scene.walk_fighters hf₁, Scene.walk_fighters hg₂,
    Scene.walk_fighters hf₃, Scene.setActive_comm hne.symm, Scene.setActive_setActive,
    Scene.setActive_setActive, ← hshifted]

/-- Up to markers, the target of a copy ends up with both selections added. -/
theorem plain_walk_copySteps (ctx : Context) (hne : source ≠ target)
    (hf : s.active? source = some f) (hg : s.active? target = some g) (listed : List Buff)
    (stages : Stages) (drained : List StageChannel) (typed : List Buff) (transfer : Bool) :
    ∃ h, (s.walk (copySteps ctx source target listed stages drained typed transfer)).active?
        target = some h ∧
      h.board.plain =
        (g.board.addEach (listed ++ typed.filter fun x => !marksStage x.id)).1.plain := by
  rw [walk_copySteps ctx hne hf hg, Scene.active?_setActive_of_ne hne.symm,
    Scene.active?_setActive hg]
  refine ⟨_, rfl, ?_⟩
  -- The stages move markers only, and of the second selection the markers do not count.
  have hmarkers : ∀ c raised, marksStage (markerId c raised) = true := fun c raised => by
    rw [marksStage, markerOf?_markerId, Option.isSome_some]
  have hshifted : ∀ f : Fighter, f.Spares marksStage (f.shiftStages ctx.catalog stages).1 :=
    Fighter.spares_shiftStages hmarkers stages
  have hboth := (hshifted (g.through (listed.map fun x =>
    Fighter.onBoard fun board => board.add x))).board.addEach typed
  rw [Fighter.board_through_add listed, ← BuffBoard.addEach_append] at hboth
  rw [Fighter.board_through_add]
  exact hboth.plain

end Deed

def Fighter.selected (f : Fighter) (takes : Buff → Bool) : List Buff := f.board.plain.filter takes

theorem Fighter.selected_eq (f : Fighter) (takes : Buff → Bool) :
    f.selected takes = (f.board.active.filter takes).filter fun x => !marksStage x.id := by
  unfold selected BuffBoard.plain
  rw [List.filter_filter, List.filter_filter]
  exact List.filter_congr fun x _ => Bool.and_comm _ _

/-- The stage channels with a listed marker on the board, as often as there are such markers. -/
def Fighter.listedChannels (f : Fighter) (ids : List Int32) : List StageChannel :=
  (f.board.active.filter fun x => ids.contains x.id).filterMap fun x =>
    (markerOf? x.id).map Prod.fst

/-- What a copy that is not refused comes to. -/
theorem Effect.decide?_copyBuffs {ctx : Context} {b : Battle} {e : Effect} {ids : List Int32}
    {category : Option Category} {source target : DuelistId} {f : Fighter}
    (hability : e.ability = .copyBuffs) (hids : e.listedIds? = some ids)
    (hcategory : e.namedCategory? = some category)
    (hsource : b.scene.named? e "source" "op" = some source)
    (htarget : b.scene.named? e "target" "me" = some target)
    (hf : b.scene.active? source = some f) (hhandled : (ctx.dispatch e b).1 = true) :
    ∃ transfer reverse, flag? (e.option "transfer" "false") = some transfer ∧
      flag? (e.option "reverse" "false") = some reverse ∧
      e.decide? ctx b.now = some (.copyBuffs source target
        ((f.board.active.filter fun x => ids.contains x.id).filter fun x => !marksStage x.id)
        (Effect.stagesOf f.sheet reverse (f.listedChannels ids))
        (if transfer || reverse then f.listedChannels ids else [])
        (f.board.active.filter fun x => category == some x.template.category) transfer) := by
  cases hdecide : e.decide? ctx b.now with
  | none =>
    rw [Context.dispatch_of_decide?_eq_none hdecide] at hhandled
    cases hhandled
  | some deed =>
    have hplain : (fun x : Buff => !marksStage x.id) = fun x => (markerOf? x.id).isNone := by
      funext x
      rw [marksStage, Option.not_isSome]
    have hcopy : e.decideCopy b.now = some deed := by
      unfold decide? at hdecide
      rw [hability] at hdecide
      exact hdecide
    simp only [decideCopy, Option.bind_eq_bind, Option.bind_eq_some_iff] at hcopy
    obtain ⟨_, hids', _, _, transfer, htransfer, reverse, hreverse, _, hcategory', _, hsource', _,
      htarget', _, hf', _, _, hdeed⟩ := hcopy
    -- The deed was decided from what the hypotheses name.
    cases hids.symm.trans hids'
    cases hcategory.symm.trans hcategory'
    cases hsource.symm.trans hsource'
    cases htarget.symm.trans htarget'
    cases hf.symm.trans hf'
    cases hdeed
    rw [hplain]
    exact ⟨transfer, reverse, htransfer, hreverse, rfl⟩

/-- What a copy in a quiet duel brings to another duelist: up to markers, the target has what it had
with the buffs of the source added that are listed, and after them those of the category. These are
the selected buffs once each, in some order, if and only if no buff is both listed and of the
category. -/
theorem copied_once_iff {ctx : Context} {b : Battle} {e : Effect} {ids : List Int32}
    {category : Option Category} {source target : DuelistId} {f g : Fighter}
    (hcatalog : ∀ t ∈ ctx.catalog.buffs, t.Quiet)
    (hboards : ∀ f ∈ b.scene.fighters, ∀ x ∈ f.board.active, x.template.Quiet)
    (hability : e.ability = .copyBuffs) (hids : e.listedIds? = some ids)
    (hcategory : e.namedCategory? = some category)
    (hsource : b.scene.named? e "source" "op" = some source)
    (htarget : b.scene.named? e "target" "me" = some target) (hne : source ≠ target)
    (hf : b.scene.active? source = some f) (hg : b.scene.active? target = some g)
    (hhandled : (ctx.dispatch e b).1 = true) :
    let isListed (x : Buff) : Bool := ids.contains x.id
    let isTyped (x : Buff) : Bool := category == some x.template.category
    let copies := f.selected isListed ++ f.selected isTyped
    (∃ h, (ctx.dispatch e b).2.scene.active? target = some h ∧
      h.board.plain = (g.board.addEach copies).1.plain) ∧
    (copies.Perm (f.selected fun x => isListed x || isTyped x) ↔
      ∀ x ∈ f.board.plain, ¬(isListed x = true ∧ isTyped x = true)) := by
  intro isListed isTyped copies
  obtain ⟨transfer, reverse, _, _, hdecide⟩ :=
    Effect.decide?_copyBuffs hability hids hcategory hsource htarget hf hhandled
  refine ⟨?_, perm_filter_append_iff isListed isTyped f.board.plain⟩
  obtain ⟨h, hh, hboard⟩ := Deed.plain_walk_copySteps ctx hne hf hg
    ((f.board.active.filter isListed).filter fun x => !marksStage x.id)
    (Effect.stagesOf f.sheet reverse (f.listedChannels ids))
    (if transfer || reverse then f.listedChannels ids else [])
    (f.board.active.filter isTyped) transfer
  rw [← f.selected_eq, ← f.selected_eq] at hboard
  refine ⟨h, ?_, hboard⟩
  rw [Context.dispatch_eq_walk hcatalog hboards hdecide]
  exact hh

def Buff.ofCategory (id : Int32) (category : Category) : Buff :=
  .new { (default : BuffTemplate) with id, category, policy := .append } 3 1

/-- A mark is selected by its number, and a normal buff by its category. -/
theorem copied_once_by_number_or_category :
    let ctx : Context := ⟨.plainMarkers, {}⟩
    let normal := Buff.ofCategory 20 .normal
    let mark := Buff.ofCategory 21 .mark
    let f := { Fighter.raisedByOne with board := ⟨[normal, mark], [], []⟩ }
    let b := Battle.new (.new ⟨1⟩ [.raisedByOne] 0) (.new ⟨2⟩ [f] 0)
    let options : Options := ⟨[("id", "21"), ("type", "Normal"), ("transfer", "true")]⟩
    let e := (Effect.new .attack .copyBuffs options).actingFor ⟨1⟩
    e.listedIds? = some [21] ∧ e.namedCategory? = some (some .normal) ∧
      (ctx.dispatch e b).1 = true ∧
      (∃ h, (ctx.dispatch e b).2.scene.active? ⟨1⟩ = some h ∧ h.board.plain = [mark, normal]) ∧
      [mark, normal].Perm (f.selected fun x =>
        [21].contains x.id || some .normal == some x.template.category) := by
  intro ctx normal mark f b options e
  have hcatalog : ∀ t ∈ ctx.catalog.buffs, t.Quiet := Catalog.plainMarkers_marksStages.quiet
  have hbare : ∀ f ∈ b.scene.fighters, ∀ x ∈ f.board.active, x.template.effects = [] := by
    decide
  have hboards : ∀ f ∈ b.scene.fighters, ∀ x ∈ f.board.active, x.template.Quiet := by
    intro f hf x hx e he
    rw [hbare f hf x hx] at he
    cases he
  have hids : e.listedIds? = some [21] := by decide +kernel
  have hcategory : e.namedCategory? = some (some .normal) := by decide +kernel
  have hhandled : (ctx.dispatch e b).1 = true := by decide +kernel
  obtain ⟨⟨h, hh, hboard⟩, honce⟩ := copied_once_iff hcatalog hboards rfl hids hcategory rfl rfl
    (by decide) rfl rfl hhandled
  refine ⟨hids, hcategory, hhandled, ⟨h, hh, hboard.trans ?_⟩, honce.mpr ?_⟩
  · decide +kernel
  · decide

/-- A normal buff that is selected both by its number and by its category goes over as two, which no
order of adding the selected buffs once each gives. -/
theorem copied_twice_by_both :
    let ctx : Context := ⟨.empty, {}⟩
    let normal := Buff.ofCategory 20 .normal
    let f : Fighter := { (default : Fighter) with board := ⟨[normal], [], []⟩ }
    let g : Fighter := default
    let b := Battle.new (.new ⟨1⟩ [g] 0) (.new ⟨2⟩ [f] 0)
    let options : Options := ⟨[("id", "20"), ("type", "Normal"), ("transfer", "true")]⟩
    let e := (Effect.new .attack .copyBuffs options).actingFor ⟨1⟩
    e.listedIds? = some [20] ∧ e.namedCategory? = some (some .normal) ∧
      (ctx.dispatch e b).1 = true ∧
      ∃ h, (ctx.dispatch e b).2.scene.active? ⟨1⟩ = some h ∧
        h.board.plain = [normal, normal] ∧
        ∀ order, order.Perm (f.selected fun x =>
            [20].contains x.id || some .normal == some x.template.category) →
          h.board.plain ≠ (g.board.addEach order).1.plain := by
  intro ctx normal f g b options e
  have hids : e.listedIds? = some [20] := by decide +kernel
  have hcategory : e.namedCategory? = some (some .normal) := by decide +kernel
  have hhandled : (ctx.dispatch e b).1 = true := by decide +kernel
  have htwice : ((ctx.dispatch e b).2.scene.active? ⟨1⟩).map (fun h => h.board.plain) =
      some [normal, normal] := by decide +kernel
  obtain ⟨h, hh, hboard⟩ := Option.map_eq_some_iff.mp htwice
  refine ⟨hids, hcategory, hhandled, h, hh, hboard, fun order horder => ?_⟩
  have hselected : (f.selected fun x =>
      [20].contains x.id || some .normal == some x.template.category) = [normal] := by decide
  -- One buff can be added in one order only.
  rw [hselected] at horder
  rw [hboard, List.perm_singleton.mp horder]
  decide

end PetDuel
