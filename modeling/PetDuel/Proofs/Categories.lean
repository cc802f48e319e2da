import PetDuel.Proofs.StagesShown

/-!
Markers and categories. The removal and the copying of buffs by category go by the category alone:
they take a marker away or bring one like any other buff, and leave its stage as it is.
-/

namespace PetDuel

theorem Scene.AllOut.shown {catalog : Catalog} {s : Scene}
    (h : s.AllOut (Fighter.InLine catalog)) : s.AllOut Fighter.ShowsStages :=
  ⟨fun f hf => (h.1 f hf).shows, fun f hf => (h.2 f hf).shows⟩

namespace Deed

def categoryOps (category : Category) : List (Fighter → Fighter × BuffChange) :=
  (Fighter.onBoard fun board => board.removeWhere fun x => x.template.category == category) ::
    if category = .turnBased then [Fighter.onBoard fun board => board.removeWhere isSweptMark]
    else []

def sweeps (categories : List Category) (x : Buff) : Bool :=
  categories.any fun category =>
    x.template.category == category || (category == .turnBased && isSweptMark x)

/-- The deed takes a marker from a fighter, or gives one to it, by its category and without its
stage. -/
def StrandsMarker (s : Scene) : Deed → Prop
  | .removeBuffs id categories ids => ∃ f, s.active? id = some f ∧ ∃ x ∈ f.board.active,
    sweeps categories x = true ∧ ∃ c raised, x.id = markerId c raised ∧ c ∉ markedChannels ids
  | .copyBuffs _ _ _ _ _ typed _ => ∃ x ∈ typed, (markerOf? x.id).isSome
  | _ => False

def swept (categories : List Category) (f : Fighter) : Fighter :=
  { f with board := (f.board.removeWhere (sweeps categories)).1 }

theorem categorySteps_eq (id : DuelistId) (category : Category) :
    categorySteps id category = (categoryOps category).map (Step.fighter id) := by
  unfold categorySteps categoryOps
  split <;> rfl

/-- The steps of a removal are changes of one fighter: a sweep for each category, and then the
removal of the listed numbers, if there are any. -/
theorem removeSteps_eq (ctx : Context) (id : DuelistId) (categories : List Category)
    (ids : List Int32) : removeSteps ctx id categories ids =
      (categories.flatMap categoryOps ++
        if ids.isEmpty then [] else [removeListed ctx ids]).map (Step.fighter id) := by
  have hsteps : categorySteps id = fun category => (categoryOps category).map (Step.fighter id) :=
    funext (categorySteps_eq id)
  rw [removeSteps, List.map_append, List.map_flatMap, hsteps]
  split <;> rfl

theorem swept_swept (ks ls : List Category) (f : Fighter) :
    swept ls (swept ks f) = swept (ks ++ ls) f := by
  have hfilter : (f.board.active.filter fun x => !sweeps ks x).filter (fun x => !sweeps ls x) =
      f.board.active.filter fun x => !sweeps (ks ++ ls) x := by
    rw [List.filter_filter]
    refine List.filter_congr fun x _ => ?_
    simp only [sweeps, List.any_append, Bool.not_or, Bool.and_comm]
  exact congrArg (fun active => { f with board := { f.board with active } }) hfilter

theorem swept_nil (f : Fighter) : swept [] f = f := by
  have hfilter : f.board.active.filter (fun x => !sweeps [] x) = f.board.active :=
    List.filter_eq_self.mpr fun _ _ => rfl
  exact congrArg (fun active => { f with board := { f.board with active } }) hfilter

/-- The changes that the removal of a category makes are a sweep of it. -/
theorem through_categoryOps (category : Category) (f : Fighter) :
    f.through (categoryOps category) = swept [category] f := by
  unfold categoryOps
  split
  · rename_i hturn
    have hfilter : (f.board.active.filter fun x => !(x.template.category == category)).filter
        (fun x => !isSweptMark x) = f.board.active.filter fun x => !sweeps [category] x := by
      rw [List.filter_filter]
      refine List.filter_congr fun x _ => ?_
      simp only [sweeps, List.any_cons, List.any_nil, hturn, beq_self_eq_true, Bool.true_and,
        Bool.or_false, Bool.not_or, Bool.and_comm]
    exact congrArg (fun active => { f with board := { f.board with active } }) hfilter
  · rename_i hother
    have hfilter : f.board.active.filter (fun x => !(x.template.category == category)) =
        f.board.active.filter fun x => !sweeps [category] x := by
      refine List.filter_congr fun x _ => ?_
      simp only [sweeps, List.any_cons, List.any_nil, beq_false_of_ne hother, Bool.false_and,
        Bool.or_false]
    exact congrArg (fun active => { f with board := { f.board with active } }) hfilter

/-- The removal of several categories is one sweep of them all. -/
theorem through_flatMap_categoryOps (categories : List Category) (f : Fighter) :
    f.through (categories.flatMap categoryOps) = swept categories f := by
  induction categories generalizing f with
  | nil => exact (swept_nil f).symm
  | cons category categories ih =>
    have happend : f.through ((category :: categories).flatMap categoryOps) =
        (f.through (categoryOps category)).through (categories.flatMap categoryOps) :=
      List.foldl_append
    rw [happend, ih, through_categoryOps, swept_swept, List.singleton_append]

variable {ctx : Context} {b : Battle} {f : Fighter} {id : DuelistId} {categories : List Category}
  {ids : List Int32} {c : StageChannel}

/-- A sweep takes buffs away and does nothing else, so the stages of a fighter can still be shown.
-/
theorem keeps_categoryOps (catalog : Catalog) (categories : List Category) :
    ∀ op ∈ categories.flatMap categoryOps, Fighter.Keeps catalog op := by
  have hremove (p : Buff → Bool) :
      Fighter.Keeps catalog (Fighter.onBoard fun board => board.removeWhere p) :=
    fun f hf => hf.onBoard (hf.genuine.removeWhere p)
  refine List.forall_mem_flatMap.mpr fun category _ => List.forall_mem_cons.mpr ⟨hremove _, ?_⟩
  split
  · exact List.forall_mem_singleton.mpr (hremove _)
  · exact List.forall_mem_nil _

def removed (ctx : Context) (categories : List Category) (ids : List Int32) (f : Fighter) :
    Fighter :=
  if ids.isEmpty then swept categories f else (removeListed ctx ids (swept categories f)).1

theorem swept_marked {catalog : Catalog} (hf : f.Marked catalog) (categories : List Category) :
    (swept categories f).Marked catalog :=
  ⟨hf.limit, hf.bounds, (hf.genuine.removeWhere _).active⟩

/-- Channels whose markers are not listed are as the categories leave them. -/
theorem sameAt_removed (hcatalog : ctx.catalog.MarksStages) (hf : f.Marked ctx.catalog)
    (categories : List Category) (hc : c ∉ markedChannels ids) :
    Fighter.SameAt c (swept categories f) (removed ctx categories ids f) := by
  unfold removed
  split
  · exact .refl c _
  · exact (removeListed_spec hcatalog (swept_marked hf categories) ids).2.1 c hc

/-- Fewer values are left of a number when one of its buffs is swept away. -/
theorem valuesOf_swept_ne {x : Buff} (hx : x ∈ f.board.active)
    (hswept : sweeps categories x = true) :
    (swept categories f).board.valuesOf x.id ≠ f.board.valuesOf x.id := by
  intro hsame
  have hfilter : (f.board.active.filter fun y => !sweeps categories y).filter
      (fun y => y.id == x.id) = (f.board.active.filter fun y => y.id == x.id).filter
        fun y => !sweeps categories y := by
    rw [List.filter_filter, List.filter_filter]
    exact List.filter_congr fun y _ => Bool.and_comm _ _
  have hlength := congrArg List.length hsame
  change (((f.board.active.filter fun y => !sweeps categories y).filter
      fun y => y.id == x.id).map fun y => y.value.toInt).length =
    ((f.board.active.filter fun y => y.id == x.id).map fun y => y.value.toInt).length at hlength
  rw [List.length_map, List.length_map, hfilter] at hlength
  have hkept := List.length_filter_eq_length_iff.mp hlength x
    (List.mem_filter.mpr ⟨hx, beq_self_eq_true x.id⟩)
  rw [hswept] at hkept
  cases hkept

/-- After a removal the stages are shown exactly when every marker that went by its category was
also listed by its number, itself or the other one of its channel. -/
theorem removed_showsStages_iff (hcatalog : ctx.catalog.MarksStages)
    (hf : f.InLine ctx.catalog) : (removed ctx categories ids f).ShowsStages ↔
      ∀ x ∈ f.board.active, sweeps categories x = true →
        ∀ c raised, x.id = markerId c raised → c ∈ markedChannels ids := by
  constructor
  · intro hshows x hx hswept c raised hid
    -- A channel that is not listed keeps its stage, and so it must keep all values of its marker.
    refine Decidable.byContradiction fun hc => valuesOf_swept_ne hx hswept ?_
    have hsame := sameAt_removed hcatalog hf.toMarked categories hc
    have hafter := hshows c raised
    rw [hsame.values, hsame.stage] at hafter
    rw [hid]
    exact hafter.trans (hf.shows c raised).symm
  · intro hlisted c
    by_cases hc : c ∈ markedChannels ids
    · -- The channel is listed, and so there are numbers, which reset it after the sweep.
      have hids : ids.isEmpty = false := by
        obtain ⟨raised, hmem⟩ := mem_markedChannels.mp hc
        exact List.isEmpty_eq_false_iff_exists_mem.mpr ⟨_, hmem⟩
      have hremoved : removed ctx categories ids f =
          (removeListed ctx ids (swept categories f)).1 := by
        rw [removed, hids]
        rfl
      rw [hremoved]
      exact (removeListed_spec hcatalog (swept_marked hf.toMarked categories) ids).2.2 c hc
    · -- Of a channel that is not listed no marker was swept away.
      have hspared : Fighter.SameAt c f (swept categories f) := by
        refine ⟨rfl, fun raised => BuffBoard.valuesOf_removeWhere_of_spared fun x hx hid => ?_⟩
        exact Bool.eq_false_iff.mpr fun hswept => hc (hlisted x hx hswept c raised hid)
      exact (hspared.trans (sameAt_removed hcatalog hf.toMarked categories hc)).shows (hf.shows c)

/-- The changes of a removal make of a fighter what is left of it. -/
theorem through_removeOps (ctx : Context) (categories : List Category) (ids : List Int32)
    (f : Fighter) : f.through (categories.flatMap categoryOps ++
      if ids.isEmpty then [] else [removeListed ctx ids]) = removed ctx categories ids f := by
  rw [Fighter.through_append, through_flatMap_categoryOps]
  unfold removed
  split <;> rfl

/-- As long as nothing answers the leaving of buffs, a removal is one change of the fighter that is
out. -/
theorem play_removeSteps (hcatalog : ctx.catalog.MarksStages) {d : Duelist}
    (hd : b.scene.duelist? id = some d) (hactive : d.active? = some f)
    (hf : f.Marked ctx.catalog) (categories : List Category) (ids : List Int32) :
    b.play ctx.answer (removeSteps ctx id categories ids) =
      b.update id fun _ => d.setActive (removed ctx categories ids f) := by
  rw [removeSteps_eq, Battle.play_fighters_eq hd hactive hf ?_, through_removeOps]
  refine List.forall_mem_append.mpr ⟨keeps_categoryOps ctx.catalog categories, ?_⟩
  split
  · exact List.forall_mem_nil _
  · exact List.forall_mem_singleton.mpr fun f hf => (removeListed_spec hcatalog hf ids).1

/-- After a removal all stages are shown exactly when it takes no marker by its category alone. -/
theorem removed_iff_not_stranded (hcatalog : ctx.catalog.MarksStages)
    (hall : b.scene.AllOut (Fighter.InLine ctx.catalog)) (hsome : (b.scene.active? id).isSome) :
    (b.play ctx.answer ((removeBuffs id categories ids).steps ctx)).scene.AllOut
      Fighter.ShowsStages ↔ ¬(removeBuffs id categories ids).StrandsMarker b.scene := by
  obtain ⟨f, hout⟩ := Option.isSome_iff_exists.mp hsome
  obtain ⟨d, hd, hactive⟩ := Option.bind_eq_some_iff.mp hout
  have hf : f.InLine ctx.catalog := hall.active? hout
  have hplay : b.play ctx.answer ((removeBuffs id categories ids).steps ctx) =
      b.update id fun _ => d.setActive (removed ctx categories ids f) :=
    play_removeSteps hcatalog hd hactive hf.toMarked categories ids
  -- The other fighter is as it was, so only the one that is changed can hide a stage.
  have hafter := hall.shown.update_iff (e := d.setActive (removed ctx categories ids f)) hd
  simp only [Duelist.active?_setActive hactive, Option.some.injEq, forall_eq',
    removed_showsStages_iff hcatalog hf] at hafter
  rw [hplay]
  refine hafter.trans ⟨fun hlisted hstrands => ?_, fun hnot x hx hswept c raised hid => ?_⟩
  · obtain ⟨g, hg, x, hx, hswept, c, raised, hid, hc⟩ := hstrands
    cases hout.symm.trans hg
    exact hc (hlisted x hx hswept c raised hid)
  · exact Decidable.byContradiction fun hc =>
      hnot ⟨f, hout, x, hx, hswept, c, raised, hid, hc⟩

end Deed

/-- A removal by category and number keeps the stages shown exactly when it strands no marker, and a
copy does when it strands none. -/
theorem shown_iff_not_stranded {ctx : Context} {b : Battle} {e : Effect}
    (hcatalog : ctx.catalog.MarksStages) (hall : b.scene.AllOut (Fighter.InLine ctx.catalog))
    (hfits : ∀ deed, e.decide? ctx b.now = some deed → deed.StagesFit b.scene) :
    (e.ability = .removeBuffs → ((ctx.dispatch e b).2.scene.AllOut Fighter.ShowsStages ↔
        ∀ deed, e.decide? ctx b.now = some deed → ¬deed.StrandsMarker b.scene)) ∧
      (e.ability = .copyBuffs →
        (∀ deed, e.decide? ctx b.now = some deed → ¬deed.StrandsMarker b.scene) →
        (ctx.dispatch e b).2.scene.AllOut Fighter.ShowsStages) := by
  rw [Context.dispatch, ctx.dispatchWith_snd ctx.answer_idle]
  cases hdecide : e.decide? ctx b.now with
  | none =>
    have hnothing : ∀ deed : Deed, none = some deed → ¬deed.StrandsMarker b.scene := by
      intro deed h
      cases h
    exact ⟨fun _ => ⟨fun _ => hnothing, fun _ => hall.shown⟩, fun _ _ => hall.shown⟩
  | some deed =>
    have hfit := hfits deed hdecide
    unfold Effect.decide? at hdecide
    simp only [Option.some.injEq, forall_eq']
    refine ⟨fun hability => ?_, fun hability hplain => ?_⟩
    · rw [hability] at hdecide
      obtain ⟨id, categories, ids, _, hsome, rfl⟩ := of_decideRemove hdecide
      exact Deed.removed_iff_not_stranded hcatalog hall hsome
    · rw [hability] at hdecide
      obtain ⟨source, target, f, category, listed, stages, drained, transfer, hf, _, hlisted,
        rfl⟩ := of_decideCopy hdecide
      have hsource := hall.active? hf
      refine (inLine_copy hcatalog hall (fun x hx => ?_) (fun x hx => ?_) drained transfer
        hfit).shown
      · exact ⟨hsource.genuine x (hlisted x hx).1, (hlisted x hx).2⟩
      · refine ⟨hsource.genuine x (List.mem_filter.mp hx).1, ?_⟩
        exact Option.not_isSome_iff_eq_none.mp fun hmarker => hplain ⟨x, hx, hmarker⟩

/-- Ailments are no markers, and their removal leaves a raised attack shown. -/
theorem shown_after_removing_ailments :
    let ctx : Context := ⟨.plainMarkers, {}⟩
    let b := Battle.new (.new ⟨1⟩ [.raisedByOne] 0) (.new ⟨2⟩ [] 0)
    let e := (Effect.new .attack .removeBuffs ⟨[("type", "Unhealthy/Abnormal")]⟩).actingFor ⟨1⟩
    ctx.catalog.MarksStages ∧ b.scene.AllOut (Fighter.InLine ctx.catalog) ∧
      (∀ deed, e.decide? ctx b.now = some deed → deed.StagesFit b.scene) ∧
      e.ability = .removeBuffs ∧ (ctx.dispatch e b).2.scene.AllOut Fighter.ShowsStages := by
  intro ctx b e
  have hcatalog := Catalog.plainMarkers_marksStages
  have hdecide : e.decide? ctx b.now = some (.removeBuffs ⟨1⟩ [.unhealthy, .abnormal] []) := by
    decide +kernel
  have hfits : ∀ deed, e.decide? ctx b.now = some deed → deed.StagesFit b.scene := by
    intro deed hdeed
    cases hdecide.symm.trans hdeed
    trivial
  have hnot : ∀ deed, e.decide? ctx b.now = some deed → ¬deed.StrandsMarker b.scene := by
    intro deed hdeed
    cases hdecide.symm.trans hdeed
    rintro ⟨f, hf, x, hx, hswept, _⟩
    cases hf
    cases List.mem_singleton.mp hx
    cases hswept
  exact ⟨hcatalog, inLine_of_raisedByOne, hfits, rfl,
    ((shown_iff_not_stranded hcatalog inLine_of_raisedByOne hfits).1 rfl).mpr hnot⟩

/-- Removing the category of the markers takes the marker of a raised attack and leaves the attack
raised, although nothing is blocked. -/
theorem raised_attack_not_shown :
    let ctx : Context := ⟨.plainMarkers, {}⟩
    let b := Battle.new (.new ⟨1⟩ [.raisedByOne] 0) (.new ⟨2⟩ [] 0)
    let e := (Effect.new .attack .removeBuffs ⟨[("type", "Normal")]⟩).actingFor ⟨1⟩
    ctx.catalog.MarksStages ∧ b.scene.AllOut (Fighter.InLine ctx.catalog) ∧
      (∀ id, Fighter.raisedByOne.board.isBlocked id = false) ∧
      (ctx.dispatch e b).1 = true ∧ ¬(ctx.dispatch e b).2.scene.AllOut Fighter.ShowsStages := by
  intro ctx b e
  refine ⟨Catalog.plainMarkers_marksStages, inLine_of_raisedByOne, fun _ => rfl, ?_, fun h => ?_⟩
  · decide +kernel
  · have hafter : (ctx.dispatch e b).2.scene.own.active? =
        some { Fighter.raisedByOne with board := ⟨[], [], []⟩ } := by
      decide +kernel
    have hshown := h.1 _ hafter .attack true
    cases hshown

end PetDuel
