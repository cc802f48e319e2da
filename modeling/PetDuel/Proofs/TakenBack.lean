import PetDuel.Proofs.Course
import PetDuel.Proofs.Removals
import PetDuel.Proofs.Targets

/-!
Buffs that are added and taken back. Where nothing answers the coming and the leaving of buffs, the
removal of a number undoes the adding of a buff with that number, if no other buff had it and it is
not that of a marker: a buff that was turned away leaves nothing to remove, and one that came is the
only one to leave.
-/

namespace PetDuel

/-- The removal of a number that was new undoes the adding of a buff with it. -/
theorem BuffBoard.removeId_add {board : BuffBoard} {x : Buff} (hnew : board.contains x.id = false) :
    ((board.add x).1.removeId x.id).1 = board := by
  have hothers : board.active.filter (fun y => !(y.id == x.id)) = board.active :=
    List.filter_eq_self.mpr fun y hy => by
      rw [Bool.eq_false_iff.mpr (List.any_eq_false.mp hnew y hy), Bool.not_false]
  have hadd : (board.add x).1 = board ∨ (board.add x).1 = (board.push x).1 := by
    unfold add
    rw [hnew]
    split
    · exact .inl rfl
    · exact .inr rfl
  rcases hadd with hadd | hadd
  · rw [hadd, removeId, removeWhere, hothers]
  · rw [hadd, removeId, removeWhere, push, List.filter_append, hothers, List.filter_singleton,
      beq_self_eq_true]
    exact congrArg (fun active => { board with active }) (List.append_nil _)

/-- The removal of a number that is not that of a marker resets no stage. -/
theorem Deed.removeListed_singleton (ctx : Context) {n : Int32} (hn : markerOf? n = none)
    (f : Fighter) :
    (removeListed ctx [n] f).1 = (f.onBoard fun board => board.removeId n).1 := by
  have hchannels : markedChannels [n] = [] := by
    rw [markedChannels, List.filterMap_cons_none (by rw [hn]; rfl), List.filterMap_nil]
  have hlisted : (fun x : Buff => [n].contains x.id) = fun x => x.id == n := by
    funext x
    rw [List.contains_cons, List.contains_nil, Bool.or_false]
  unfold removeListed
  rw [hchannels, hlisted]
  rfl

section Dispatch

variable {ctx : Context} {b : Battle} {e : Effect} {n : Int32} {id : DuelistId} {f : Fighter}

/-- What an effect that adds a buff and is handled has done. -/
theorem Context.dispatch_addBuff (hcatalog : ∀ t ∈ ctx.catalog.buffs, t.Quiet)
    (hboards : ∀ f ∈ b.scene.fighters, ∀ x ∈ f.board.active, x.template.Quiet)
    (hability : e.ability = .addBuff) (hnumber : e.int? "id" "0" = some n)
    (hhandled : (ctx.dispatch e b).1 = true) :
    ∃ id x f, x.id = n ∧ b.scene.named? e "who" "me" = some id ∧ b.scene.active? id = some f ∧
      ctx.dispatch e b = (true, b.onScene fun s =>
        s.setActive id (f.onBoard fun board => board.add x).1) := by
  have hread : e.decide? ctx b.now = e.decideAddBuff ctx b.now := by
    unfold Effect.decide?
    rw [hability]
  cases hdecide : e.decide? ctx b.now with
  | none =>
    rw [dispatch_of_decide?_eq_none hdecide] at hhandled
    cases hhandled
  | some deed =>
    have hdeed := hread.symm.trans hdecide
    simp only [Effect.decideAddBuff, Option.bind_eq_bind, Option.bind_eq_some_iff] at hdeed
    obtain ⟨m, hm, t, ht, c, hc, turn, _, value, _, hdeed⟩ := hdeed
    cases hdeed
    -- An option is read to one number only.
    obtain rfl : m = n := Option.some.inj (hm.symm.trans hnumber)
    have hwalk := dispatch_eq_walk hcatalog hboards hdecide
    have hpossible : (b.scene.active? c.own.id).isSome = true := by
      rw [hwalk] at hhandled
      exact hhandled
    obtain ⟨f, hf⟩ := Option.isSome_iff_exists.mp hpossible
    refine ⟨c.own.id, .new t turn.toInt32 value.toInt32, f, (Catalog.buff?_cases ht).2,
      Effect.named?_of_scope? hc, hf, ?_⟩
    have hmove := Scene.walk_fighters hf
      [Fighter.onBoard fun board => board.add (.new t turn.toInt32 value.toInt32)]
    rw [hwalk]
    exact congrArg₂ (fun handled scene => (handled, { b with scene })) hpossible hmove

/-- What the removal of one number that is not that of a marker does. -/
theorem Context.dispatch_removeBuff (hcatalog : ∀ t ∈ ctx.catalog.buffs, t.Quiet)
    (hboards : ∀ f ∈ b.scene.fighters, ∀ x ∈ f.board.active, x.template.Quiet)
    (hability : e.ability = .removeBuffs) (hids : e.listedIds? = some [n])
    (hcategories : e.listedCategories? = some []) (hn : markerOf? n = none)
    (hnamed : b.scene.named? e "who" "me" = some id) (hf : b.scene.active? id = some f) :
    ctx.dispatch e b = (true, b.onScene fun s =>
      s.setActive id (f.onBoard fun board => board.removeId n).1) := by
  have hdecide := Effect.decide?_remove ctx b.now hability hids hcategories hnamed hf
  have hsteps : (Deed.removeBuffs id [] [n]).steps ctx =
      [Deed.removeListed ctx [n]].map (Step.fighter id) := Deed.removeSteps_eq ctx id [] [n]
  have hmove := Scene.walk_fighters hf [Deed.removeListed ctx [n]]
  rw [dispatch_eq_walk hcatalog hboards hdecide, hsteps, hmove,
    ← Deed.removeListed_singleton ctx hn]
  rfl

end Dispatch

/-- The duelist that an effect names depends on the numbers of the duelists alone. -/
theorem Scene.named?_congr {s t : Scene} (h : t.ids = s.ids) (e : Effect) (key default : String) :
    t.named? e key default = s.named? e key default := by
  have hown : t.own.id = s.own.id := congrArg Prod.fst h
  have hopposing : t.opposing.id = s.opposing.id := congrArg (fun ids => ids.2.1) h
  refine Option.bind_congr fun id _ => ?_
  cases Side.ofText (e.option key default) with
  | own =>
    unfold onSide? duelist?
    rw [hown, hopposing]
    split_ifs
    · exact congrArg some hown
    · exact congrArg some hopposing
    · rfl
  | opposing =>
    unfold onSide? rivalId?
    rw [hown, hopposing]

/-- In a quiet duel an effect that adds a buff with a new number, and is handled, is undone by an
effect that removes this number on the same side, whether the buff came or was turned away. -/
theorem added_buff_taken_back {ctx : Context} {b : Battle} {e r : Effect} {n : Int32}
    (hcatalog : ∀ t ∈ ctx.catalog.buffs, t.Quiet)
    (hboards : ∀ f ∈ b.scene.fighters, ∀ x ∈ f.board.active, x.template.Quiet)
    (hadd : e.ability = .addBuff) (hnumber : e.int? "id" "0" = some n)
    (hn : markerOf? n = none)
    (hnew : ∀ id f, b.scene.named? e "who" "me" = some id → b.scene.active? id = some f →
      f.board.contains n = false)
    (hhandled : (ctx.dispatch e b).1 = true)
    (hremove : r.ability = .removeBuffs) (hids : r.listedIds? = some [n])
    (hcategories : r.listedCategories? = some [])
    (hside : b.scene.named? r "who" "me" = b.scene.named? e "who" "me") :
    ctx.dispatch r (ctx.dispatch e b).2 = (true, b) := by
  obtain ⟨id, x, f, hx, hnamed, hf, hdispatch⟩ :=
    Context.dispatch_addBuff hcatalog hboards hadd hnumber hhandled
  -- The duel stays quiet, since the buff that came is of a template of the catalog.
  have hafterBoards : ∀ f ∈ (ctx.dispatch e b).2.scene.fighters, ∀ x ∈ f.board.active,
      x.template.Quiet := by
    have hbecomes := Battle.after_becomes_bearing (b := b)
      (BuffBoard.stable_kind fun _ t => t.Quiet) [(ctx, .dispatch e)] hboards
      (List.forall_mem_singleton.mpr fun _ t ht _ _ => hcatalog t (Catalog.buff?_cases ht).1)
    exact List.forall_mem_append.mpr
      ⟨hbecomes.licensed.own.fighters, hbecomes.licensed.opposing.fighters⟩
  -- The second effect finds the same side, as no effect changes the numbers of the duelists.
  have hids' : (ctx.dispatch e b).2.scene.ids = b.scene.ids :=
    (invariant_ids ctx _).dispatch trivial rfl
  have hnamed' : (ctx.dispatch e b).2.scene.named? r "who" "me" = some id := by
    rw [Scene.named?_congr hids', hside, hnamed]
  rw [hdispatch] at hafterBoards hnamed' ⊢
  have hactive := Scene.active?_setActive hf (f.onBoard fun board => board.add x).1
  have hrestored : (((f.onBoard fun board => board.add x).1).onBoard fun board =>
      board.removeId n).1 = f := by
    rw [← hx]
    have hnewId : f.board.contains x.id = false := hx ▸ hnew id f hnamed hf
    exact congrArg (fun board => { f with board }) (BuffBoard.removeId_add hnewId)
  have hscene : (b.scene.setActive id (f.onBoard fun board => board.add x).1).setActive id f =
      b.scene := by
    rw [Scene.setActive_setActive, Scene.setActive_self hf]
  rw [Context.dispatch_removeBuff hcatalog hafterBoards hremove hids hcategories hn hnamed' hactive,
    hrestored]
  exact congrArg (fun scene => (true, { b with scene })) hscene

/-- A buff for the other side, beside one that is there already, comes and is taken back. -/
theorem taken_back_from_opponent :
    let template : BuffTemplate := { (default : BuffTemplate) with id := 70, maxValue := 9 }
    let ctx : Context := ⟨{ Catalog.empty with buffs := [template] }, {}⟩
    let f := { (default : Fighter) with
      board := ⟨[.new { (default : BuffTemplate) with id := 20 } 2 0], [], []⟩ }
    let b := Battle.new (.new ⟨1⟩ [default] 0) (.new ⟨2⟩ [f] 0)
    let add := (Effect.new .attack .addBuff
      ⟨[("who", "op"), ("id", "70"), ("turn", "3"), ("value", "buff(20).turn*2")]⟩).actingFor ⟨1⟩
    let remove := (Effect.new .attack .removeBuffs ⟨[("who", "op"), ("id", "70")]⟩).actingFor ⟨1⟩
    (ctx.dispatch add b).1 = true ∧
      ((ctx.dispatch add b).2.scene.opposing.active?.map fun f => f.board.active.map Buff.value) =
        some [0, 4] ∧
      ctx.dispatch remove (ctx.dispatch add b).2 = (true, b) := by
  intro template ctx f b add remove
  have hcatalog : ∀ t ∈ ctx.catalog.buffs, t.Quiet := by decide
  have hboards : ∀ f ∈ b.scene.fighters, ∀ x ∈ f.board.active, x.template.Quiet := by
    decide +kernel
  have hnumber : add.int? "id" "0" = some 70 := by decide +kernel
  have hnew : ∀ id f, b.scene.named? add "who" "me" = some id → b.scene.active? id = some f →
      f.board.contains 70 = false := by
    rintro _ _ ⟨⟩ ⟨⟩
    decide +kernel
  have hhandled : (ctx.dispatch add b).1 = true := by decide +kernel
  have hids : remove.listedIds? = some [70] := by decide +kernel
  have hcategories : remove.listedCategories? = some [] := by decide +kernel
  exact ⟨hhandled, by decide +kernel, added_buff_taken_back hcatalog hboards rfl hnumber
    (by decide) hnew hhandled rfl hids hcategories rfl⟩

end PetDuel
