import PetDuel.Proofs.Bounds
import PetDuel.Proofs.Refusal

/-!
How many active buffs of a fighter have one number. Writing buffs again keeps the count, and only a
buff that joins the others raises it; but such a buff comes past the blocks, and past its policy
when there is one with its number already.
-/

namespace PetDuel

def BuffBoard.instances (board : BuffBoard) (id : Int32) : Nat :=
  board.active.countP fun x => x.id == id

theorem Buff.countP_of_rewritten {xs ys : List Buff} (h : List.Forall₂ Buff.Rewritten xs ys)
    (id : Int32) : ys.countP (fun y => y.id == id) = xs.countP fun x => x.id == id := by
  induction h with
  | nil => rfl
  | cons hxy _ ih => rw [List.countP_cons, List.countP_cons, ih, hxy.id]

namespace BuffBoard

variable {B : Buff → Prop} {board board' : BuffBoard} {id : Int32}

theorem instances_eq_zero (h : board.contains id = false) : board.instances id = 0 :=
  List.countP_eq_zero.mpr (List.any_eq_false.mp h)

/-- A change of a board that adds to the buffs with a number is the coming of one of them. -/
theorem Change.instances_cases (h : board.Change B board') (id : Int32) :
    board'.instances id ≤ board.instances id ∨
      ∃ x, B x ∧ x.id = id ∧ board.isBlocked id = false ∧
        (board.contains id = true → x.template.policy = .append) ∧
        board'.instances id = board.instances id + 1 := by
  cases h with
  | leave bs hsub => exact Or.inl hsub.countP_le
  | rewrite bs hbs => exact Or.inl (Nat.le_of_eq (Buff.countP_of_rewritten hbs id))
  | join x hx hfree hpolicy =>
    have hcount : (board.active ++ [x]).countP (fun y => y.id == id) =
        board.instances id + if x.id == id then 1 else 0 := by
      rw [List.countP_append, List.countP_singleton]
      rfl
    by_cases hid : x.id = id
    · subst hid
      refine Or.inr ⟨x, hx, rfl, hfree, hpolicy, hcount.trans ?_⟩
      rw [beq_self_eq_true, if_pos rfl]
    · refine Or.inl (Nat.le_of_eq (hcount.trans ?_))
      rw [beq_eq_false_iff_ne.mpr hid]
      rfl

end BuffBoard

/-- A buff with the number of its template and a value within the template's bounds. -/
structure Buff.WellFormed (x : Buff) : Prop where
  id : x.id = x.template.id
  low : x.template.minValue ≤ x.value
  high : x.value ≤ max x.template.minValue x.template.maxValue

namespace Buff

theorem wellFormed_new (t : BuffTemplate) (turn value : Int32) :
    (Buff.new t turn value).WellFormed :=
  ⟨rfl, (bounded_mem t.minValue t.maxValue value).1, (bounded_mem t.minValue t.maxValue value).2⟩

/-- A buff that is written again keeps within the bounds of its template, for a value is written
through them. -/
theorem stable_wellFormed : Buff.Stable WellFormed := by
  intro x y hxy hx
  have hvalue : y.template.minValue ≤ y.value ∧
      y.value ≤ max y.template.minValue y.template.maxValue := by
    rw [hxy.template]
    rcases hxy.value with hsame | ⟨n, hn⟩
    · rw [hsame]
      exact ⟨hx.low, hx.high⟩
    · rw [hn]
      exact bounded_mem x.template.minValue x.template.maxValue n
  refine ⟨?_, hvalue.1, hvalue.2⟩
  rw [hxy.id, hxy.template]
  exact hx.id

def Single (id : Int32) (x : Buff) : Prop := x.id = id → x.template.policy ≠ .append

theorem stable_single (id : Int32) : Buff.Stable (Single id) := by
  intro x y hxy hx hid
  rw [hxy.template]
  exact hx (hxy.id ▸ hid)

end Buff

namespace Fighter

variable {L : Licence} {f g : Fighter} {id : Int32}

/-- One change leaves at most one instance of such a number. An append beside another instance takes
a policy that allows it, and no such buff may be borne. -/
theorem Change.instances_le_one (hL : ∀ x, L.bears x → x.Single id) (h : f.Change L g)
    (hf : f.board.instances id ≤ 1) : g.board.instances id ≤ 1 := by
  cases h with
  | board board hboard =>
    rcases hboard.instances_cases id with hle | ⟨x, hx, hid, _, hpolicy, hcount⟩
    · exact Nat.le_trans hle hf
    · -- The policy of the newcomer would have turned it away from another instance.
      have hnone : f.board.contains id = false :=
        Bool.eq_false_iff.mpr fun hcontains => hL x hx hid (hpolicy hcontains)
      have hzero := BuffBoard.instances_eq_zero hnone
      change board.instances id ≤ 1
      omega
  | _ => exact hf

theorem Changes.instances_le_one (hL : ∀ x, L.bears x → x.Single id) (h : f.Changes L g)
    (hf : f.board.instances id ≤ 1) : g.board.instances id ≤ 1 := by
  induction h with
  | refl => exact hf
  | tail _ hlast ih => exact hlast.instances_le_one hL ih

end Fighter

/-- Under one catalog, whatever is done to a duel, buffs that have the numbers of their templates
and values within the bounds keep both; and a number whose templates all refuse to stand beside
another instance never has two on one fighter, if it has not at the start. -/
theorem boards_stay_sound (b : Battle) (catalog : Catalog) (events : List (Context × Event))
    (hcatalog : ∀ step ∈ events, step.1.catalog = catalog) :
    ((∀ f ∈ b.scene.fighters, ∀ x ∈ f.board.active, x.WellFormed) →
      ∀ f ∈ (b.after events).scene.fighters, ∀ x ∈ f.board.active, x.WellFormed) ∧
    ∀ id, (∀ t, catalog.buff? id = some t → t.policy ≠ .append) →
      (∀ f ∈ b.scene.fighters, ∀ x ∈ f.board.active, x.id = id → x.template.policy ≠ .append) →
      (∀ f ∈ b.scene.fighters, f.board.instances id ≤ 1) →
      ∀ f ∈ (b.after events).scene.fighters, f.board.instances id ≤ 1 := by
  constructor
  · intro hstart g hg
    have hcourse := Battle.after_becomes_bearing Buff.stable_wellFormed events hstart
      fun _ _ _ t _ turn value => Buff.wellFormed_new t turn value
    obtain ⟨f, hf, hchanges⟩ := forall₂_exists_of_mem hcourse.fighters hg
    exact hchanges.bears (hstart f hf)
  · intro id hpolicy hsingle hone g hg
    -- What the catalog adds under the number refuses to stand beside another instance.
    have hcontent : ∀ step ∈ events, ∀ n t, step.1.catalog.buff? n = some t →
        ∀ turn value, (Buff.new t turn value).Single id := by
      intro step hstep n t ht turn value hid
      rw [hcatalog step hstep] at ht
      have hn : t.id = n := (Catalog.buff?_cases ht).2
      exact hpolicy t (hn.symm.trans hid ▸ ht)
    have hcourse := Battle.after_becomes_bearing (Buff.stable_single id) events hsingle hcontent
    obtain ⟨f, hf, hchanges⟩ := forall₂_exists_of_mem hcourse.fighters hg
    exact hchanges.instances_le_one (fun _ hx => hx) (hone f hf)

def BuffTemplate.stacking : BuffTemplate :=
  { id := 20, icon := 0, name := "Stacking", category := .mark, policy := .stack, turn := -1
    keep := true, inherit := false, hidden := false, autoRemove := false, minValue := 0
    maxValue := 5, description := "", options := .empty, effects := [] }

/-- Two buffs that add up become one, with the highest value that it can have. -/
theorem stacked_buffs_become_one :
    let catalog : Catalog := ⟨[.stacking], [], []⟩
    let b := Battle.new (.new ⟨1⟩ [.new .ofTenHp {}] 0) (.new ⟨2⟩ [] 0)
    let add := (Effect.new .attack .addBuff ⟨[("id", "20"), ("value", "3")]⟩).actingFor ⟨1⟩
    let events : List (Context × Event) :=
      [(⟨catalog, {}⟩, .dispatch add), (⟨catalog, {}⟩, .dispatch add)]
    (∀ step ∈ events, step.1.catalog = catalog) ∧
      (∀ f ∈ b.scene.fighters, ∀ x ∈ f.board.active, x.WellFormed) ∧
      (∀ t, catalog.buff? 20 = some t → t.policy ≠ .append) ∧
      (∀ f ∈ b.scene.fighters, ∀ x ∈ f.board.active, x.id = 20 → x.template.policy ≠ .append) ∧
      (∀ f ∈ b.scene.fighters, f.board.instances 20 ≤ 1) ∧
      (∀ f ∈ (b.after events).scene.fighters, ∀ x ∈ f.board.active, x.WellFormed) ∧
      (∀ f ∈ (b.after events).scene.fighters, f.board.instances 20 ≤ 1) ∧
      (b.after events).scene.fighters.map (fun f => f.board.active.map Buff.value) = [[5]] := by
  intro catalog b add events
  have hcatalog : ∀ step ∈ events, step.1.catalog = catalog := by
    refine List.forall_mem_cons.mpr ⟨rfl, List.forall_mem_singleton.mpr rfl⟩
  have hwell : ∀ f ∈ b.scene.fighters, ∀ x ∈ f.board.active, x.WellFormed :=
    List.forall_mem_singleton.mpr (List.forall_mem_nil _)
  have hpolicy : ∀ t, catalog.buff? 20 = some t → t.policy ≠ .append := by
    intro t ht
    cases ht
    decide
  have hsingle : ∀ f ∈ b.scene.fighters, ∀ x ∈ f.board.active,
      x.id = 20 → x.template.policy ≠ .append :=
    List.forall_mem_singleton.mpr (List.forall_mem_nil _)
  have hone : ∀ f ∈ b.scene.fighters, f.board.instances 20 ≤ 1 :=
    List.forall_mem_singleton.mpr (Nat.zero_le 1)
  obtain ⟨hwell', hone'⟩ := boards_stay_sound b catalog events hcatalog
  refine ⟨hcatalog, hwell, hpolicy, hsingle, hone, hwell' hwell, ?_, ?_⟩
  · exact hone' 20 hpolicy hsingle hone
  · decide +kernel

namespace BuffBoard

variable {board : BuffBoard} {id n : Int32}

theorem mem_insertId_of_mem {ns : List Int32} (h : n ∈ ns) : n ∈ insertId id ns := by
  induction ns with
  | nil => cases h
  | cons m ns ih =>
    unfold insertId
    split
    · exact List.mem_cons_of_mem id h
    · split
      · exact h
      · rcases List.mem_cons.mp h with rfl | hrest
        · exact List.mem_cons_self
        · exact List.mem_cons_of_mem m (ih hrest)

/-- A further block leaves what is blocked already. -/
theorem isBlocked_block (h : board.isBlocked id = true) (ids : List Int32)
    (ranges : List (Int32 × Int32)) :
    ((board.block ids).blockRanges ranges).isBlocked id = true := by
  have hids (ids ns : List Int32) (hmem : id ∈ ns) :
      id ∈ ids.foldl (fun ns n => insertId n ns) ns := by
    induction ids generalizing ns with
    | nil => exact hmem
    | cons n ids ih => exact ih (insertId n ns) (mem_insertId_of_mem hmem)
  rcases Bool.or_eq_true_iff.mp h with hmem | hrange
  · have hblocked := hids ids board.blockedIds (List.contains_iff_mem.mp hmem)
    exact Bool.or_eq_true_iff.mpr (Or.inl (List.contains_iff_mem.mpr hblocked))
  · refine Bool.or_eq_true_iff.mpr (Or.inr ?_)
    change (board.blockedRanges ++ ranges.map ordered).any _ = true
    rw [List.any_append, hrange, Bool.true_or]

/-- A blocked number is turned away, and nothing happens. -/
theorem add_of_isBlocked {x : Buff} (h : board.isBlocked x.id = true) :
    board.add x = (board, .none) := if_pos h

end BuffBoard

def Licence.keepingBlocks : Licence :=
  .only (fun a o => ¬(a = .blockBuffs ∧ o.getD "op" "+" = "-")) fun h => Ability.noConfusion h.1

theorem Licence.not_unblocks_keepingBlocks : ¬Licence.keepingBlocks.Unblocks :=
  fun ⟨_, hfires, hop⟩ => hfires ⟨rfl, hop⟩

/-- From one moment to another a number that is blocked on a fighter stays blocked, and no more of
its active buffs have it. -/
def Fighter.StaysBlocked (id : Int32) (f g : Fighter) : Prop :=
  f.board.isBlocked id = true →
    g.board.isBlocked id = true ∧ g.board.instances id ≤ f.board.instances id

def Scene.Slotwise (R : Fighter → Fighter → Prop) (s t : Scene) : Prop :=
  List.Forall₂ R s.own.team.fighters t.own.team.fighters ∧
    List.Forall₂ R s.opposing.team.fighters t.opposing.team.fighters

namespace Fighter

variable {L : Licence} {f g : Fighter}

/-- Where no block may be lifted, one change leaves what is blocked blocked, and no buff with the
number joins. -/
theorem Change.staysBlocked (hL : ¬L.Unblocks) (h : f.Change L g) (id : Int32) :
    f.StaysBlocked id g := by
  intro hblocked
  cases h with
  | block ids ranges => exact ⟨BuffBoard.isBlocked_block hblocked ids ranges, Nat.le_refl _⟩
  | unblock ids ranges hlifts => exact absurd hlifts hL
  | board board hboard =>
    refine ⟨(hboard.isBlocked id).trans hblocked, ?_⟩
    rcases hboard.instances_cases id with hle | ⟨x, _, _, hfree, _⟩
    · exact hle
    · cases hblocked.symm.trans hfree
  | pet | hp | anger | stage | grow => exact ⟨hblocked, Nat.le_refl _⟩

/-- Any number of changes leave what is blocked blocked, where no block may be lifted. -/
theorem Changes.staysBlocked (hL : ¬L.Unblocks) (h : f.Changes L g) (id : Int32) :
    f.StaysBlocked id g := by
  intro hblocked
  induction h with
  | refl => exact ⟨hblocked, Nat.le_refl _⟩
  | tail _ hlast ih =>
    obtain ⟨hstill, hle⟩ := ih
    obtain ⟨hnow, hle'⟩ := hlast.staysBlocked hL id hstill
    exact ⟨hnow, Nat.le_trans hle' hle⟩

end Fighter

theorem Scene.Becomes.slotwise {L : Licence} {s t : Scene} (h : s.Becomes L t)
    {R : Fighter → Fighter → Prop} (hR : ∀ f g : Fighter, f.Changes L g → R f g) :
    s.Slotwise R t :=
  ⟨h.own.fighters.imp hR, h.opposing.fighters.imp hR⟩

theorem Battle.after_append (b : Battle) (events later : List (Context × Event)) :
    b.after (events ++ later) = (b.after events).after later := List.foldl_append

/-- The adding of a buff that is blocked on its fighter is handled, and changes nothing. -/
theorem Effect.dispatch_addBuff_of_isBlocked {ctx : Context} {e : Effect} {b : Battle}
    {id : DuelistId} {x : Buff} {f : Fighter} (h : e.decide? ctx b.now = some (.addBuff id x))
    (hf : b.scene.active? id = some f) (hblocked : f.board.isBlocked x.id = true) :
    ctx.dispatch e b = (true, b) := by
  obtain ⟨d, hd, hactive⟩ := Option.bind_eq_some_iff.mp hf
  have hsame : b.scene.setActive id f = b.scene := by
    rw [Scene.setActive, Scene.update_of_duelist?_eq_some hd, Duelist.setActive_self hactive,
      Scene.update_self hd]
  rw [Context.dispatch_of_decide?_eq_some h]
  change b.changeActive ctx.answer id (Fighter.onBoard fun board => board.add x) = (true, b)
  simp only [Battle.changeActive, hf, Fighter.onBoard, BuffBoard.add_of_isBlocked hblocked]
  rw [ctx.answer_idle, Battle.onScene, hsame]

/-- Blocks are airtight. As long as no effect is at work that lifts blocks, a number that is blocked
on a fighter stays blocked there, and from any moment on no more of its buffs have it; and an effect
that would add such a buff, and has its operands evaluated, is handled without any change. -/
theorem blocks_hold (b : Battle) (id : Int32) :
    (b.scene.Licensed .keepingBlocks → ∀ events later : List (Context × Event),
      (∀ step ∈ events ++ later,
        step.1.catalog.Licensed .keepingBlocks ∧ step.2.Licensed .keepingBlocks) →
      (b.after events).scene.Slotwise (Fighter.StaysBlocked id) (b.after (events ++ later)).scene) ∧
    ∀ (ctx : Context) (e : Effect) (t : BuffTemplate) (c : Operand.Scope) (f : Fighter)
      (turn value : Double), e.ability = .addBuff → e.int? "id" "0" = some id →
      ctx.catalog.buff? id = some t → b.now.scope? e = some c → c.own.active? = some f →
      e.operand? c "turn" "-1" = some turn → e.operand? c "value" "0" = some value →
      f.board.isBlocked id = true → ctx.dispatch e b = (true, b) := by
  constructor
  · intro hb events later hevents
    obtain ⟨hfirst, hrest⟩ := List.forall_mem_append.mp hevents
    have hcourse := Battle.after_becomes hb hfirst
    have hlater := Battle.after_becomes hcourse.licensed hrest
    rw [Battle.after_append]
    exact hlater.slotwise fun f g h => h.staysBlocked Licence.not_unblocks_keepingBlocks id
  · intro ctx e t c f turn value hability hid ht hc hf hturn hvalue hblocked
    -- The options can be read, so the effect comes to its deed, and only then is the buff turned
    -- away.
    have hdecide : e.decide? ctx b.now =
        some (.addBuff c.own.id (.new t turn.toInt32 value.toInt32)) := by
      simp only [Effect.decide?, hability, Effect.decideAddBuff, hid, ht, hc, hturn, hvalue,
        Option.bind_eq_bind, Option.bind_some]
      rfl
    have hactive : b.scene.active? c.own.id = some f :=
      (Scene.active?_of_duelist? (Moment.duelist?_of_scope? hc)).trans hf
    have hnumber : (Buff.new t turn.toInt32 value.toInt32).id = id := (Catalog.buff?_cases ht).2
    exact Effect.dispatch_addBuff_of_isBlocked hdecide hactive (hnumber ▸ hblocked)

/-- A buff that a range blocks is turned away, and stays away when the turn ends. -/
theorem blocked_by_range :
    let catalog : Catalog := ⟨[.stacking], [], []⟩
    let f := { Fighter.new .ofTenHp {} with board := BuffBoard.empty.blockRanges [(10, 30)] }
    let b := Battle.new (.new ⟨1⟩ [f] 0) (.new ⟨2⟩ [] 0)
    let add := (Effect.new .attack .addBuff ⟨[("id", "20")]⟩).actingFor ⟨1⟩
    let events : List (Context × Event) := [(⟨catalog, {}⟩, .dispatch add)]
    let later : List (Context × Event) := [(⟨catalog, {}⟩, .endTurn)]
    b.scene.Licensed .keepingBlocks ∧
      (∀ step ∈ events ++ later,
        step.1.catalog.Licensed .keepingBlocks ∧ step.2.Licensed .keepingBlocks) ∧
      f.board.isBlocked 20 = true ∧
      (b.after events).scene.Slotwise (Fighter.StaysBlocked 20)
        (b.after (events ++ later)).scene ∧
      (Context.mk catalog {}).dispatch add b = (true, b) := by
  intro catalog f b add events later
  have hb : b.scene.Licensed .keepingBlocks := by
    refine ⟨⟨?_, List.forall_mem_nil _⟩, ⟨List.forall_mem_nil _, List.forall_mem_nil _⟩⟩
    exact List.forall_mem_singleton.mpr (List.forall_mem_nil _)
  have hcatalog : catalog.Licensed .keepingBlocks := by
    refine ⟨fun id t ht _ _ => ?_, fun id s hs => ?_⟩
    · obtain rfl := List.mem_singleton.mp (Catalog.buff?_cases ht).1
      exact List.forall_mem_nil _
    · cases hs
  have hevents : ∀ step ∈ events ++ later,
      step.1.catalog.Licensed .keepingBlocks ∧ step.2.Licensed .keepingBlocks := by
    refine List.forall_mem_cons.mpr ⟨⟨hcatalog, fun h => Ability.noConfusion h.1⟩, ?_⟩
    exact List.forall_mem_singleton.mpr ⟨hcatalog, trivial⟩
  have hblocked : f.board.isBlocked 20 = true := by decide
  let c : Operand.Scope :=
    { effect := add, own := b.scene.own, rival := b.scene.opposing, moment := some b.now }
  have hid : add.int? "id" "0" = some 20 := by decide +kernel
  have hturn : add.operand? c "turn" "-1" = some (Double.ofInt (-1)) := by decide +kernel
  have hvalue : add.operand? c "value" "0" = some (Double.ofInt 0) := by decide +kernel
  obtain ⟨hrun, hadd⟩ := blocks_hold b 20
  refine ⟨hb, hevents, hblocked, hrun hb events later hevents, ?_⟩
  exact hadd ⟨catalog, {}⟩ add .stacking c f _ _ rfl hid rfl rfl rfl hturn hvalue hblocked

end PetDuel
