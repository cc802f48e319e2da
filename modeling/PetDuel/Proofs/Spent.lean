import PetDuel.Proofs.BoardChanges

/-!
Spent buffs. A buff whose value is used up leaves as soon as it is changed where it stands. Nothing
looks at a buff that is used up already when it joins the board: it stays there and only counts its
turns, until it is removed or changed. So the board is rid of spent buffs exactly as long as none
comes.
-/

namespace PetDuel

def Buff.AgedFrom (xs : List Buff) (b : Buff) : Prop := ∃ x ∈ xs, b = { x with turn := b.turn }

namespace BuffBoard

/-- A change of a board. An update may do to a buff what it likes. -/
inductive Edit
  | add (b : Buff)
  | addEach (bs : List Buff)
  | remove (b : Buff)
  | removeEach (bs : List Buff)
  | removeId (id : Int32)
  | removeWhere (p : Buff → Bool)
  | update (id : Int32) (f : Buff → Buff)
  | tick
  | block (ids : List Int32)
  | unblock (ids : List Int32)
  | blockRanges (ranges : List (Int32 × Int32))
  | unblockRanges (ranges : List (Int32 × Int32))

namespace Edit

def apply (board : BuffBoard) : Edit → BuffBoard × BuffChange
  | add b => board.add b
  | addEach bs => board.addEach bs
  | remove b => board.remove b
  | removeEach bs => board.removeEach bs
  | removeId id => board.removeId id
  | removeWhere p => board.removeWhere p
  | update id f => (board.update? id f).getD (board, .none)
  | tick => board.tick
  | block ids => (board.block ids, .none)
  | unblock ids => (board.unblock ids, .none)
  | blockRanges ranges => (board.blockRanges ranges, .none)
  | unblockRanges ranges => (board.unblockRanges ranges, .none)

def singles : Edit → List Edit
  | addEach bs => bs.map add
  | removeEach bs => bs.map remove
  | edit => [edit]

end Edit

def edited (board : BuffBoard) (edits : List Edit) : BuffBoard × BuffChange :=
  each Edit.apply board edits

def Unspent (board : BuffBoard) : Prop := ∀ b ∈ board.active, b.isSpent = false

/-- After an operation, spent buffs were on the board before or came with it, and have only counted
their turns since. -/
def SpentKept (board : BuffBoard) (result : BuffBoard × BuffChange) : Prop :=
  ∀ b ∈ result.1.active, b.isSpent = true → b.AgedFrom (board.active ++ result.2.added)

end BuffBoard

namespace BuffChange

theorem append_none (change : BuffChange) : change ++ none = change :=
  congrArg₂ BuffChange.mk (List.append_nil _) (List.append_nil _)

theorem append_assoc (change change' change'' : BuffChange) :
    change ++ change' ++ change'' = change ++ (change' ++ change'') :=
  congrArg₂ BuffChange.mk (List.append_assoc _ _ _) (List.append_assoc _ _ _)

end BuffChange

namespace Buff

variable {xs ys : List Buff} {b : Buff}

/-- A buff that only counts its turns is spent when it was. -/
theorem AgedFrom.exists_spent (h : b.AgedFrom xs) (hspent : b.isSpent = true) :
    ∃ x ∈ xs, x.isSpent = true ∧ b = { x with turn := b.turn } := by
  obtain ⟨x, hx, hb⟩ := h
  rw [hb] at hspent
  exact ⟨x, hx, hspent, hb⟩

/-- A spent buff that only counted its turns was spent before, and so on back. -/
theorem AgedFrom.trans (h : b.AgedFrom xs) (hspent : b.isSpent = true)
    (hxs : ∀ x ∈ xs, x.isSpent = true → x.AgedFrom ys) : b.AgedFrom ys := by
  obtain ⟨x, hx, hxspent, hb⟩ := h.exists_spent hspent
  obtain ⟨y, hy, hxy⟩ := hxs x hx hxspent
  refine ⟨y, hy, ?_⟩
  rw [hxy] at hb
  exact hb

theorem agedFrom_tick (h : b ∈ xs) : b.tick.AgedFrom xs := by
  refine ⟨b, h, ?_⟩
  unfold tick
  split <;> rfl

end Buff

namespace BuffBoard

variable {board : BuffBoard} {result result' : BuffBoard × BuffChange} {id : Int32}
  {edit : Edit} {edits : List Edit} {b : Buff}

/-- An operation keeps spent buffs when those that are spent after it are there before it. -/
theorem SpentKept.of_mem
    (h : ∀ b ∈ result.1.active, b.isSpent = true → b ∈ board.active ++ result.2.added) :
    board.SpentKept result := fun b hb hspent => ⟨b, h b hb hspent, rfl⟩

theorem SpentKept.of_subset (h : result.1.active ⊆ board.active) : board.SpentKept result :=
  .of_mem fun _ hb _ => List.mem_append_left _ (h hb)

/-- Two operations keep spent buffs as each of them does. What came with the first one is in its
report. -/
theorem SpentKept.append (h : board.SpentKept result) (h' : result.1.SpentKept result') :
    board.SpentKept (result'.1, result.2 ++ result'.2) := by
  intro b hb hspent
  refine (h' b hb hspent).trans hspent fun x hx hxspent => ?_
  change x.AgedFrom (board.active ++ (result.2.added ++ result'.2.added))
  -- What is spent after the first operation came with it or goes back further.
  rcases List.mem_append.mp hx with hstayed | hcame
  · obtain ⟨y, hy, hxy⟩ := h x hstayed hxspent
    rw [← List.append_assoc]
    exact ⟨y, List.mem_append_left _ hy, hxy⟩
  · exact ⟨x, List.mem_append_right _ (List.mem_append_right _ hcame), rfl⟩

/-- The buff that is changed is not spent if it stays, and the others are not changed. -/
theorem mem_of_mem_changeFirst {f : Buff → Buff} {bs bs' out : List Buff}
    (h : changeFirst id f bs = some (bs', out)) (hb : b ∈ bs') (hspent : b.isSpent = true) :
    b ∈ bs := by
  induction bs generalizing bs' with
  | nil => cases h
  | cons x bs ih =>
    unfold changeFirst at h
    split at h
    · -- The changed buff leaves if it is spent now.
      split at h
      · cases h
        exact List.mem_cons_of_mem x hb
      · rename_i hunspent
        cases h
        rcases List.mem_cons.mp hb with rfl | hrest
        · exact absurd hspent hunspent
        · exact List.mem_cons_of_mem x hrest
    · obtain ⟨⟨cs, out'⟩, hrest, hpair⟩ := Option.map_eq_some_iff.mp h
      cases hpair
      rcases List.mem_cons.mp hb with rfl | hmem
      · exact List.mem_cons_self
      · exact List.mem_cons_of_mem x (ih hrest hmem)

/-- Putting a buff through a change takes it off the board when it is spent then. -/
theorem spentKept_update? {f : Buff → Buff} (h : board.update? id f = some result) :
    board.SpentKept result := by
  obtain ⟨⟨bs, out⟩, hchange, hpair⟩ := Option.map_eq_some_iff.mp h
  cases hpair
  exact .of_mem fun b hb hspent =>
    List.mem_append_left _ (mem_of_mem_changeFirst hchange hb hspent)

theorem spentKept_add (board : BuffBoard) (b : Buff) : board.SpentKept (board.add b) := by
  rcases board.add_cases b with hsame | ⟨hpush, _⟩ | ⟨p, hupdate⟩
  · rw [hsame]
    exact .of_subset fun _ hx => hx
  · rw [hpush]
    exact .of_mem fun x hx _ => hx
  · exact spentKept_update? hupdate

theorem spentKept_remove (board : BuffBoard) (b : Buff) : board.SpentKept (board.remove b) := by
  unfold remove
  split
  · exact .of_subset List.erase_subset
  · exact .of_subset fun _ hx => hx

theorem spentKept_removeWhere (board : BuffBoard) (p : Buff → Bool) :
    board.SpentKept (board.removeWhere p) := .of_subset (List.filter_subset_self _)

theorem spentKept_tick (board : BuffBoard) : board.SpentKept board.tick := by
  intro b hb _
  obtain ⟨x, hx, rfl⟩ := List.mem_map.mp (List.mem_filter.mp hb).1
  exact Buff.agedFrom_tick (List.mem_append_left _ hx)

theorem spentKept_each {α : Type} {step : BuffBoard → α → BuffBoard × BuffChange}
    (hstep : ∀ (board : BuffBoard) (x : α), board.SpentKept (step board x)) (board : BuffBoard)
    (xs : List α) : board.SpentKept (each step board xs) := by
  induction xs generalizing board with
  | nil => exact .of_subset fun _ hx => hx
  | cons x xs ih => exact (hstep board x).append (ih (step board x).1)

/-- No change makes an active buff spent and keeps it. -/
theorem spentKept_apply (board : BuffBoard) (edit : Edit) :
    board.SpentKept (edit.apply board) := by
  cases edit with
  | add b => exact spentKept_add board b
  | addEach bs => exact spentKept_each spentKept_add board bs
  | remove b => exact spentKept_remove board b
  | removeEach bs => exact spentKept_each spentKept_remove board bs
  | removeId id => exact spentKept_removeWhere board _
  | removeWhere p => exact spentKept_removeWhere board p
  | update id f =>
    cases hupdate : board.update? id f with
    | none =>
      rw [Edit.apply, hupdate]
      exact .of_subset fun _ hx => hx
    | some result =>
      rw [Edit.apply, hupdate]
      exact spentKept_update? hupdate
  | tick => exact spentKept_tick board
  | block | unblock | blockRanges | unblockRanges => exact .of_subset fun _ hx => hx

theorem spentKept_edited (board : BuffBoard) (edits : List Edit) :
    board.SpentKept (board.edited edits) := spentKept_each spentKept_apply board edits

theorem edited_cons (board : BuffBoard) (edit : Edit) (edits : List Edit) :
    board.edited (edit :: edits) = (((edit.apply board).1.edited edits).1,
      (edit.apply board).2 ++ ((edit.apply board).1.edited edits).2) := rfl

theorem edited_append (board : BuffBoard) (edits later : List Edit) :
    board.edited (edits ++ later) = (((board.edited edits).1.edited later).1,
      (board.edited edits).2 ++ ((board.edited edits).1.edited later).2) := by
  induction edits generalizing board with
  | nil => rfl
  | cons edit edits ih =>
    rw [List.cons_append, edited_cons, edited_cons, ih, BuffChange.append_assoc]

/-- A batch is its single changes, one after the other. -/
theorem edited_singles (board : BuffBoard) (edit : Edit) :
    board.edited edit.singles = edit.apply board := by
  have hbatch {α : Type} (single : α → Edit) (xs : List α) (board : BuffBoard) :
      board.edited (xs.map single) = each (fun board x => (single x).apply board) board xs := by
    induction xs generalizing board with
    | nil => rfl
    | cons x xs ih =>
      rw [List.map_cons, edited_cons, ih]
      rfl
  cases edit with
  | addEach bs => exact hbatch .add bs board
  | removeEach bs => exact hbatch .remove bs board
  | _ => exact congrArg (Prod.mk _) (BuffChange.append_none _)

/-- Adding several buffs at once is adding them one by one, and the same for removals. -/
theorem edited_flatMap_singles (board : BuffBoard) (edits : List Edit) :
    board.edited (edits.flatMap Edit.singles) = board.edited edits := by
  induction edits generalizing board with
  | nil => rfl
  | cons edit edits ih =>
    rw [List.flatMap_cons, edited_append, edited_singles, ih, edited_cons]

theorem added_update? {f : Buff → Buff} (h : board.update? id f = some result) :
    result.2.added = [] := by
  obtain ⟨_, _, rfl⟩ := Option.map_eq_some_iff.mp h
  rfl

theorem mem_active_of_mem_added_add {b x : Buff} (hx : x ∈ (board.add b).2.added) :
    x ∈ (board.add b).1.active := by
  rcases board.add_cases b with hsame | ⟨hpush, _⟩ | ⟨p, hupdate⟩
  · rw [hsame] at hx
    cases hx
  · rw [hpush] at hx ⊢
    exact List.mem_append_right _ hx
  · rw [added_update? hupdate] at hx
    cases hx

/-- What comes with a single change is there after it; in a batch it may have left again. -/
theorem mem_active_of_mem_added {edit single : Edit} (hsingle : single ∈ edit.singles)
    (hb : b ∈ (single.apply board).2.added) : b ∈ (single.apply board).1.active := by
  cases single with
  | add x => exact mem_active_of_mem_added_add hb
  | addEach | removeEach =>
    -- The single changes of a change are no batches.
    cases edit <;> simp [Edit.singles] at hsingle
  | remove x =>
    change b ∈ (board.remove x).2.added at hb
    unfold remove at hb
    split at hb <;> cases hb
  | update id f =>
    change b ∈ ((board.update? id f).getD (board, .none)).2.added at hb
    cases hupdate : board.update? id f with
    | none =>
      rw [hupdate] at hb
      cases hb
    | some result =>
      rw [hupdate, Option.getD_some, added_update? hupdate] at hb
      cases hb
  | _ => cases hb

/-- If no spent buff is ever on a board, then none comes to it. -/
theorem unspent_added {singles : List Edit} (hsingles : ∀ single ∈ singles, ∃ edit : Edit,
    single ∈ edit.singles) (h : ∀ done, done <+: singles → (board.edited done).1.Unspent) :
    ∀ x ∈ (board.edited singles).2.added, x.isSpent = false := by
  induction singles generalizing board with
  | nil => exact List.forall_mem_nil _
  | cons single singles ih =>
    obtain ⟨⟨edit, hsingle⟩, hrest⟩ := List.forall_mem_cons.mp hsingles
    rw [edited_cons]
    refine List.forall_mem_append.mpr ⟨fun x hx => ?_, ih hrest fun done hdone => ?_⟩
    · -- A spent buff that comes is still on the board right after its single change.
      have hfirst := h [single] (List.prefix_append [single] singles)
      exact hfirst x (mem_active_of_mem_added hsingle hx)
    · exact h (single :: done) ((List.prefix_cons_inj single).mpr hdone)

/-- Through any changes of an empty board, batches among them: a spent buff on the board came spent,
and has only counted its turns since. And no spent buff is there after any single change exactly if
none came. -/
theorem unspent_iff_none_come_spent (edits : List Edit) :
    (∀ b ∈ (empty.edited edits).1.active, b.isSpent = true →
      ∃ x ∈ (empty.edited edits).2.added, x.isSpent = true ∧ b = { x with turn := b.turn }) ∧
    ((∀ done, done <+: edits.flatMap Edit.singles → (empty.edited done).1.Unspent) ↔
      ∀ x ∈ (empty.edited edits).2.added, x.isSpent = false) := by
  have hcame (edits : List Edit) {b : Buff} (hb : b ∈ (empty.edited edits).1.active)
      (hspent : b.isSpent = true) :
      ∃ x ∈ (empty.edited edits).2.added, x.isSpent = true ∧ b = { x with turn := b.turn } :=
    (spentKept_edited empty edits b hb hspent).exists_spent hspent
  refine ⟨fun b => hcame edits, fun h => ?_, fun h done hdone b hb => ?_⟩
  · rw [← edited_flatMap_singles]
    refine unspent_added (fun single hsingle => ?_) h
    obtain ⟨edit, _, hsingle⟩ := List.mem_flatMap.mp hsingle
    exact ⟨edit, hsingle⟩
  · -- What came up to some change came in all.
    obtain ⟨later, hall⟩ := hdone
    rw [← edited_flatMap_singles, ← hall, edited_append] at h
    rw [Bool.eq_false_iff]
    intro hspent
    obtain ⟨x, hx, hxspent, _⟩ := hcame done hb hspent
    have hunspent : x.isSpent = false := h x (List.mem_append_left _ hx)
    cases hxspent.symm.trans hunspent

/-- A buff of value zero that has to leave at that value comes and stays. The same buff coming once
more makes both leave. -/
theorem fresh_spent_buff_stays :
    let t : BuffTemplate := { (default : BuffTemplate) with
      id := 30, policy := .replace, turn := -1, autoRemove := true }
    let b : Buff := .new t (-1) 0
    b.isSpent = true ∧ (empty.edited [.add b]).1.active = [b] ∧
      (empty.edited [.add b, .add b]).1.active = [] := by
  decide

end BuffBoard

end PetDuel
