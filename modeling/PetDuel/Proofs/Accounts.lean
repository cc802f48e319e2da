import Mathlib.Data.List.Forall2
import PetDuel.Proofs.Instances

/-!
The report of a change accounts for every buff. Of each number there are as many buffs on the board
before the change and among those that came as there are on the board after it and among those that
left. What stays keeps its order, and what came stands behind it.
-/

namespace PetDuel

section Descent

variable {α : Type} {R : α → α → Prop} {xs ys zs ws : List α}

theorem sublistForall₂_append (h : List.SublistForall₂ R xs ys) (h' : List.SublistForall₂ R zs ws) :
    List.SublistForall₂ R (xs ++ zs) (ys ++ ws) := by
  induction h with
  | @nil ys =>
    -- Nothing descends from the first list, whose items are passed over one by one.
    induction ys with
    | nil => exact h'
    | cons y ys ih => exact .cons_right ih
  | cons hxy _ ih => exact .cons hxy ih
  | cons_right _ ih => exact .cons_right ih

/-- What descends from two lists one behind the other falls in two parts. -/
theorem sublistForall₂_split (h : List.SublistForall₂ R xs (ys ++ zs)) :
    ∃ us vs, xs = us ++ vs ∧ List.SublistForall₂ R us ys ∧ List.SublistForall₂ R vs zs := by
  induction ys generalizing xs with
  | nil => exact ⟨[], xs, rfl, .nil, h⟩
  | cons y ys ih =>
    cases h with
    | nil => exact ⟨[], [], rfl, .nil, .nil⟩
    | @cons x _ xs _ hxy hrest =>
      obtain ⟨us, vs, rfl, hus, hvs⟩ := ih hrest
      exact ⟨x :: us, vs, rfl, .cons hxy hus, hvs⟩
    | cons_right hrest =>
      obtain ⟨us, vs, rfl, hus, hvs⟩ := ih hrest
      exact ⟨us, vs, rfl, .cons_right hus, hvs⟩

end Descent

/-- A buff is another one at a later time: only its turn count and its value may differ. -/
def Buff.SameInstance (y x : Buff) : Prop := y = { x with turn := y.turn, value := y.value }

def BuffChange.came (change : BuffChange) (id : Int32) : Nat :=
  change.added.countP fun x => x.id == id

def BuffChange.left (change : BuffChange) (id : Int32) : Nat :=
  change.removed.countP fun x => x.id == id

/-- What an operation on a board gives accounts for every buff, where `R` says which buff a later
one may go back to. -/
structure BuffBoard.Accounts (R : Buff → Buff → Prop) (board : BuffBoard)
    (result : BuffBoard × BuffChange) : Prop where
  balance : ∀ id, result.1.instances id + result.2.left id = board.instances id + result.2.came id
  order : ∃ stayed came, result.1.active = stayed ++ came ∧
    List.SublistForall₂ R stayed board.active ∧ List.SublistForall₂ R came result.2.added
  blockedIds : result.1.blockedIds = board.blockedIds
  blockedRanges : result.1.blockedRanges = board.blockedRanges

def Fighter.Accounts (f : Fighter) (result : Fighter × BuffChange) : Prop :=
  f.board.Accounts Buff.SameInstance (result.1.board, result.2)

namespace Buff

instance : Std.Refl SameInstance := ⟨fun _ => rfl⟩

instance : IsTrans Buff SameInstance where
  trans z y x hzy hyx := by
    unfold SameInstance at hzy hyx ⊢
    rw [hzy, hyx]

theorem sameInstance_tick (x : Buff) : x.tick.SameInstance x := by
  unfold tick
  split <;> rfl

theorem sameInstance_meet (p : CopyPolicy) (incoming x : Buff) :
    (p.meet incoming x).SameInstance x := by
  cases p <;> rfl

end Buff

namespace BuffChange

theorem came_append (change rest : BuffChange) (id : Int32) :
    (change ++ rest).came id = change.came id + rest.came id := List.countP_append

theorem left_append (change rest : BuffChange) (id : Int32) :
    (change ++ rest).left id = change.left id + rest.left id := List.countP_append

end BuffChange

namespace BuffBoard

variable {R : Buff → Buff → Prop} {board : BuffBoard} {id : Int32}

theorem Accounts.none [Std.Refl R] (board : BuffBoard) : board.Accounts R (board, .none) where
  balance := fun _ => rfl
  order := by
    have hself : List.SublistForall₂ R board.active board.active :=
      (List.Sublist.refl _).sublistForall₂
    exact ⟨board.active, [], (List.append_nil _).symm, hself, .nil⟩
  blockedIds := rfl
  blockedRanges := rfl

/-- Operations one after the other account for every buff with their reports put together. -/
theorem Accounts.append [IsTrans Buff R] {result result' : BuffBoard × BuffChange}
    (h : board.Accounts R result) (h' : result.1.Accounts R result') :
    board.Accounts R (result'.1, result.2 ++ result'.2) where
  balance := by
    intro id
    have hfirst := h.balance id
    have hsecond := h'.balance id
    rw [BuffChange.came_append, BuffChange.left_append]
    dsimp only
    omega
  order := by
    obtain ⟨stayed, came, hactive, hstayed, hcame⟩ := h.order
    obtain ⟨stayed', came', hactive', hstayed', hcame'⟩ := h'.order
    -- What stays in the second operation had stayed in the first, or had come with it.
    rw [hactive] at hstayed'
    obtain ⟨old, new, rfl, hold, hnew⟩ := sublistForall₂_split hstayed'
    refine ⟨old, new ++ came', ?_, ?_, ?_⟩
    · rw [hactive', List.append_assoc]
    · exact IsTrans.trans _ _ _ hold hstayed
    · exact sublistForall₂_append (IsTrans.trans _ _ _ hnew hcame) hcame'
  blockedIds := h'.blockedIds.trans h.blockedIds
  blockedRanges := h'.blockedRanges.trans h.blockedRanges

/-- Where nothing comes, it is enough to count what is on the board and what left. -/
theorem Accounts.of_left {bs out : List Buff}
    (hbalance : ∀ id, bs.countP (fun x => x.id == id) + out.countP (fun x => x.id == id) =
      board.instances id)
    (horder : List.SublistForall₂ R bs board.active) :
    board.Accounts R ({ board with active := bs }, { removed := out }) where
  balance := hbalance
  order := ⟨bs, [], (List.append_nil bs).symm, horder, .nil⟩
  blockedIds := rfl
  blockedRanges := rfl

/-- What is removed is reported, and what is not stays where it is. -/
theorem accounts_removeWhere [Std.Refl R] (board : BuffBoard) (p : Buff → Bool) :
    board.Accounts R (board.removeWhere p) := by
  refine .of_left (fun id => ?_) List.filter_sublist.sublistForall₂
  have hcount (bs : List Buff) : (bs.filter fun x => !p x).countP (fun x => x.id == id) +
      (bs.filter p).countP (fun x => x.id == id) = bs.countP fun x => x.id == id := by
    induction bs with
    | nil => rfl
    | cons b bs ih =>
      rw [List.countP_cons, ← ih]
      cases hb : p b <;> simp only [List.filter_cons, hb, Bool.not_true, Bool.not_false, if_true,
        Bool.false_eq_true, if_false, List.countP_cons] <;> omega
  exact hcount board.active

theorem accounts_remove [Std.Refl R] (board : BuffBoard) (b : Buff) :
    board.Accounts R (board.remove b) := by
  unfold remove
  split
  · rename_i hactive
    refine .of_left (fun id => ?_) List.erase_sublist.sublistForall₂
    have hperm := List.perm_cons_erase (List.contains_iff_mem.mp hactive)
    have hcount := hperm.countP_eq fun x => x.id == id
    rw [List.countP_cons] at hcount
    rw [List.countP_singleton]
    exact hcount.symm
  · exact .none board

/-- A buff that is appended is reported as the only newcomer. -/
theorem accounts_push [Std.Refl R] (board : BuffBoard) (b : Buff) :
    board.Accounts R (board.push b) where
  balance := fun id => by
    change (board.active ++ [b]).countP (fun x => x.id == id) = _
    rw [List.countP_append]
    rfl
  order := by
    have hself (bs : List Buff) : List.SublistForall₂ R bs bs :=
      (List.Sublist.refl bs).sublistForall₂
    exact ⟨board.active, [b], rfl, hself board.active, hself [b]⟩
  blockedIds := rfl
  blockedRanges := rfl

/-- The buff that is changed is the only one that may leave, and it is counted as it left. -/
theorem changeFirst_accounts [Std.Refl R] {f : Buff → Buff} (hid : ∀ x, x.id = id → (f x).id = id)
    (hf : ∀ x, x.id = id → R (f x) x) {bs bs' out : List Buff}
    (h : changeFirst id f bs = some (bs', out)) :
    (∀ n, bs'.countP (fun x => x.id == n) + out.countP (fun x => x.id == n) =
      bs.countP fun x => x.id == n) ∧ List.SublistForall₂ R bs' bs := by
  induction bs generalizing bs' with
  | nil => cases h
  | cons b bs ih =>
    have hself : List.SublistForall₂ R bs bs := (List.Sublist.refl bs).sublistForall₂
    unfold changeFirst at h
    split at h
    · rename_i hb
      have hsame : (f b).id = b.id := (hid b hb).trans hb.symm
      split at h
      · -- The changed buff is spent, and so it is in the report instead of on the board.
        cases h
        refine ⟨fun n => ?_, .cons_right hself⟩
        rw [List.countP_singleton, List.countP_cons, hsame]
      · -- It stays in its place, under its number.
        cases h
        refine ⟨fun n => ?_, .cons (hf b hb) hself⟩
        rw [List.countP_cons, List.countP_cons, hsame]
        rfl
    · obtain ⟨⟨cs, out'⟩, hrest, hpair⟩ := Option.map_eq_some_iff.mp h
      cases hpair
      obtain ⟨hcount, horder⟩ := ih hrest
      refine ⟨fun n => ?_, .cons (Std.Refl.refl b) horder⟩
      rw [List.countP_cons, List.countP_cons, ← hcount n]
      exact Nat.add_right_comm _ _ _

/-- Putting a buff through a change keeps the account when the change leaves it the buff it was;
that it may leave when it is spent is reported. -/
theorem accounts_update? [Std.Refl R] {f : Buff → Buff} (hid : ∀ x, x.id = id → (f x).id = id)
    (hf : ∀ x, x.id = id → R (f x) x) {result : BuffBoard × BuffChange}
    (h : board.update? id f = some result) : board.Accounts R result := by
  obtain ⟨⟨bs, out⟩, hchange, hpair⟩ := Option.map_eq_some_iff.mp h
  cases hpair
  obtain ⟨hcount, horder⟩ := changeFirst_accounts hid hf hchange
  exact .of_left hcount horder

/-- Adding accounts for every buff, whichever of its policies the template has. -/
theorem accounts_add (board : BuffBoard) (b : Buff) :
    board.Accounts Buff.SameInstance (board.add b) := by
  rcases board.add_cases b with hsame | ⟨hpush, _⟩ | ⟨p, hupdate⟩
  · rw [hsame]
    exact .none board
  · rw [hpush]
    exact accounts_push board b
  · refine accounts_update? (fun x hx => ?_) (fun x _ => Buff.sameInstance_meet p b x) hupdate
    exact (p.rewritten_meet b x).id.trans hx

theorem accounts_each {α : Type} {step : BuffBoard → α → BuffBoard × BuffChange}
    (hstep : ∀ (board : BuffBoard) (x : α), board.Accounts Buff.SameInstance (step board x))
    (board : BuffBoard) (xs : List α) :
    board.Accounts Buff.SameInstance (each step board xs) := by
  induction xs generalizing board with
  | nil => exact .none board
  | cons x xs ih => exact (hstep board x).append (ih (step board x).1)

theorem accounts_removeId (board : BuffBoard) (id : Int32) :
    board.Accounts Buff.SameInstance (board.removeId id) := accounts_removeWhere board _

/-- A tick leaves every buff the one it was, and reports those whose turns have run out. -/
theorem accounts_tick (board : BuffBoard) : board.Accounts Buff.SameInstance board.tick := by
  have hcounted : board.Accounts Buff.SameInstance
      ({ board with active := board.active.map Buff.tick }, .none) := by
    refine .of_left (fun id => ?_) ?_
    · have hids : List.Forall₂ Buff.Rewritten board.active (board.active.map Buff.tick) :=
        List.forall₂_map_right_iff.mpr (List.forall₂_same.mpr fun x _ => x.rewritten_tick)
      exact Buff.countP_of_rewritten hids id
    · refine List.sublistForall₂_map_left_iff.mpr ?_
      refine List.sublistForall₂_iff.mpr ⟨board.active, ?_, List.Sublist.refl _⟩
      exact List.forall₂_same.mpr fun x _ => x.sameInstance_tick
  exact hcounted.append (accounts_removeWhere _ Buff.isExpired)

end BuffBoard

namespace Fighter

variable {catalog : Catalog}

theorem accounts_onBoard {step : BuffBoard → BuffBoard × BuffChange}
    (h : ∀ board : BuffBoard, board.Accounts Buff.SameInstance (step board)) (f : Fighter) :
    f.Accounts (f.onBoard step) := h f.board

/-- A marker that is put up is a newcomer, and one that is there is written again. -/
theorem accounts_raiseMarker (catalog : Catalog) (c : StageChannel) (stage : Int32)
    (board : BuffBoard) :
    board.Accounts Buff.SameInstance (raiseMarker catalog c stage board) := by
  unfold raiseMarker
  split
  · exact .none board
  · split
    · rename_i hupdate
      exact BuffBoard.accounts_update? (f := fun x => x.setValue (distance stage))
        (fun _ hx => hx) (fun _ _ => rfl) hupdate
    · split
      · exact BuffBoard.accounts_add board _
      · exact .none board

theorem accounts_syncMarker (catalog : Catalog) (c : StageChannel) (f : Fighter) :
    f.Accounts (f.syncMarker catalog c) := by
  have hdrop : f.board.Accounts Buff.SameInstance (dropMarkers c (f.sheet.stage c) f.board) :=
    BuffBoard.accounts_each BuffBoard.accounts_removeId f.board _
  exact hdrop.append (accounts_raiseMarker catalog c (f.sheet.stage c) _)

theorem accounts_syncEach (catalog : Catalog) (cs : List StageChannel) (f : Fighter) :
    f.Accounts (f.syncEach catalog cs) := by
  induction cs generalizing f with
  | nil => exact .none f.board
  | cons c cs ih =>
    have hfirst := accounts_syncMarker catalog c f
    exact hfirst.append (ih (f.syncMarker catalog c).1)

/-- Moving stages touches the board through their markers only. -/
theorem accounts_shiftStages (catalog : Catalog) (delta : Stages) (f : Fighter) :
    f.Accounts (f.shiftStages catalog delta) := by
  rw [shiftStages_eq]
  generalize f.sheet.shiftStages (allowed f.board delta) = moved
  -- The stages are written on the sheet first, which leaves the board alone.
  exact accounts_syncEach catalog moved.1 { f with sheet := moved.2 }

theorem accounts_setStageOf (catalog : Catalog) (c : Channel) (n : Int32) (f : Fighter) :
    f.Accounts (f.setStageOf catalog c n) := by
  unfold setStageOf
  split
  · rename_i s _
    exact accounts_syncMarker catalog s { f with sheet := f.sheet.setStage s n }
  · exact accounts_onBoard
      (fun board => BuffBoard.accounts_each BuffBoard.accounts_removeId board _) f

end Fighter

/-- Every operation on the buffs of a fighter accounts for every buff, batches and the operations on
stages among them. A change from outside may do to one buff what it likes, as long as the buff keeps
its number. -/
theorem reports_account_for_buffs (catalog : Catalog) (board : BuffBoard) (f : Fighter) :
    (∀ b, board.Accounts Buff.SameInstance (board.add b)) ∧
      (∀ bs, board.Accounts Buff.SameInstance (board.addEach bs)) ∧
      (∀ b, board.Accounts Buff.SameInstance (board.remove b)) ∧
      (∀ bs, board.Accounts Buff.SameInstance (board.removeEach bs)) ∧
      (∀ id, board.Accounts Buff.SameInstance (board.removeId id)) ∧
      (∀ p, board.Accounts Buff.SameInstance (board.removeWhere p)) ∧
      board.Accounts Buff.SameInstance board.tick ∧
      (∀ id (g : Buff → Buff), (∀ x, x.id = id → (g x).id = id) →
        board.Accounts (fun y x => y = x ∨ x.id = id ∧ y = g x)
          ((board.update? id g).getD (board, .none))) ∧
      (∀ delta, f.Accounts (f.shiftStages catalog delta)) ∧
      (∀ c n, f.Accounts (f.setStageOf catalog c n)) ∧
      f.Accounts (f.syncMarkers catalog) := by
  refine ⟨board.accounts_add, BuffBoard.accounts_each BuffBoard.accounts_add board,
    board.accounts_remove, BuffBoard.accounts_each BuffBoard.accounts_remove board,
    board.accounts_removeId, board.accounts_removeWhere, board.accounts_tick, ?_,
    fun delta => f.accounts_shiftStages catalog delta,
    fun c n => f.accounts_setStageOf catalog c n, f.accounts_syncEach catalog StageChannel.all⟩
  -- A change by number is accounted for up to what it makes of the buffs with that number.
  intro id g hid
  have : Std.Refl fun y x => y = x ∨ x.id = id ∧ y = g x := ⟨fun _ => Or.inl rfl⟩
  cases hupdate : board.update? id g with
  | none => exact .none board
  | some result =>
    exact BuffBoard.accounts_update? hid (fun x hx => Or.inr ⟨hx, rfl⟩) hupdate

/-- A change that spends the first of two buffs with one number: that one leaves, and is reported as
the change has left it. -/
theorem spent_buff_is_reported :
    let t : BuffTemplate := { BuffTemplate.stacking with policy := .append, autoRemove := true }
    let board : BuffBoard := ⟨[.new t 3 2, .new t 3 4], [], []⟩
    let spend : Buff → Buff := fun x => x.setValue 0
    let result := (board.update? 20 spend).getD (board, .none)
    (∀ x, x.id = 20 → (spend x).id = 20) ∧
      board.Accounts (fun y x => y = x ∨ x.id = 20 ∧ y = spend x) result ∧
      result.1.active = [.new t 3 4] ∧ result.2 = { removed := [.new t 3 0] } := by
  intro t board spend result
  have hid : ∀ x : Buff, x.id = 20 → (spend x).id = 20 := fun _ hx => hx
  obtain ⟨_, _, _, _, _, _, _, hupdate, _⟩ := reports_account_for_buffs .empty board default
  exact ⟨hid, hupdate 20 spend hid, by decide, by decide⟩

end PetDuel
