import PetDuel.Deed.CarryOut
import PetDuel.Proofs.Markers

/-!
What operations on boards and fighters leave alone. An operation is about some numbers only, and the
buffs with other numbers stay with their order, their turns and their values.
-/

namespace PetDuel

/-- Only buffs with numbers among `ids` differ; the others are the same, in the same order. -/
structure BuffBoard.Spares (ids : Int32 → Bool) (board board' : BuffBoard) : Prop where
  others : (board'.active.filter fun x => !ids x.id) = board.active.filter fun x => !ids x.id
  blockedIds : board'.blockedIds = board.blockedIds
  blockedRanges : board'.blockedRanges = board.blockedRanges

structure Fighter.Spares (ids : Int32 → Bool) (f g : Fighter) : Prop where
  rest : g = { f with sheet := { f.sheet with stages := g.sheet.stages }, board := g.board }
  board : f.board.Spares ids g.board

variable {ids : Int32 → Bool}

namespace BuffBoard

variable {board board' board'' : BuffBoard} {b : Buff}

theorem Spares.refl (board : BuffBoard) : board.Spares ids board := ⟨rfl, rfl, rfl⟩

theorem Spares.trans (h : board.Spares ids board') (h' : board'.Spares ids board'') :
    board.Spares ids board'' where
  others := h'.others.trans h.others
  blockedIds := h'.blockedIds.trans h.blockedIds
  blockedRanges := h'.blockedRanges.trans h.blockedRanges

/-- A removal spares the other numbers when it takes listed ones only. -/
theorem spares_removeWhere {p : Buff → Bool} (h : ∀ x, p x = true → ids x.id = true)
    (board : BuffBoard) : board.Spares ids (board.removeWhere p).1 := by
  refine ⟨?_, rfl, rfl⟩
  change (board.active.filter fun x => !p x).filter (fun x => !ids x.id) = _
  rw [List.filter_filter]
  refine List.filter_congr fun x _ => ?_
  cases hp : p x with
  | false => rw [Bool.not_false, Bool.and_true]
  | true => rw [h x hp, Bool.not_true, Bool.false_and]

/-- Removing one buff spares all other numbers. -/
theorem spares_remove (hb : ids b.id = true) (board : BuffBoard) :
    board.Spares ids (board.remove b).1 := by
  unfold remove
  split
  · have hout : b ∉ board.active.filter fun x => !ids x.id := by
      intro hmem
      have hspared := (List.mem_filter.mp hmem).2
      rw [hb] at hspared
      cases hspared
    refine ⟨?_, rfl, rfl⟩
    rw [← List.erase_filter, List.erase_of_not_mem hout]
  · exact .refl board

theorem spares_push (hb : ids b.id = true) (board : BuffBoard) :
    board.Spares ids (board.push b).1 := by
  refine ⟨?_, rfl, rfl⟩
  change (board.active ++ [b]).filter (fun x => !ids x.id) = _
  rw [List.filter_append, List.filter_singleton, hb]
  exact List.append_nil _

/-- Changing the first buff with a listed number is not seen among the others. -/
theorem filter_changeFirst {id : Int32} (hid : ids id = true) {f : Buff → Buff}
    (hf : ∀ x, (f x).id = x.id) {bs bs' out : List Buff}
    (h : changeFirst id f bs = some (bs', out)) :
    (bs'.filter fun x => !ids x.id) = bs.filter fun x => !ids x.id := by
  induction bs generalizing bs' with
  | nil => cases h
  | cons b bs ih =>
    unfold changeFirst at h
    split at h
    · rename_i hb
      -- Neither the buff with the number nor what becomes of it is one of the others.
      have hold : ids b.id = true := hb ▸ hid
      have hnew : ids (f b).id = true := (hf b).symm ▸ hold
      split at h
      · cases h
        simp only [List.filter_cons, hold, Bool.not_true, Bool.false_eq_true, if_false]
      · cases h
        simp only [List.filter_cons, hold, hnew, Bool.not_true, Bool.false_eq_true, if_false]
    · obtain ⟨⟨cs, out'⟩, hrest, hpair⟩ := Option.map_eq_some_iff.mp h
      cases hpair
      simp only [List.filter_cons, ih hrest]

theorem spares_update? {id : Int32} (hid : ids id = true) {f : Buff → Buff}
    (hf : ∀ x, (f x).id = x.id) {result : BuffBoard × BuffChange}
    (h : board.update? id f = some result) : board.Spares ids result.1 := by
  obtain ⟨⟨bs, out⟩, hchange, hpair⟩ := Option.map_eq_some_iff.mp h
  cases hpair
  exact ⟨filter_changeFirst hid hf hchange, rfl, rfl⟩

theorem spares_add (hb : ids b.id = true) (board : BuffBoard) :
    board.Spares ids (board.add b).1 := by
  rcases board.add_cases b with hsame | ⟨hpush, _⟩ | ⟨p, hupdate⟩
  · rw [hsame]
    exact .refl board
  · rw [hpush]
    exact spares_push hb board
  · exact spares_update? hb (fun x => (p.rewritten_meet b x).id) hupdate

/-- Operations that spare the other numbers one by one spare them together. -/
theorem spares_each {α : Type} {step : BuffBoard → α → BuffBoard × BuffChange} {xs : List α}
    (h : ∀ x ∈ xs, ∀ board : BuffBoard, board.Spares ids (step board x).1) (board : BuffBoard) :
    board.Spares ids (each step board xs).1 := by
  induction xs generalizing board with
  | nil => exact .refl board
  | cons x xs ih =>
    obtain ⟨hx, hxs⟩ := List.forall_mem_cons.mp h
    have hrest := ih hxs (step board x).1
    exact (hx board).trans hrest

end BuffBoard

namespace Fighter

variable {f g h : Fighter} {catalog : Catalog}

theorem Spares.refl (f : Fighter) : f.Spares ids f := ⟨rfl, .refl f.board⟩

theorem Spares.trans (hfg : f.Spares ids g) (hgh : g.Spares ids h) : f.Spares ids h where
  rest := by
    have hlast := hgh.rest
    rw [hfg.rest] at hlast
    exact hlast
  board := hfg.board.trans hgh.board

theorem spares_onBoard {step : BuffBoard → BuffBoard × BuffChange}
    (h : ∀ board : BuffBoard, board.Spares ids (step board).1) (f : Fighter) :
    f.Spares ids (f.onBoard step).1 := ⟨rfl, h f.board⟩

theorem spares_setStage (c : StageChannel) (n : Int32) (f : Fighter) :
    f.Spares ids { f with sheet := f.sheet.setStage c n } := ⟨rfl, .refl f.board⟩

/-- Moved stages are not on the board. -/
theorem spares_shiftEach (delta : Stages) (cs : List StageChannel) (f : Fighter) :
    f.Spares ids { f with sheet := (StatSheet.shiftEach delta cs f.sheet).2 } := by
  induction cs generalizing f with
  | nil => exact .refl f
  | cons c cs ih =>
    have hone : f.Spares ids { f with sheet := f.sheet.shiftOne delta c } := by
      unfold StatSheet.shiftOne
      split
      · exact .refl f
      · exact ⟨rfl, .refl f.board⟩
    rw [StatSheet.shiftEach_cons]
    exact hone.trans (ih { f with sheet := f.sheet.shiftOne delta c })

section Channel

variable {c : StageChannel} (hids : ∀ raised, ids (markerId c raised) = true)

include hids

/-- Taking down markers spares all numbers but theirs. -/
theorem spares_dropMarkers (stage : Int32) (board : BuffBoard) :
    board.Spares ids (dropMarkers c stage board).1 := by
  refine BuffBoard.spares_each (fun id hid board => ?_) board
  have hmarker : ids id = true := by
    have hmem := (List.mem_filter.mp hid).1
    simp only [List.mem_cons, List.not_mem_nil, or_false] at hmem
    rcases hmem with rfl | rfl
    · exact hids true
    · exact hids false
  exact BuffBoard.spares_removeWhere (fun x hx => beq_iff_eq.mp hx ▸ hmarker) board

/-- Putting up a marker spares all numbers but its own. -/
theorem spares_raiseMarker (stage : Int32) (board : BuffBoard) :
    board.Spares ids (raiseMarker catalog c stage board).1 := by
  unfold raiseMarker
  split
  · exact .refl board
  · rename_i id hcalled
    -- The stage calls for one of the two markers of its channel.
    have hmarker : ids id = true := by
      unfold markerFor? at hcalled
      split at hcalled
      · exact Option.some.inj hcalled ▸ hids true
      · split at hcalled
        · exact Option.some.inj hcalled ▸ hids false
        · cases hcalled
    split
    · rename_i hupdate
      exact BuffBoard.spares_update? (f := fun x => x.setValue (distance stage)) hmarker
        (fun _ => rfl) hupdate
    · split
      · rename_i t ht
        have hnumber : t.id = id := (Catalog.buff?_cases ht).2
        have hnew : ids t.id = true := by rw [hnumber, hmarker]
        exact BuffBoard.spares_add hnew board
      · exact .refl board

theorem spares_syncMarker (f : Fighter) : f.Spares ids (f.syncMarker catalog c).1 := by
  have hdropped := spares_dropMarkers hids (f.sheet.stage c) f.board
  exact ⟨rfl, hdropped.trans (spares_raiseMarker hids (f.sheet.stage c) _)⟩

end Channel

/-- Bringing markers in line touches those of the given channels alone. -/
theorem spares_syncEach {cs : List StageChannel}
    (hids : ∀ c ∈ cs, ∀ raised, ids (markerId c raised) = true) (f : Fighter) :
    f.Spares ids (f.syncEach catalog cs).1 := by
  induction cs generalizing f with
  | nil => exact .refl f
  | cons c cs ih =>
    obtain ⟨hc, hcs⟩ := List.forall_mem_cons.mp hids
    have hfirst : f.Spares ids (f.syncMarker catalog c).1 := spares_syncMarker hc f
    exact hfirst.trans (ih hcs (f.syncMarker catalog c).1)

section Markers

variable (hids : ∀ c raised, ids (markerId c raised) = true)

include hids

theorem spares_shiftStages (delta : Stages) (f : Fighter) :
    f.Spares ids (f.shiftStages catalog delta).1 := by
  rw [shiftStages_eq]
  exact (spares_shiftEach (allowed f.board delta) StageChannel.all f).trans
    (spares_syncEach (fun c _ => hids c) _)

theorem spares_writeStage (c : StageChannel) (n : Int32) (f : Fighter) :
    f.Spares ids (f.setStage catalog c n).1 :=
  (spares_setStage c n f).trans (spares_syncMarker (hids c) _)

theorem spares_resetStages {ctx : Context} (cs : List StageChannel) (f : Fighter) :
    f.Spares ids (Deed.resetStages ctx cs f).1 := by
  induction cs generalizing f with
  | nil => exact .refl f
  | cons c cs ih =>
    have hfirst : f.Spares ids (f.setStage ctx.catalog c 0).1 := spares_writeStage hids c 0 f
    exact hfirst.trans (ih (f.setStage ctx.catalog c 0).1)

end Markers

/-- A removal may take any number off the board, but of the rest it changes the stages only. -/
theorem spares_removeListed (ctx : Context) (ids : List Int32) (f : Fighter) :
    f.Spares (fun _ => true) (Deed.removeListed ctx ids f).1 := by
  have hremoved : f.Spares (fun _ => true)
      (f.onBoard fun board => board.removeWhere fun x => ids.contains x.id).1 :=
    spares_onBoard (BuffBoard.spares_removeWhere fun _ _ => rfl) f
  exact hremoved.trans (spares_resetStages (fun _ _ => rfl) (Deed.markedChannels ids) _)

end Fighter

end PetDuel
