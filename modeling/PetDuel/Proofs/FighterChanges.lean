import PetDuel.Deed.CarryOut
import PetDuel.Proofs.Markers

/-!
Fighters change in a few ways only. Health and anger are written within their bounds, a stage is
written within its limit, a statistic grows, numbers are blocked or set free, and the board changes.
A licence says which effects may be dispatched and which buffs may be borne, and with that which
statistics may grow and whether blocks may be lifted. Every operation on a fighter is a chain of
changes under the licence of the battle that it happens in.
-/

namespace PetDuel

/-- Which effects may be dispatched, by ability and options, and which buffs may be borne. -/
structure Licence where
  fires : Ability → Options → Prop
  bears : Buff → Prop
  stable : Buff.Stable bears
  /-- What a buff does while it is borne may be dispatched. -/
  effects : ∀ x, bears x → ∀ e ∈ x.template.effects, fires e.ability e.options
  /-- An escape may be dispatched, since it needs no content. -/
  escape : fires .escape .empty

namespace Licence

def Grows (L : Licence) (c : Channel) : Prop :=
  ∃ o, L.fires .addStats o ∧
    (Number.index? (Text.trim (o.getD "type" "5"))).bind Channel.ofIndex? = some c

def Unblocks (L : Licence) : Prop := ∃ o, L.fires .blockBuffs o ∧ o.getD "op" "+" = "-"

def bearing (B : Buff → Prop) (h : Buff.Stable B) : Licence where
  fires _ _ := True
  bears := B
  stable := h
  effects _ _ _ _ := trivial
  escape := trivial

def freed (L : Licence) : Licence := .bearing L.bears L.stable

def only (p : Ability → Options → Prop) (h : p .escape .empty) : Licence where
  fires := p
  bears x := ∀ e ∈ x.template.effects, p e.ability e.options
  stable := by
    intro x y hxy hx
    rw [hxy.template]
    exact hx
  effects _ h := h
  escape := h

end Licence

/-- The content keeps to a licence: its templates give buffs that may be borne, and its skills have
effects that may be dispatched. -/
structure Catalog.Licensed (L : Licence) (catalog : Catalog) : Prop where
  buffs : ∀ id t, catalog.buff? id = some t → ∀ turn value, L.bears (.new t turn value)
  skills : ∀ id s, catalog.skill? id = some s → ∀ e ∈ s.effects, L.fires e.ability e.options

inductive Fighter.Change (L : Licence) (f : Fighter) : Fighter → Prop
  | pet (pet : Pet) : Change L f { f with pet }
  | hp (n : Int32) : Change L f (f.setHp n)
  | anger (low high n : Int32) :
    Change L f ({ f with sheet := { f.sheet with minAnger := low, maxAnger := high } }.setAnger n)
  | stage (c : StageChannel) (n : Int32) : Change L f { f with sheet := f.sheet.setStage c n }
  | grow (c : Channel) (x : Double) (h : L.Grows c) :
    Change L f { f with sheet := f.sheet.addTo c x }
  | block (ids : List Int32) (ranges : List (Int32 × Int32)) :
    Change L f { f with board := (f.board.block ids).blockRanges ranges }
  | unblock (ids : List Int32) (ranges : List (Int32 × Int32)) (h : L.Unblocks) :
    Change L f { f with board := (f.board.unblock ids).unblockRanges ranges }
  | board (board : BuffBoard) (h : f.board.Change L.bears board) : Change L f { f with board }

abbrev Fighter.Changes (L : Licence) : Fighter → Fighter → Prop :=
  Relation.ReflTransGen (Fighter.Change L)

/-- What an operation on a fighter gives: the fighter after some changes, and a report of buffs that
may be borne. -/
structure Fighter.Outcome (L : Licence) (f : Fighter) (result : Fighter × BuffChange) : Prop where
  changes : f.Changes L result.1
  bears : result.2.Bears L.bears

def Fighter.Obeys (L : Licence) (op : Fighter → Fighter × BuffChange) : Prop :=
  ∀ f : Fighter, f.board.Bears L.bears → f.Outcome L (op f)

namespace Fighter

variable {L : Licence} {catalog : Catalog} {f g : Fighter}

theorem Change.bears (h : f.Change L g) (hf : f.board.Bears L.bears) : g.board.Bears L.bears := by
  cases h with
  | board board hboard => exact hboard.bears L.stable hf
  | _ => exact hf

theorem Changes.bears (h : f.Changes L g) (hf : f.board.Bears L.bears) :
    g.board.Bears L.bears := by
  induction h with
  | refl => exact hf
  | tail _ hlast ih => exact hlast.bears ih

theorem Outcome.none (h : f.Changes L g) : f.Outcome L (g, .none) := ⟨h, BuffChange.none_bears⟩

theorem changes_board {board : BuffBoard} (h : f.board.Changes L.bears board) :
    f.Changes L { f with board } := by
  induction h with
  | refl => exact .refl
  | tail _ hlast ih => exact ih.tail (.board _ hlast)

theorem obeys_onBoard {step : BuffBoard → BuffBoard × BuffChange}
    (h : ∀ board : BuffBoard, board.Bears L.bears → board.Outcome L.bears (step board)) :
    Obeys L (onBoard step) := by
  intro f hf
  have hstep := h f.board hf
  exact ⟨changes_board hstep.changes, hstep.bears⟩

/-- One operation after another, with one report of both. -/
theorem Obeys.andThen {op op' : Fighter → Fighter × BuffChange} (h : Obeys L op)
    (h' : Obeys L op') : Obeys L fun f => ((op' (op f).1).1, (op f).2 ++ (op' (op f).1).2) := by
  intro f hf
  have hfirst := h f hf
  have hrest := h' (op f).1 (hfirst.changes.bears hf)
  exact ⟨hfirst.changes.trans hrest.changes, hfirst.bears.append hrest.bears⟩

theorem obeys_syncMarker (hcatalog : catalog.Licensed L) (c : StageChannel) :
    Obeys L (syncMarker catalog c) := by
  intro f hf
  have houtcome := outcome_markers L.stable hcatalog.buffs hf c (f.sheet.stage c)
  exact ⟨changes_board houtcome.changes, houtcome.bears⟩

theorem obeys_syncEach (hcatalog : catalog.Licensed L) (cs : List StageChannel) :
    Obeys L (syncEach catalog cs) := by
  induction cs with
  | nil => exact fun f _ => .none .refl
  | cons c cs ih => exact (obeys_syncMarker hcatalog c).andThen ih

/-- Writing a stage obeys every licence that the content keeps to, since the only newcomer is a
marker of the content. -/
theorem obeys_setStage (hcatalog : catalog.Licensed L) (c : StageChannel) (n : Int32) :
    Obeys L (setStage catalog c n) := by
  intro f hf
  have hsync := obeys_syncMarker hcatalog c { f with sheet := f.sheet.setStage c n } hf
  exact ⟨hsync.changes.head (.stage c n), hsync.bears⟩

/-- The stages of several channels move one after the other, each as if it were written. -/
theorem changes_shiftEach (delta : Stages) (cs : List StageChannel) (f : Fighter) :
    f.Changes L { f with sheet := (StatSheet.shiftEach delta cs f.sheet).2 } := by
  induction cs generalizing f with
  | nil => exact .refl
  | cons c cs ih =>
    have hone : f.Changes L { f with sheet := f.sheet.shiftOne delta c } := by
      unfold StatSheet.shiftOne
      split
      · exact .refl
      · exact .single (.stage c (f.sheet.stage c + delta.get c))
    rw [StatSheet.shiftEach_cons]
    exact hone.trans (ih { f with sheet := f.sheet.shiftOne delta c })

theorem obeys_shiftStages (hcatalog : catalog.Licensed L) (delta : Fighter → Stages) :
    Obeys L fun f => f.shiftStages catalog (delta f) := by
  intro f hf
  have hshift := changes_shiftEach (L := L) (allowed f.board (delta f)) StageChannel.all f
  dsimp only [shiftStages, StatSheet.shiftStages]
  generalize StatSheet.shiftEach (allowed f.board (delta f)) StageChannel.all f.sheet = moved
    at hshift ⊢
  have hsync := obeys_syncEach hcatalog moved.1 _ (hshift.bears hf)
  exact ⟨hshift.trans hsync.changes, hsync.bears⟩

theorem obeys_resetStages {ctx : Context} (hcatalog : ctx.catalog.Licensed L)
    (cs : List StageChannel) : Obeys L (Deed.resetStages ctx cs) := by
  induction cs with
  | nil => exact fun f _ => .none .refl
  | cons c cs ih => exact (obeys_setStage hcatalog c 0).andThen ih

theorem obeys_removeListed {ctx : Context} (hcatalog : ctx.catalog.Licensed L) (ids : List Int32) :
    Obeys L (Deed.removeListed ctx ids) := by
  have hremove : Obeys L (onBoard fun board => board.removeWhere fun x => ids.contains x.id) :=
    obeys_onBoard fun _ h => h.removeWhere _
  exact hremove.andThen (obeys_resetStages hcatalog (Deed.markedChannels ids))

theorem changes_enrage (low high : Option Int32) (gain : Int32) (f : Fighter) :
    f.Changes L (Deed.enrage low high gain f) := .single (.anger _ _ _)

/-- Blocking is always allowed, lifting a block only where the licence says so. -/
theorem changes_blockOn {block : Bool} (h : block = true ∨ L.Unblocks) (ids : List Int32)
    (ranges : List (Int32 × Int32)) (f : Fighter) :
    f.Changes L (Deed.blockOn block ids ranges f) := by
  unfold Deed.blockOn
  split
  · exact .single (.block ids ranges)
  · rename_i hlifts
    exact .single (.unblock ids ranges (h.resolve_left hlifts))

/-- Every attribute of a fighter that can be written is one of the changes, and a write that is
refused is none. -/
theorem changes_write? (a : FighterAttribute) (x : Double) (f : Fighter) :
    f.Changes L ((f.write? a x).getD f) := by
  cases a with
  | stage c =>
    change f.Changes L { f with sheet := f.sheet.setStageOf c x.toInt32 }
    unfold StatSheet.setStageOf
    split
    · exact .single (.stage _ _)
    · exact .refl
  | hp => exact .single (.hp _)
  | anger | minAnger | maxAnger => exact .single (.anger _ _ _)
  | pet a =>
    cases hpet : f.pet.write? a x with
    | none =>
      simp only [write?, hpet, Option.map_none, Option.getD_none, Relation.ReflTransGen.refl]
    | some pet =>
      simp only [write?, hpet, Option.map_some, Option.getD_some]
      exact .single (.pet pet)
  | buffs | entryStat | maxHp | isDead | stat => exact .refl

/-- Writing an attribute brings the markers in line afterwards. -/
theorem obeys_writeFighter {ctx : Context} (hcatalog : ctx.catalog.Licensed L)
    (a : FighterAttribute) (x : Double) : Obeys L (Deed.writeFighter ctx a x) := by
  intro f hf
  have hwrite := changes_write? (L := L) a x f
  unfold Deed.writeFighter
  dsimp only
  split
  · have hsync := obeys_syncEach hcatalog StageChannel.all _ (hwrite.bears hf)
    exact ⟨hwrite.trans hsync.changes, hsync.bears⟩
  · exact .none hwrite

theorem obeys_writeBuff (buff : Int32) (a : BuffAttribute) (x : Double) :
    Obeys L (onBoard (Deed.writeBuff buff a x)) := by
  refine obeys_onBoard fun board h => ?_
  unfold Deed.writeBuff
  cases hupdate : board.update? buff fun b => (b.write? a x).getD b with
  | none => exact .none _ board
  | some result => exact h.update? L.stable (fun b => b.rewritten_write? a x) hupdate

end Fighter

end PetDuel
