import Mathlib.Algebra.Group.Int.Defs
import PetDuel.Pet.Fighter
import PetDuel.Proofs.Boards

/-!
Stages and the markers that show them. A fighter shows its stages when the markers of each
channel are exactly those that its stage calls for. Whatever moves a stage treats its own channel
only: afterwards that channel is shown again, and all others are as they were.
-/

namespace PetDuel

theorem toInt_neg_of_lt {n : Int32} (h : -2 ^ 31 < n.toInt) : (-n).toInt = -n.toInt := by
  have hhigh : n.toInt < 2 ^ 31 := n.toInt_lt
  rw [Int32.toInt_neg]
  exact Int.bmod_eq_of_le (by omega) (by omega)

theorem toInt_add_of_fits {m n : Int32} (hlow : -2 ^ 31 ≤ m.toInt + n.toInt)
    (hhigh : m.toInt + n.toInt < 2 ^ 31) : (m + n).toInt = m.toInt + n.toInt := by
  rw [Int32.toInt_add]
  exact Int.bmod_eq_of_le (by omega) (by omega)

/-- A number moved into an interval that is not empty. -/
theorem bounded_cases {lo hi : Int32} (h : lo ≤ hi) (n : Int32) :
    (n < lo ∧ bounded lo hi n = lo) ∨ (hi < n ∧ bounded lo hi n = hi) ∨
      (lo ≤ n ∧ n ≤ hi ∧ bounded lo hi n = n) := by
  have hmax : max hi lo = hi := by
    change (if hi ≤ lo then lo else hi) = hi
    split
    · exact Int32.le_antisymm h (by assumption)
    · rfl
  unfold bounded
  rw [hmax]
  by_cases hlow : n < lo
  · exact Or.inl ⟨hlow, if_pos hlow⟩
  · by_cases hhigh : hi < n
    · exact Or.inr (Or.inl ⟨hhigh, by rw [if_neg hlow, if_pos hhigh]⟩)
    · refine Or.inr (Or.inr ⟨Int32.not_lt.mp hlow, Int32.not_lt.mp hhigh, ?_⟩)
      rw [if_neg hlow, if_neg hhigh]

theorem bounded_of_mem {lo hi n : Int32} (hlow : lo ≤ n) (hhigh : n ≤ max lo hi) :
    bounded lo hi n = n := by
  have hmax : max hi lo = max lo hi := by
    change (if hi ≤ lo then lo else hi) = if lo ≤ hi then hi else lo
    grind [Int32.le_iff_toInt_le, Int32.toInt_inj]
  rw [bounded, hmax, if_neg (Int32.not_lt.mpr hlow), if_neg (Int32.not_lt.mpr hhigh)]

theorem bounded_of_le {lo hi n : Int32} (hlow : lo ≤ n) (hhigh : n ≤ hi) : bounded lo hi n = n := by
  have hmax : max lo hi = hi := if_pos (Int32.le_trans hlow hhigh)
  exact bounded_of_mem hlow (hmax.symm ▸ hhigh)

theorem StageChannel.mem_all (c : StageChannel) : c ∈ all := by cases c <;> decide

theorem StageChannel.nodup_all : all.Nodup := by decide

theorem StageChannel.channel_of_ofChannel? {c : Channel} {d : StageChannel}
    (h : ofChannel? c = some d) : c = d.channel := by
  cases c <;> cases h <;> rfl

/-- The number of a marker says which channel it marks and in which direction. -/
theorem markerOf?_markerId (c : StageChannel) (raised : Bool) :
    markerOf? (markerId c raised) = some (c, raised) := by
  cases c <;> cases raised <;> decide

theorem markerId_injective {c c' : StageChannel} {raised raised' : Bool}
    (h : markerId c raised = markerId c' raised') : c = c' ∧ raised = raised' := by
  have hsome := congrArg markerOf? h
  rw [markerOf?_markerId, markerOf?_markerId] at hsome
  exact Prod.mk.inj (Option.some.inj hsome)

/-- A number that is read as a marker is the number of that marker. -/
theorem markerId_of_markerOf? {id : Int32} {c : StageChannel} {raised : Bool}
    (h : markerOf? id = some (c, raised)) : id = markerId c raised := by
  obtain ⟨c', _, hc'⟩ := List.exists_of_findSome?_eq_some h
  split at hc'
  · cases hc'
    assumption
  · split at hc'
    · cases hc'
      assumption
    · cases hc'

theorem ne_markerId_of_markerOf?_eq_none {id : Int32} (h : markerOf? id = none) (c : StageChannel)
    (raised : Bool) : id ≠ markerId c raised := by
  rintro rfl
  rw [markerOf?_markerId] at h
  cases h

def showing (raised : Bool) (stage : Int) : List Int :=
  if raised then if 0 < stage then [stage] else []
  else if stage < 0 then [-stage] else []

/-- A direction shows nothing or one value, and the stage says which. -/
theorem showing_cases (raised : Bool) (stage : Int) :
    (showing raised stage = [] ∧ if raised then stage ≤ 0 else 0 ≤ stage) ∨
      ∃ w, showing raised stage = [w] ∧ if raised then 0 < stage else stage < 0 := by
  cases raised with
  | true =>
    by_cases h : 0 < stage
    · exact Or.inr ⟨stage, if_pos h, h⟩
    · exact Or.inl ⟨if_neg h, Int.not_lt.mp h⟩
  | false =>
    by_cases h : stage < 0
    · exact Or.inr ⟨-stage, if_pos h, h⟩
    · exact Or.inl ⟨if_neg h, Int.not_lt.mp h⟩

/-- The markers of a channel on the board are those that a stage calls for: one with the distance of
the stage from zero in its direction, and none in the other. -/
def BuffBoard.Shows (board : BuffBoard) (c : StageChannel) (stage : Int32) : Prop :=
  ∀ raised, board.valuesOf (markerId c raised) = showing raised stage.toInt

def Fighter.ShowsAt (f : Fighter) (c : StageChannel) : Prop := f.board.Shows c (f.sheet.stage c)

def Fighter.ShowsStages (f : Fighter) : Prop := ∀ c, f.ShowsAt c

def BuffTemplate.Quiet (t : BuffTemplate) : Prop :=
  ∀ e ∈ t.effects, e.timing ≠ .buffAdded ∧ e.timing ≠ .buffRemoved

instance (t : BuffTemplate) : Decidable t.Quiet :=
  inferInstanceAs (Decidable (∀ e ∈ t.effects, e.timing ≠ .buffAdded ∧ e.timing ≠ .buffRemoved))

/-- A template that a buff with a number may have: a quiet one, and for a marker the one that the
catalog has for it. -/
def Catalog.Genuine (catalog : Catalog) (id : Int32) (t : BuffTemplate) : Prop :=
  t.Quiet ∧ ∀ c raised, id = markerId c raised → catalog.buff? id = some t

/-- The catalog has a template for every marker, none of which leaves by itself, and quiet templates
only. -/
structure Catalog.MarksStages (catalog : Catalog) : Prop where
  registered : ∀ c raised, ∃ t, catalog.buff? (markerId c raised) = some t ∧ t.autoRemove = false
  quiet : ∀ t ∈ catalog.buffs, t.Quiet

/-- A fighter whose stages can be shown: their limit is not negative, the templates of the markers
admit every distance up to it, and the buffs on the board are genuine. -/
structure Fighter.Marked (catalog : Catalog) (f : Fighter) : Prop where
  limit : 0 ≤ f.sheet.stageLimit
  bounds : ∀ c raised t, catalog.buff? (markerId c raised) = some t →
    ∀ n, 0 < n → n ≤ f.sheet.stageLimit → t.minValue ≤ n ∧ n ≤ t.maxValue
  genuine : f.board.Of catalog.Genuine

structure Fighter.InLine (catalog : Catalog) (f : Fighter) : Prop extends f.Marked catalog where
  shows : f.ShowsStages

structure Fighter.Kept (catalog : Catalog) (f : Fighter) (result : Fighter × BuffChange) :
    Prop where
  marked : result.1.Marked catalog
  change : result.2.Of catalog.Genuine
  blocked : ∀ id, result.1.board.isBlocked id = f.board.isBlocked id

structure Fighter.SameAt (c : StageChannel) (f g : Fighter) : Prop where
  stage : g.sheet.stage c = f.sheet.stage c
  values : ∀ raised, g.board.valuesOf (markerId c raised) = f.board.valuesOf (markerId c raised)

namespace Fighter

variable {catalog : Catalog} {f g h : Fighter} {c d : StageChannel}

theorem SameAt.refl (c : StageChannel) (f : Fighter) : SameAt c f f := ⟨rfl, fun _ => rfl⟩

theorem SameAt.trans (hfg : SameAt c f g) (hgh : SameAt c g h) : SameAt c f h :=
  ⟨hgh.stage.trans hfg.stage, fun raised => (hgh.values raised).trans (hfg.values raised)⟩

/-- Whether a stage is shown depends on the stage and on its two markers alone. -/
theorem SameAt.shows (hfg : SameAt c f g) (hf : f.ShowsAt c) : g.ShowsAt c := by
  intro raised
  rw [hfg.values, hfg.stage]
  exact hf raised

/-- A change of the board that leaves the markers of a channel alone. -/
theorem sameAt_onBoard {step : BuffBoard → BuffBoard × BuffChange}
    (hvalues : ∀ raised,
      (step f.board).1.valuesOf (markerId c raised) = f.board.valuesOf (markerId c raised)) :
    SameAt c f (f.onBoard step).1 := ⟨rfl, hvalues⟩

theorem Marked.onBoard (hf : f.Marked catalog) {step : BuffBoard → BuffBoard × BuffChange}
    (hstep : f.board.Kept catalog.Genuine (step f.board)) : f.Kept catalog (f.onBoard step) :=
  ⟨⟨hf.limit, hf.bounds, hstep.active⟩, hstep.change, hstep.blocked⟩

theorem Marked.kept_none (hf : f.Marked catalog) : f.Kept catalog (f, .none) :=
  ⟨hf, BuffChange.none_of, fun _ => rfl⟩

theorem Kept.append {result result' : Fighter × BuffChange} (hf : f.Kept catalog result)
    (hrest : result.1.Kept catalog result') :
    f.Kept catalog (result'.1, result.2 ++ result'.2) :=
  ⟨hrest.marked, hf.change.append hrest.change,
    fun id => (hrest.blocked id).trans (hf.blocked id)⟩

end Fighter

theorem Catalog.buff?_cases {catalog : Catalog} {id : Int32} {t : BuffTemplate}
    (h : catalog.buff? id = some t) : t ∈ catalog.buffs ∧ t.id = id := by
  have hfind : catalog.buffs.find? (fun x => x.id == id) = some t := h
  have hkey := List.find?_some hfind
  exact ⟨List.mem_of_find?_eq_some hfind, beq_iff_eq.mp hkey⟩

theorem Catalog.MarksStages.genuine {catalog : Catalog} (hcatalog : catalog.MarksStages)
    {id : Int32} {t : BuffTemplate} (h : catalog.buff? id = some t) : catalog.Genuine t.id t := by
  obtain ⟨hmem, rfl⟩ := Catalog.buff?_cases h
  exact ⟨hcatalog.quiet t hmem, fun _ _ _ => h⟩

theorem BuffTemplate.limit_of_bounds {t : BuffTemplate} {n : Int32}
    (h : t.minValue ≤ n ∧ n ≤ t.maxValue) : t.limit n = n :=
  bounded_of_le h.1 h.2

def StatSheet.Within (s : StatSheet) (c : StageChannel) : Prop :=
  -s.stageLimit.toInt ≤ (s.stage c).toInt ∧ (s.stage c).toInt ≤ s.stageLimit.toInt

namespace Fighter

/-- A stage above the lowest word calls for one marker, which shows its distance from zero, or for
none. -/
theorem markerFor?_cases (c : StageChannel) {stage : Int32} (hstage : -2 ^ 31 < stage.toInt) :
    (∃ raised, markerFor? c stage = some (markerId c raised) ∧ 0 < distance stage ∧
      showing raised stage.toInt = [(distance stage).toInt] ∧
      showing (!raised) stage.toInt = []) ∨
    (markerFor? c stage = none ∧ ∀ raised, showing raised stage.toInt = []) := by
  have hneg := toInt_neg_of_lt hstage
  have hzero : (0 : Int32).toInt = 0 := rfl
  by_cases hraised : 0 < stage
  -- A raised stage is its own distance, and calls for the marker of raised stages.
  · have hpos : 0 < stage.toInt := Int32.lt_iff_toInt_lt.mp hraised
    have hdistance : distance stage = stage := if_neg (Int32.not_lt.mpr (Int32.le_of_lt hraised))
    refine Or.inl ⟨true, if_pos hraised, hdistance.symm ▸ hraised, ?_, ?_⟩
    · change (if 0 < stage.toInt then [stage.toInt] else []) = _
      rw [if_pos hpos, hdistance]
    · change (if stage.toInt < 0 then [-stage.toInt] else []) = _
      rw [if_neg (by omega)]
  · by_cases hlowered : stage < 0
    -- The distance of a lowered stage is its negative, which is a word above the lowest one.
    · have hnegative : stage.toInt < 0 := Int32.lt_iff_toInt_lt.mp hlowered
      have hdistance : distance stage = -stage := if_pos hlowered
      refine Or.inl ⟨false, ?_, ?_, ?_, ?_⟩
      · rw [markerFor?, if_neg hraised, if_pos hlowered]
      · rw [hdistance, Int32.lt_iff_toInt_lt, hneg]
        omega
      · change (if stage.toInt < 0 then [-stage.toInt] else []) = _
        rw [if_pos hnegative, hdistance, hneg]
      · change (if 0 < stage.toInt then [stage.toInt] else []) = _
        rw [if_neg (by omega)]
    · have hnone : stage.toInt = 0 := by
        have hle := Int32.le_iff_toInt_le.mp (Int32.not_lt.mp hraised)
        have hge := Int32.le_iff_toInt_le.mp (Int32.not_lt.mp hlowered)
        omega
      refine Or.inr ⟨by rw [markerFor?, if_neg hraised, if_neg hlowered], fun raised => ?_⟩
      rw [hnone]
      cases raised <;> rfl

variable {catalog : Catalog} {f : Fighter} {c : StageChannel} {board : BuffBoard} {stage : Int32}
  {id : Int32}

theorem outcome_dropMarkers {B : Buff → Prop} (hB : Buff.Stable B) (h : board.Bears B)
    (c : StageChannel) (stage : Int32) : board.Outcome B (dropMarkers c stage board) :=
  h.each hB fun _ _ _ hboard => hboard.removeWhere _

theorem dropMarkers_kept (h : board.Of catalog.Genuine) (c : StageChannel) (stage : Int32) :
    board.Kept catalog.Genuine (dropMarkers c stage board) :=
  (outcome_dropMarkers (BuffBoard.stable_kind catalog.Genuine) h c stage).kept h

/-- What stays of the markers of a channel is the one that its stage calls for. -/
theorem valuesOf_dropMarkers (c : StageChannel) (stage : Int32) (board : BuffBoard) (id : Int32) :
    (dropMarkers c stage board).1.valuesOf id =
      if (id = markerId c true ∨ id = markerId c false) ∧ markerFor? c stage ≠ some id then []
      else board.valuesOf id := by
  have hmem : (id ∈ [markerId c true, markerId c false].filter
      fun id => some id != markerFor? c stage) ↔
      (id = markerId c true ∨ id = markerId c false) ∧ markerFor? c stage ≠ some id := by
    rw [List.mem_filter, List.mem_cons, List.mem_singleton, bne_iff_ne, ne_comm]
  rw [dropMarkers, BuffBoard.valuesOf_each_removeId]
  simp only [hmem]

/-- Raising a marker is an addition or a rewriting, and the buff comes from the content. -/
theorem outcome_raiseMarker {B : Buff → Prop} (hB : Buff.Stable B)
    (hcatalog : ∀ id t, catalog.buff? id = some t → ∀ turn value, B (.new t turn value))
    (h : board.Bears B) (c : StageChannel) (stage : Int32) :
    board.Outcome B (raiseMarker catalog c stage board) := by
  unfold raiseMarker
  split
  · exact .none B board
  · split
    · rename_i hupdate
      exact h.update? hB (fun x => x.rewritten_setValue (distance stage)) hupdate
    · split
      · rename_i ht
        exact h.add hB (hcatalog _ _ ht permanentTurn (distance stage))
      · exact .none B board

/-- The markers of a channel are brought in line by changes of the board, to which only buffs come
that the content offers. -/
theorem outcome_markers {B : Buff → Prop} (hB : Buff.Stable B)
    (hcatalog : ∀ id t, catalog.buff? id = some t → ∀ turn value, B (.new t turn value))
    (h : board.Bears B) (c : StageChannel) (stage : Int32) :
    board.Outcome B ((raiseMarker catalog c stage (dropMarkers c stage board).1).1,
      (dropMarkers c stage board).2 ++
        (raiseMarker catalog c stage (dropMarkers c stage board).1).2) := by
  have hdrop := outcome_dropMarkers hB h c stage
  exact hdrop.append (outcome_raiseMarker hB hcatalog (hdrop.changes.bears hB h) c stage)

/-- A marker that goes up is not seen under another number. -/
theorem valuesOf_raiseMarker_of_ne (h : markerFor? c stage ≠ some id) :
    (raiseMarker catalog c stage board).1.valuesOf id = board.valuesOf id := by
  unfold raiseMarker
  split
  · rfl
  · rename_i n hn
    have hne : n ≠ id := fun hid => h (hid ▸ hn)
    split
    · rename_i hupdate
      exact BuffBoard.valuesOf_update?_of_ne (f := fun x => x.setValue (distance stage))
        (fun _ => rfl) hne hupdate
    · split
      · rename_i t ht
        have hid : t.id ≠ id := fun hid => hne ((Catalog.buff?_cases ht).2.symm.trans hid)
        exact BuffBoard.valuesOf_add_of_ne hid
      · rfl

/-- The marker that a stage calls for gets its value when it is there alone, and comes with it when
it is not there and not blocked. -/
theorem valuesOf_raiseMarker_self (hcatalog : catalog.MarksStages) {raised : Bool}
    (hgenuine : board.Of catalog.Genuine)
    (hbounds : ∀ t, catalog.buff? (markerId c raised) = some t →
      t.minValue ≤ distance stage ∧ distance stage ≤ t.maxValue)
    (hcalled : markerFor? c stage = some (markerId c raised))
    (hroom : (∃ w, board.valuesOf (markerId c raised) = [w]) ∨
      (board.valuesOf (markerId c raised) = [] ∧ board.isBlocked (markerId c raised) = false)) :
    (raiseMarker catalog c stage board).1.valuesOf (markerId c raised) =
      [(distance stage).toInt] := by
  obtain ⟨t, ht, hstays⟩ := hcatalog.registered c raised
  have hlimit : t.limit (distance stage) = distance stage :=
    BuffTemplate.limit_of_bounds (hbounds t ht)
  simp only [raiseMarker, hcalled]
  rcases hroom with ⟨w, hw⟩ | ⟨hnone, hblocked⟩
  -- The marker is there: its template is the registered one, and so the value is not cut off.
  · have hvalue : ∀ x ∈ board.active, x.id = markerId c raised →
        (x.setValue (distance stage)).value.toInt = (distance stage).toInt ∧
          (x.setValue (distance stage)).isSpent = false := by
      intro x hx hid
      have htemplate : x.template = t := by
        have hregistered := (hgenuine x hx).2 c raised hid
        rw [hid, ht] at hregistered
        exact (Option.some.inj hregistered).symm
      constructor
      · rw [Buff.setValue, htemplate, hlimit]
      · rw [Buff.isSpent, Buff.setValue, htemplate, hstays, Bool.false_and]
    obtain ⟨result, hupdate, hvalues⟩ :=
      BuffBoard.valuesOf_update?_of_single (f := fun x => x.setValue (distance stage))
        (fun _ => rfl) hw hvalue
    rw [hupdate]
    exact hvalues
  -- It is not there: nothing can be updated, and a new one is let in.
  · obtain ⟨hupdate, hcontains⟩ := BuffBoard.update?_of_valuesOf_nil hnone
      fun x => x.setValue (distance stage)
    have hid : t.id = markerId c raised := (Catalog.buff?_cases ht).2
    have hadd : board.add (.new t permanentTurn (distance stage)) =
        board.push (.new t permanentTurn (distance stage)) := by
      simp only [BuffBoard.add, Buff.new, hid, hblocked, hcontains, Bool.not_false, if_true,
        Bool.false_eq_true, if_false]
    have hvalues := BuffBoard.valuesOf_push_self board (.new t permanentTurn (distance stage))
    simp only [Buff.new, hid, hnone, hlimit, List.nil_append] at hvalues hadd
    simp only [hupdate, ht, Buff.new, hid, hlimit, hadd, hvalues]

/-- There is room for the marker that the stage of a channel calls for: it is there alone, or it is
not there and no block turns it away. -/
def Room (f : Fighter) (c : StageChannel) : Prop :=
  ∀ raised, showing raised (f.sheet.stage c).toInt ≠ [] →
    (∃ w, f.board.valuesOf (markerId c raised) = [w]) ∨
      (f.board.valuesOf (markerId c raised) = [] ∧ f.board.isBlocked (markerId c raised) = false)

variable {d : StageChannel} {g : Fighter} {cs : List StageChannel}

theorem SameAt.room (hfg : SameAt c f g)
    (hblocked : ∀ id, g.board.isBlocked id = f.board.isBlocked id) (hf : f.Room c) : g.Room c := by
  intro raised hcalled
  rw [hfg.values, hblocked]
  rw [hfg.stage] at hcalled
  exact hf raised hcalled

/-- Where a stage is shown there is room to show it. -/
theorem ShowsAt.room (hf : f.ShowsAt c) : f.Room c := by
  intro raised hcalled
  obtain ⟨w, hw, _⟩ := (showing_cases raised (f.sheet.stage c).toInt).resolve_left
    fun hnone => hcalled hnone.1
  exact Or.inl ⟨w, (hf raised).trans hw⟩

theorem markerFor?_eq_some (h : markerFor? c stage = some id) :
    ∃ raised, id = markerId c raised := by
  unfold markerFor? at h
  split at h
  · exact ⟨true, (Option.some.inj h).symm⟩
  · split at h
    · exact ⟨false, (Option.some.inj h).symm⟩
    · cases h

/-- A stage within its limit is no further from zero than the limit. -/
theorem distance_le (h : f.sheet.Within c) : distance (f.sheet.stage c) ≤ f.sheet.stageLimit := by
  have hlimit : f.sheet.stageLimit.toInt < 2 ^ 31 := f.sheet.stageLimit.toInt_lt
  have hlow := h.1
  have hneg := toInt_neg_of_lt (n := f.sheet.stage c) (by omega)
  rw [Int32.le_iff_toInt_le]
  unfold distance
  split
  · omega
  · exact h.2

theorem syncMarker_sheet (catalog : Catalog) (c : StageChannel) (f : Fighter) :
    (f.syncMarker catalog c).1.sheet = f.sheet := rfl

theorem Marked.syncMarker (hcatalog : catalog.MarksStages) (hf : f.Marked catalog)
    (c : StageChannel) : f.Kept catalog (f.syncMarker catalog c) := by
  have houtcome := outcome_markers (BuffBoard.stable_kind catalog.Genuine)
    (fun _ _ ht _ _ => hcatalog.genuine ht) hf.genuine c (f.sheet.stage c)
  exact hf.onBoard (houtcome.kept hf.genuine)

/-- Bringing the marker of one channel in line is not seen at another channel. -/
theorem sameAt_syncMarker (h : d ≠ c) : SameAt d f (f.syncMarker catalog c).1 := by
  refine sameAt_onBoard fun raised => ?_
  have hcalled : markerFor? c (f.sheet.stage c) ≠ some (markerId d raised) := fun hsome =>
    have ⟨_, hid⟩ := markerFor?_eq_some hsome
    h (markerId_injective hid).1
  have hother : ¬(markerId d raised = markerId c true ∨ markerId d raised = markerId c false) := by
    rintro (hid | hid)
    · exact h (markerId_injective hid).1
    · exact h (markerId_injective hid).1
  refine (valuesOf_raiseMarker_of_ne hcalled).trans ?_
  rw [valuesOf_dropMarkers, if_neg fun hboth => hother hboth.1]

/-- Bringing the marker of a channel in line shows its stage, where there is room. A marker in the
wrong direction goes down first, and then the right one goes up or is written again. -/
theorem showsAt_syncMarker (hcatalog : catalog.MarksStages) (hf : f.Marked catalog)
    (hwithin : f.sheet.Within c) (hroom : f.Room c) : (f.syncMarker catalog c).1.ShowsAt c := by
  intro raised
  have hlimit : f.sheet.stageLimit.toInt < 2 ^ 31 := f.sheet.stageLimit.toInt_lt
  have hdropped := dropMarkers_kept hf.genuine c (f.sheet.stage c)
  have hdrop := valuesOf_dropMarkers c (f.sheet.stage c) f.board
  change (raiseMarker catalog c (f.sheet.stage c)
    (dropMarkers c (f.sheet.stage c) f.board).1).1.valuesOf (markerId c raised) =
      showing raised (f.sheet.stage c).toInt
  have hmarker (raised : Bool) :
      markerId c raised = markerId c true ∨ markerId c raised = markerId c false := by
    cases raised
    · exact Or.inr rfl
    · exact Or.inl rfl
  -- Either one marker is called for and the other direction is cleared, or both are cleared.
  have hstage : -2 ^ 31 < (f.sheet.stage c).toInt := by
    have hlow := hwithin.1
    omega
  rcases markerFor?_cases c hstage with
    ⟨up, hcalled, hpos, hshown, hother⟩ | ⟨hnone, hnothing⟩
  · by_cases hup : raised = up
    · subst hup
      rw [hshown]
      refine valuesOf_raiseMarker_self hcatalog hdropped.active (fun t ht => ?_) hcalled ?_
      · exact hf.bounds c raised t ht _ hpos (distance_le hwithin)
      · rw [hdrop, if_neg fun hboth => hboth.2 hcalled, hdropped.blocked]
        exact hroom raised (hshown ▸ List.cons_ne_nil _ _)
    · obtain rfl : raised = !up := Bool.eq_not_of_ne hup
      have hne : markerFor? c (f.sheet.stage c) ≠ some (markerId c (!up)) := fun hsome =>
        hup (markerId_injective (Option.some.inj (hcalled.symm.trans hsome))).2.symm
      rw [hother, valuesOf_raiseMarker_of_ne hne, hdrop, if_pos ⟨hmarker _, hne⟩]
  · have hne : markerFor? c (f.sheet.stage c) ≠ some (markerId c raised) := by
      rw [hnone]
      exact Option.some_ne_none _ |>.symm
    rw [hnothing, valuesOf_raiseMarker_of_ne hne, hdrop, if_pos ⟨hmarker _, hne⟩]

theorem syncEach_cons (catalog : Catalog) (c : StageChannel) (cs : List StageChannel)
    (f : Fighter) : f.syncEach catalog (c :: cs) =
      (((f.syncMarker catalog c).1.syncEach catalog cs).1,
        (f.syncMarker catalog c).2 ++ ((f.syncMarker catalog c).1.syncEach catalog cs).2) := rfl

/-- Bringing several channels in line treats these alone. -/
theorem syncEach_spec (hcatalog : catalog.MarksStages) (hf : f.Marked catalog)
    (cs : List StageChannel) : f.Kept catalog (f.syncEach catalog cs) ∧
      (∀ d ∉ cs, SameAt d f (f.syncEach catalog cs).1) ∧
      ((∀ c ∈ cs, f.sheet.Within c ∧ f.Room c) →
        ∀ c ∈ cs, (f.syncEach catalog cs).1.ShowsAt c) := by
  induction cs generalizing f with
  | nil => exact ⟨hf.kept_none, fun d _ => .refl d f, fun _ => List.forall_mem_nil _⟩
  | cons c cs ih =>
    have hfirst := hf.syncMarker hcatalog c
    obtain ⟨hkept, hsame, hshows⟩ := ih hfirst.marked
    rw [syncEach_cons]
    refine ⟨hfirst.append hkept, fun d hd => ?_, fun hready d hd => ?_⟩
    · rw [List.mem_cons, not_or] at hd
      exact (sameAt_syncMarker hd.1).trans (hsame d hd.2)
    · -- What the first channel shows, and the room for the others, last through the rest.
      obtain ⟨hwithin, hroom⟩ := hready c List.mem_cons_self
      have hshown : (f.syncMarker catalog c).1.ShowsAt c :=
        showsAt_syncMarker hcatalog hf hwithin hroom
      by_cases hmem : d ∈ cs
      · refine hshows (fun c' hc' => ?_) d hmem
        obtain ⟨hwithin', hroom'⟩ := hready c' (List.mem_cons_of_mem _ hc')
        rw [syncMarker_sheet]
        refine ⟨hwithin', ?_⟩
        by_cases hcc : c' = c
        · rw [hcc]
          exact hshown.room
        · exact (sameAt_syncMarker hcc).room hfirst.blocked hroom'
      · obtain rfl : d = c := (List.mem_cons.mp hd).resolve_right hmem
        exact (hsame d hmem).shows hshown

end Fighter

theorem Stages.get_set (s : Stages) (c d : StageChannel) (n : Int32) :
    (s.set c n).get d = if c = d then n else s.get d := by
  have hindex : c.index.val = d.index.val ↔ c = d := by
    cases c <;> cases d <;> decide
  refine (Vector.getElem_set c.index.isLt d.index.isLt).trans ?_
  simp only [hindex]
  rfl

theorem Stages.get_ofFn (f : StageChannel → Int32) (c : StageChannel) :
    (Stages.ofFn f).get c = f c := by
  cases c <;> rfl

theorem Stages.get_toStats (s : Stages) (c : StageChannel) :
    s.toStats.get c.channel = Double.ofInt32 (s.get c) := by
  cases c <;> rfl

theorem Stages.get_toStats_of_ofChannel?_eq_none {c : Channel}
    (h : StageChannel.ofChannel? c = none) (s : Stages) : s.toStats.get c = Double.ofInt 0 := by
  cases c <;> first | rfl | cases h

theorem Stages.ext_get {s t : Stages} (h : ∀ c, s.get c = t.get c) : s = t := by
  obtain ⟨v⟩ := s
  obtain ⟨w⟩ := t
  refine congrArg Stages.mk (Vector.ext fun i hi => ?_)
  match i, hi with
  | 0, _ => exact h .attack
  | 1, _ => exact h .defense
  | 2, _ => exact h .magicAttack
  | 3, _ => exact h .magicDefense
  | 4, _ => exact h .speed

theorem Stages.set_get (s : Stages) (c : StageChannel) : s.set c (s.get c) = s := by
  refine Stages.ext_get fun d => ?_
  rw [Stages.get_set]
  split
  · rename_i h
    rw [h]
  · rfl

namespace StatSheet

variable {s : StatSheet} {c d : StageChannel} {delta : Stages} {cs : List StageChannel}

/-- A stage moved to within its limit, and not across zero. -/
theorem limitStage_spec (h : 0 ≤ s.stageLimit) (n : Int32) :
    -s.stageLimit.toInt ≤ (s.limitStage n).toInt ∧ (s.limitStage n).toInt ≤ s.stageLimit.toInt ∧
      (0 < (s.limitStage n).toInt → (s.limitStage n).toInt ≤ n.toInt) ∧
      ((s.limitStage n).toInt < 0 → n.toInt ≤ (s.limitStage n).toInt) := by
  have hlow : 0 ≤ s.stageLimit.toInt := Int32.le_iff_toInt_le.mp h
  have hneg := toInt_neg_of_lt (n := s.stageLimit) (by omega)
  have hle : -s.stageLimit ≤ s.stageLimit := Int32.le_iff_toInt_le.mpr (by omega)
  unfold limitStage
  rcases bounded_cases hle n with ⟨hn, hr⟩ | ⟨hn, hr⟩ | ⟨hn, hn', hr⟩
  · have hn := Int32.lt_iff_toInt_lt.mp hn
    rw [hr]
    omega
  · have hn := Int32.lt_iff_toInt_lt.mp hn
    rw [hr]
    omega
  · have hn := Int32.le_iff_toInt_le.mp hn
    have hn' := Int32.le_iff_toInt_le.mp hn'
    rw [hr]
    omega

theorem stage_setStage (s : StatSheet) (c d : StageChannel) (n : Int32) :
    (s.setStage c n).stage d = if c = d then s.limitStage n else s.stage d :=
  s.stages.get_set c d _

def shiftOne (delta : Stages) (c : StageChannel) (s : StatSheet) : StatSheet :=
  if delta.get c = 0 then s else s.shiftStage c (delta.get c)

/-- A channel is moved by its own difference, and only if that is not zero. -/
theorem stage_shiftOne (delta : Stages) (c d : StageChannel) (s : StatSheet) :
    (s.shiftOne delta c).stage d =
      if c = d ∧ delta.get d ≠ 0 then s.limitStage (s.stage d + delta.get d) else s.stage d := by
  unfold shiftOne
  by_cases hzero : delta.get c = 0
  · rw [if_pos hzero, if_neg]
    rintro ⟨rfl, hmoves⟩
    exact hmoves hzero
  · rw [if_neg hzero]
    refine (s.stages.get_set c d _).trans ?_
    by_cases hcd : c = d
    · subst hcd
      rw [if_pos rfl, if_pos ⟨rfl, hzero⟩]
    · rw [if_neg hcd, if_neg fun hboth => hcd hboth.1]
      rfl

theorem stageLimit_shiftOne (delta : Stages) (c : StageChannel) (s : StatSheet) :
    (s.shiftOne delta c).stageLimit = s.stageLimit := by
  unfold shiftOne
  split <;> rfl

theorem shiftEach_cons (delta : Stages) (c : StageChannel) (cs : List StageChannel)
    (s : StatSheet) : shiftEach delta (c :: cs) s =
      (if (s.shiftOne delta c).stage c = s.stage c then (shiftEach delta cs (s.shiftOne delta c)).1
        else c :: (shiftEach delta cs (s.shiftOne delta c)).1,
        (shiftEach delta cs (s.shiftOne delta c)).2) := rfl

/-- Stages move within their limit, each by its own change, and the channels whose stage is another
one afterwards are listed. -/
theorem shiftEach_spec (delta : Stages) (hcs : cs.Nodup) (s : StatSheet) :
    (shiftEach delta cs s).2.stageLimit = s.stageLimit ∧
      (∀ d, (shiftEach delta cs s).2.stage d = if d ∈ cs ∧ delta.get d ≠ 0
        then s.limitStage (s.stage d + delta.get d) else s.stage d) ∧
      ∀ d, d ∈ (shiftEach delta cs s).1 ↔ (shiftEach delta cs s).2.stage d ≠ s.stage d := by
  induction cs generalizing s with
  | nil =>
    refine ⟨rfl, fun d => (if_neg fun h => List.not_mem_nil h.1).symm, fun d => ?_⟩
    exact ⟨fun h => absurd h List.not_mem_nil, fun h => absurd rfl h⟩
  | cons c cs ih =>
    obtain ⟨hc, hcs⟩ := List.nodup_cons.mp hcs
    obtain ⟨hlimit, hstage, hmem⟩ := ih hcs (s.shiftOne delta c)
    rw [shiftEach_cons]
    dsimp only
    have hlimit' := stageLimit_shiftOne delta c s
    have hone (d : StageChannel) := stage_shiftOne delta c d s
    -- The first channel does not come again, and the others are as they were.
    have hlast : (shiftEach delta cs (s.shiftOne delta c)).2.stage c =
        (s.shiftOne delta c).stage c := by
      rw [hstage, if_neg fun hboth => hc hboth.1]
    have hother {d : StageChannel} (h : c ≠ d) : (s.shiftOne delta c).stage d = s.stage d := by
      rw [hone, if_neg fun hboth => h hboth.1]
    have hstage' (d : StageChannel) : (shiftEach delta cs (s.shiftOne delta c)).2.stage d =
        if d ∈ c :: cs ∧ delta.get d ≠ 0 then s.limitStage (s.stage d + delta.get d)
        else s.stage d := by
      by_cases hdc : c = d
      · subst hdc
        rw [hlast, hone]
        simp only [List.mem_cons_self, true_and]
      · have hlimits (n : Int32) : (s.shiftOne delta c).limitStage n = s.limitStage n := by
          rw [limitStage, hlimit', limitStage]
        rw [hstage, hother hdc, hlimits]
        simp only [List.mem_cons, Ne.symm hdc, false_or]
    refine ⟨hlimit.trans hlimit', hstage', fun d => ?_⟩
    have hnot : c ∉ (shiftEach delta cs (s.shiftOne delta c)).1 := fun h =>
      (hmem c).mp h (hlast)
    by_cases hdc : c = d
    · subst hdc
      rw [hlast]
      split
      · rename_i hsame
        exact ⟨fun h => absurd h hnot, fun h => absurd hsame h⟩
      · rename_i hmoved
        exact ⟨fun _ => hmoved, fun _ => List.mem_cons_self⟩
    · rw [← hother hdc, ← hmem d]
      split
      · rfl
      · exact ⟨fun h => (List.mem_cons.mp h).resolve_left (Ne.symm hdc), List.mem_cons_of_mem _⟩

/-- The channels whose stage is another one are listed in their order. -/
theorem shiftEach_fst (delta : Stages) (hcs : cs.Nodup) (s : StatSheet) :
    (shiftEach delta cs s).1 =
      cs.filter fun d => (shiftEach delta cs s).2.stage d ≠ s.stage d := by
  induction cs generalizing s with
  | nil => rfl
  | cons c cs ih =>
    obtain ⟨hc, hcs⟩ := List.nodup_cons.mp hcs
    obtain ⟨_, hstage, _⟩ := shiftEach_spec delta hcs (s.shiftOne delta c)
    -- The rest moves what comes after the first channel, and leaves this one alone.
    have hfirst : (shiftEach delta cs (s.shiftOne delta c)).2.stage c =
        (s.shiftOne delta c).stage c := by
      rw [hstage, if_neg fun hboth => hc hboth.1]
    have hrest : (cs.filter fun d => (shiftEach delta cs (s.shiftOne delta c)).2.stage d ≠
        (s.shiftOne delta c).stage d) =
        cs.filter fun d => (shiftEach delta cs (s.shiftOne delta c)).2.stage d ≠ s.stage d := by
      refine List.filter_congr fun d hd => ?_
      have hne : c ≠ d := fun h => hc (h ▸ hd)
      rw [stage_shiftOne, if_neg fun hboth => hne hboth.1]
    rw [shiftEach_cons]
    dsimp only
    rw [ih hcs, hrest, List.filter_cons, hfirst]
    by_cases hsame : (s.shiftOne delta c).stage c = s.stage c
    · rw [if_pos hsame, if_neg (by simp [hsame])]
    · rw [if_neg hsame, if_pos (by simp [hsame])]

theorem stage_shiftStages (s : StatSheet) (delta : Stages) (c : StageChannel) :
    (s.shiftStages delta).2.stage c =
      if delta.get c ≠ 0 then s.limitStage (s.stage c + delta.get c) else s.stage c := by
  obtain ⟨_, hstage, _⟩ := shiftEach_spec delta StageChannel.nodup_all s
  refine (hstage c).trans ?_
  simp only [c.mem_all, true_and]

/-- The channels that are reported as moved are those with another stage than before. -/
theorem shiftStages_fst (s : StatSheet) (delta : Stages) :
    (s.shiftStages delta).1 =
      StageChannel.all.filter fun c => (s.shiftStages delta).2.stage c ≠ s.stage c :=
  shiftEach_fst delta StageChannel.nodup_all s

end StatSheet

namespace Fighter

variable {catalog : Catalog} {f : Fighter} {c d : StageChannel} {delta : Stages}

/-- The additions that a movement of stages makes stay within a word. -/
def CanShift (f : Fighter) (delta : Stages) : Prop :=
  ∀ c, -2 ^ 31 ≤ (f.sheet.stage c).toInt + ((allowed f.board delta).get c).toInt ∧
    (f.sheet.stage c).toInt + ((allowed f.board delta).get c).toInt < 2 ^ 31

/-- A change of stage that the board lets through goes in a direction that is not blocked. -/
theorem not_blocked_of_allowed (board : BuffBoard) (delta : Stages) (c : StageChannel)
    (h : (allowed board delta).get c ≠ 0) :
    board.isBlocked (markerId c (decide (0 < (allowed board delta).get c))) = false := by
  have hget : (allowed board delta).get c =
      if delta.get c ≠ 0 && board.isBlocked (markerId c (decide (0 < delta.get c))) then 0
      else delta.get c := Stages.get_ofFn _ c
  by_cases hdropped :
      (delta.get c ≠ 0 && board.isBlocked (markerId c (decide (0 < delta.get c)))) = true
  · rw [if_pos hdropped] at hget
    exact absurd hget h
  · rw [if_neg hdropped] at hget
    rw [hget] at h ⊢
    refine Bool.eq_false_iff.mpr fun hblocked => hdropped ?_
    rw [hblocked, Bool.and_true]
    exact decide_eq_true h

/-- A stage that moves through the board into a direction that it did not have before finds that
direction free. -/
theorem room_of_shifted (hf : 0 ≤ f.sheet.stageLimit) (hshows : f.ShowsAt c)
    (hshift : f.CanShift delta) (hmoves : (allowed f.board delta).get c ≠ 0) {sheet : StatSheet}
    (hstage : sheet.stage c =
      f.sheet.limitStage (f.sheet.stage c + (allowed f.board delta).get c)) :
    ({ f with sheet } : Fighter).Room c := by
  have hfree := not_blocked_of_allowed f.board delta c hmoves
  have hsum := toInt_add_of_fits (hshift c).1 (hshift c).2
  obtain ⟨_, _, hup, hdown⟩ :=
    StatSheet.limitStage_spec hf (f.sheet.stage c + (allowed f.board delta).get c)
  have hzero : (0 : Int32).toInt = 0 := rfl
  intro raised hcalled
  change showing raised (sheet.stage c).toInt ≠ [] at hcalled
  change (∃ w, f.board.valuesOf (markerId c raised) = [w]) ∨
    (f.board.valuesOf (markerId c raised) = [] ∧ f.board.isBlocked (markerId c raised) = false)
  rw [hshows raised]
  rcases showing_cases raised (f.sheet.stage c).toInt with ⟨hnone, hold⟩ | ⟨w, hw, _⟩
  · -- The stage crosses from the other side of zero, and so its change goes this way.
    obtain ⟨_, _, hnew⟩ := (showing_cases raised (sheet.stage c).toInt).resolve_left
      fun hnot => hcalled hnot.1
    have hway : decide (0 < (allowed f.board delta).get c) = raised := by
      rw [hstage] at hnew
      cases raised with
      | true =>
        rw [if_pos rfl] at hold hnew
        have hle := hup hnew
        exact decide_eq_true (Int32.lt_iff_toInt_lt.mpr (by omega))
      | false =>
        rw [if_neg Bool.false_ne_true] at hold hnew
        have hle := hdown hnew
        exact decide_eq_false (Int32.not_lt.mpr (Int32.le_iff_toInt_le.mpr (by omega)))
    exact Or.inr ⟨hnone, hway ▸ hfree⟩
  · exact Or.inl ⟨w, hw⟩

/-- Moving the stages of a fighter is moving those of its sheet, and then bringing the markers of
all channels in line. -/
theorem shiftStages_eq (catalog : Catalog) (delta : Stages) (f : Fighter) :
    f.shiftStages catalog delta =
      { f with sheet := (f.sheet.shiftStages (allowed f.board delta)).2 }.syncEach catalog
        (f.sheet.shiftStages (allowed f.board delta)).1 := by
  unfold shiftStages
  -- Otherwise the stages would be computed to see that both sides are the same.
  generalize f.sheet.shiftStages (allowed f.board delta) = moved
  cases moved
  rfl

/-- A movement of stages writes the sheet and brings in line the channels whose stage is another one
then: the ones that the board lets through, and that are not at their limit. -/
theorem shiftStages_cases (hf : f.Marked catalog) (delta : Stages) : ∃ changed sheet,
    f.shiftStages catalog delta = ({ f with sheet } : Fighter).syncEach catalog changed ∧
      ({ f with sheet } : Fighter).Marked catalog ∧ sheet.stageLimit = f.sheet.stageLimit ∧
      (∀ c ∈ changed, (allowed f.board delta).get c ≠ 0 ∧ sheet.stage c =
        f.sheet.limitStage (f.sheet.stage c + (allowed f.board delta).get c)) ∧
      ∀ c ∉ changed, sheet.stage c = f.sheet.stage c := by
  obtain ⟨hlimit, hstage, hchanged⟩ :=
    StatSheet.shiftEach_spec (allowed f.board delta) StageChannel.nodup_all f.sheet
  rcases hresult : StatSheet.shiftEach (allowed f.board delta) StageChannel.all f.sheet with
    ⟨changed, sheet⟩
  rw [hresult] at hlimit hstage hchanged
  dsimp only at hlimit hstage hchanged
  refine ⟨changed, sheet, ?_, ⟨?_, fun c raised t ht n hn hle => ?_, hf.genuine⟩, hlimit,
    fun c hc => ?_, fun c hc => ?_⟩
  · rw [shiftStages, StatSheet.shiftStages, hresult]
  · rw [hlimit]
    exact hf.limit
  · rw [hlimit] at hle
    exact hf.bounds c raised t ht n hn hle
  · -- A channel that is reported has another stage than before, so it was let through.
    have hmoves : c ∈ StageChannel.all ∧ (allowed f.board delta).get c ≠ 0 := by
      refine Decidable.byContradiction fun hnot => (hchanged c).mp hc ?_
      rw [hstage, if_neg hnot]
    exact ⟨hmoves.2, (hstage c).trans (if_pos hmoves)⟩
  · exact Decidable.byContradiction fun hmoved => hc ((hchanged c).mpr hmoved)

/-- Moved stages bring up markers of the content only. -/
theorem Marked.shiftStages (hcatalog : catalog.MarksStages) (hf : f.Marked catalog)
    (delta : Stages) : f.Kept catalog (f.shiftStages catalog delta) := by
  obtain ⟨changed, sheet, heq, hg, _⟩ := shiftStages_cases hf delta
  obtain ⟨hkept, _⟩ := syncEach_spec hcatalog hg changed
  rw [heq]
  exact ⟨hkept.marked, hkept.change, hkept.blocked⟩

/-- When all stages are shown and none of the sums overflows, all are shown after the move as well.
-/
theorem ShowsStages.shiftStages (hcatalog : catalog.MarksStages) (hf : f.Marked catalog)
    (hshows : f.ShowsStages) (hshift : f.CanShift delta) :
    (f.shiftStages catalog delta).1.ShowsStages := by
  obtain ⟨changed, sheet, heq, hg, hlimit, hmoved, hstays⟩ := shiftStages_cases hf delta
  obtain ⟨_, hsame, hafter⟩ := syncEach_spec hcatalog hg changed
  have hready : ∀ c ∈ changed, sheet.Within c ∧ ({ f with sheet } : Fighter).Room c := by
    intro c hc
    obtain ⟨hmoves, hnew⟩ := hmoved c hc
    obtain ⟨hlow, hhigh, _⟩ := StatSheet.limitStage_spec hf.limit
      (f.sheet.stage c + (allowed f.board delta).get c)
    refine ⟨?_, room_of_shifted hf.limit (hshows c) hshift hmoves hnew⟩
    rw [StatSheet.Within, hnew, hlimit]
    exact ⟨hlow, hhigh⟩
  intro c
  rw [heq]
  -- A moved channel is brought in line, and the others still show the stage that they had.
  by_cases hc : c ∈ changed
  · exact hafter hready c hc
  · have hbefore : ({ f with sheet } : Fighter).ShowsAt c := by
      intro raised
      rw [hstays c hc]
      exact hshows c raised
    exact (hsame c hc).shows hbefore

/-- Writing zero to a stage treats its channel alone, and clears its markers. -/
theorem setStage_zero_spec (hcatalog : catalog.MarksStages) (hf : f.Marked catalog)
    (c : StageChannel) : f.Kept catalog (f.setStage catalog c 0) ∧
      (f.setStage catalog c 0).1.ShowsAt c ∧ ∀ d ≠ c, SameAt d f (f.setStage catalog c 0).1 := by
  have hlimit : 0 ≤ f.sheet.stageLimit.toInt := Int32.le_iff_toInt_le.mp hf.limit
  have hzero : (f.sheet.setStage c 0).stage c = 0 := by
    rw [StatSheet.stage_setStage, if_pos rfl]
    obtain ⟨_, _, hup, hdown⟩ := StatSheet.limitStage_spec hf.limit 0
    have h0 : (0 : Int32).toInt = 0 := rfl
    refine Int32.toInt_inj.mp ?_
    omega
  have hg : ({ f with sheet := f.sheet.setStage c 0 } : Fighter).Marked catalog :=
    ⟨hf.limit, hf.bounds, hf.genuine⟩
  have hkept := hg.syncMarker hcatalog c
  refine ⟨⟨hkept.marked, hkept.change, hkept.blocked⟩, ?_, fun d hd => ?_⟩
  · refine showsAt_syncMarker hcatalog hg ?_ fun raised hcalled => ?_
    · rw [StatSheet.Within, hzero]
      exact ⟨Int.neg_nonpos_of_nonneg hlimit, hlimit⟩
    · -- A stage of zero calls for no marker, so it needs no room.
      rw [hzero] at hcalled
      exact absurd (by cases raised <;> rfl) hcalled
  · have hother : SameAt d f { f with sheet := f.sheet.setStage c 0 } := by
      refine ⟨?_, fun _ => rfl⟩
      rw [StatSheet.stage_setStage, if_neg (Ne.symm hd)]
    exact hother.trans (sameAt_syncMarker hd)

end Fighter

end PetDuel
