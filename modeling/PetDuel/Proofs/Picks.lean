import PetDuel.Proofs.Footprints

/-!
Raises of one stage among several. A pick draws a place in a list, and the wanted channel that has
this place moves. A list of weights may have more places than there are wanted channels; when such a
place is drawn, nothing moves.
-/

namespace PetDuel

namespace Random

/-- A drawn index is below its bound, also when the tries run out. -/
theorem Stream.indexFrom_lt {n : UInt32} (hn : 0 < n.toNat) (tries : Nat) (r : Stream) :
    (indexFrom n tries r).1 < n.toNat := by
  induction tries generalizing r with
  | zero => exact hn
  | succ tries ih =>
    unfold indexFrom
    dsimp only
    split
    · -- The result is the high half of a product of two words.
      have hword : r.next32.1.toNat < UInt32.size := r.next32.1.toNat_lt
      apply Nat.div_lt_of_lt_mul
      exact Nat.mul_lt_mul_of_pos_right hword hn
    · exact ih _

theorem Stream.index_lt {n : UInt32} (hn : 0 < n.toNat) (r : Stream) : (r.index n).1 < n.toNat :=
  indexFrom_lt hn period r

/-- The place that covers a threshold is one of the weights. -/
theorem lt_of_covering? {α : Type} [Number.Arithmetic α] {weights : List α} {t : α} {i : Nat}
    (h : covering? weights t = some i) : i < weights.length := by
  induction weights generalizing t i with
  | nil => cases h
  | cons w ws ih =>
    unfold covering? at h
    split at h
    · cases h
      exact Nat.zero_lt_succ _
    · obtain ⟨j, hj, rfl⟩ := Option.map_eq_some_iff.mp h
      exact Nat.succ_lt_succ (ih hj)

/-- A pick is a place of the weights, even if none covers the threshold. -/
theorem pickAt_lt {α : Type} [Number.Arithmetic α] {weights : List α} (h : weights ≠ []) (t : α) :
    pickAt weights t < weights.length := by
  have hlength := List.length_pos_of_ne_nil h
  unfold pickAt
  cases hcovering : covering? weights t with
  | none =>
    -- Rounding has left a part of the threshold uncovered, and the last entry is picked.
    rw [Option.getD_none]
    omega
  | some i => exact lt_of_covering? hcovering

/-- What is drawn by weight is a place of the weights. -/
theorem Stream.lt_of_weighted {r : Stream} {weights : List Double} {i : Nat}
    (h : (r.weighted weights).1 = some i) : i < weights.length := by
  unfold weighted drawableTotal? at h
  dsimp only at h
  by_cases hempty : weights = []
  · simp [hempty] at h
  · split at h
    · cases h
    · cases h
      exact pickAt_lt hempty _

end Random

/-- The place that a pick draws when so many channels are wanted. Weights that cannot be drawn from
give the first one. -/
def Pick.place (n : Nat) (r : Random.Stream) : Pick → Nat
  | every => 0
  | evenly => (r.index (UInt32.ofNat n)).1
  | byWeight weights => (r.weighted weights).1.getD 0

def Pick.Fits (n : Nat) : Pick → Prop
  | byWeight weights => weights.length ≤ n
  | _ => True

/-- A pick that fits a number of places draws one of them. -/
theorem Pick.place_lt {n : Nat} (hn : 0 < n) (hsize : n < UInt32.size) {pick : Pick}
    (h : pick.Fits n) (r : Random.Stream) : pick.place n r < n := by
  cases pick with
  | every => exact hn
  | evenly =>
    have hword : (UInt32.ofNat n).toNat = n := UInt32.toNat_ofNat_of_lt hsize
    have hlt := Random.Stream.index_lt (n := UInt32.ofNat n) (by omega) r
    change (r.index (UInt32.ofNat n)).1 < n
    omega
  | byWeight weights =>
    change (r.weighted weights).1.getD 0 < n
    cases hdrawn : (r.weighted weights).1 with
    | none => exact hn
    | some i => exact Nat.lt_of_lt_of_le (Random.Stream.lt_of_weighted hdrawn) h

/-- A number within bounds as a whole number. The upper bound gives way when the two cross. -/
theorem toInt_bounded (lo hi n : Int32) :
    (bounded lo hi n).toInt =
      if n.toInt < lo.toInt then lo.toInt
      else if max hi.toInt lo.toInt < n.toInt then max hi.toInt lo.toInt
      else n.toInt := by
  have hmax : (max hi lo).toInt = max hi.toInt lo.toInt := by
    change (if hi ≤ lo then lo else hi).toInt = _
    split
    · rename_i hle
      have hle := Int32.le_iff_toInt_le.mp hle
      omega
    · rename_i hlt
      have hlt := Int32.lt_iff_toInt_lt.mp (Int32.not_le.mp hlt)
      omega
  unfold bounded
  simp only [Int32.lt_iff_toInt_lt, hmax]
  split
  · rfl
  · split
    · exact hmax
    · rfl

/-- The negative of a number overflows for the least one only. -/
theorem toInt_neg_cases (n : Int32) :
    (-n).toInt = -n.toInt ∨ n.toInt = -2 ^ 31 ∧ (-n).toInt = -2 ^ 31 := by
  have hlow := n.le_toInt
  have hhigh := n.toInt_lt
  rw [Int32.toInt_neg]
  unfold Int.bmod
  dsimp only
  split <;> omega

/-- A sum overflows to one side at most, and then by one round. -/
theorem toInt_add_cases (m n : Int32) :
    (m + n).toInt = m.toInt + n.toInt ∨
      2 ^ 31 ≤ m.toInt + n.toInt ∧ (m + n).toInt = m.toInt + n.toInt - 2 ^ 32 ∨
      m.toInt + n.toInt < -2 ^ 31 ∧ (m + n).toInt = m.toInt + n.toInt + 2 ^ 32 := by
  have hlow := m.le_toInt
  have hhigh := m.toInt_lt
  have hlow' := n.le_toInt
  have hhigh' := n.toInt_lt
  rw [Int32.toInt_add]
  unfold Int.bmod
  dsimp only
  split <;> omega

namespace StatSheet

def furthest (s : StatSheet) (raised : Bool) : Int32 :=
  s.limitStage (if raised then Int32.maxValue else Int32.minValue)

/-- A stage that is not the last one in the direction of a step moves by the step. This is so even
where the sum does not fit into a word. -/
theorem limitStage_add_ne {s : StatSheet} {stage step : Int32} (hstep : step ≠ 0)
    (hroom : stage ≠ s.furthest (decide (0 < step))) : s.limitStage (stage + step) ≠ stage := by
  intro heq
  have hstep : step.toInt ≠ 0 := fun h => hstep (Int32.toInt_inj.mp h)
  have hroom : stage.toInt ≠ (s.furthest (decide (0 < step))).toInt := fun h =>
    hroom (Int32.toInt_inj.mp h)
  have heq : (s.limitStage (stage + step)).toInt = stage.toInt := congrArg Int32.toInt heq
  rw [limitStage, toInt_bounded] at heq
  rw [furthest, limitStage, toInt_bounded] at hroom
  have hsum := toInt_add_cases stage step
  have hneg := toInt_neg_cases s.stageLimit
  have hlow := stage.le_toInt
  have hhigh := stage.toInt_lt
  have hlow' := step.le_toInt
  have hhigh' := step.toInt_lt
  have hzero : (0 : Int32).toInt = 0 := rfl
  -- A sum that overflows comes out on the other side of zero, and so away from the stage.
  by_cases hup : 0 < step
  · have hmax : Int32.maxValue.toInt = 2 ^ 31 - 1 := by decide
    rw [decide_eq_true hup, if_pos rfl, hmax] at hroom
    have hup := Int32.lt_iff_toInt_lt.mp hup
    omega
  · have hmin : Int32.minValue.toInt = -2 ^ 31 := by decide
    rw [decide_eq_false hup, if_neg Bool.false_ne_true, hmin] at hroom
    have hdown := Int32.le_iff_toInt_le.mp (Int32.not_lt.mp hup)
    omega

end StatSheet

namespace Deed

variable {wanted : Stages} {c : StageChannel}

theorem mem_wantedChannels : c ∈ wantedChannels wanted ↔ wanted.get c ≠ 0 := by
  rw [wantedChannels, List.mem_filter, decide_eq_true_iff]
  exact and_iff_right c.mem_all

theorem length_wantedChannels (wanted : Stages) :
    (wantedChannels wanted).length < UInt32.size := by
  have hle : (wantedChannels wanted).length ≤ StageChannel.all.length := List.length_filter_le _ _
  exact Nat.lt_of_le_of_lt hle (by decide)

/-- Of the wanted differences only the one at the drawn place is kept, and none when the place is
beyond them. -/
theorem get_onlyAt (channels : List StageChannel) (i : Nat) :
    (onlyAt wanted channels i).get c = if channels[i]? = some c then wanted.get c else 0 :=
  Stages.get_ofFn _ c

/-- A pick of one channel leaves what is wanted of the channel at the place that it draws. -/
theorem picked_fst {pick : Pick} (hpick : pick ≠ .every) (hsome : wantedChannels wanted ≠ [])
    (r : Random.Stream) :
    (picked wanted pick r).1 =
      onlyAt wanted (wantedChannels wanted) (pick.place (wantedChannels wanted).length r) := by
  have hfilled : (wantedChannels wanted).isEmpty = false := List.isEmpty_eq_false_iff.mpr hsome
  unfold picked
  dsimp only
  rw [hfilled, if_neg Bool.false_ne_true]
  cases pick with
  | every => exact absurd rfl hpick
  | evenly => rfl
  | byWeight weights => rfl

/-- Doubling stops at the two ends of the range. -/
theorem toInt_twice (n : Int32) :
    (twice n).toInt = max (-2 ^ 31) (min (2 * n.toInt) (2 ^ 31 - 1)) := by
  have hmin : Int32.minValue.toInt = -2 ^ 31 := by decide
  have hmax : Int32.maxValue.toInt = 2 ^ 31 - 1 := by decide
  unfold twice Int32.ofIntClamp
  split
  · split
    · rw [Int32.toInt_ofIntLE]
      omega
    · rw [hmax]
      omega
  · rw [hmin]
    omega

/-- A difference is doubled or left as it is. -/
theorem get_doubled (board : BuffBoard) (delta : Stages) :
    (doubled board delta).get c = delta.get c ∨
      (doubled board delta).get c = twice (delta.get c) := by
  have hget : (doubled board delta).get c =
      if (decide (0 < delta.get c) && board.contains raiseDoublerId) ||
          (decide (delta.get c < 0) && board.contains lowerDoublerId) then twice (delta.get c)
      else delta.get c := Stages.get_ofFn _ c
  rw [hget]
  split
  · exact Or.inr rfl
  · exact Or.inl rfl

/-- Doubling keeps the direction of a step. -/
theorem doubled_direction (board : BuffBoard) (delta : Stages) (c : StageChannel) :
    ((doubled board delta).get c = 0 ↔ delta.get c = 0) ∧
      (0 < (doubled board delta).get c ↔ 0 < delta.get c) := by
  have hzero : (0 : Int32).toInt = 0 := rfl
  have htwice := toInt_twice (delta.get c)
  rcases get_doubled (c := c) board delta with h | h
  · rw [h]
    exact ⟨Iff.rfl, Iff.rfl⟩
  · rw [h, ← Int32.toInt_inj, ← Int32.toInt_inj, Int32.lt_iff_toInt_lt, Int32.lt_iff_toInt_lt]
    omega

theorem get_doubled_congr (board : BuffBoard) {delta delta' : Stages}
    (h : delta.get c = delta'.get c) :
    (doubled board delta).get c = (doubled board delta').get c := by
  unfold doubled Stages.map
  rw [Stages.get_ofFn, Stages.get_ofFn, h]

end Deed

/-- A channel of a fighter can move by a step: the board lets the step through, and the stage is not
yet the last one in its direction. -/
structure Fighter.CanMove (f : Fighter) (c : StageChannel) (step : Int32) : Prop where
  free : f.board.isBlocked (markerId c (decide (0 < step))) = false
  room : f.sheet.stage c ≠ f.sheet.furthest (decide (0 < step))

/-- One of the wanted channels moves, by its step as the doubling buffs leave it and to within the
limit. All other stages stay. -/
def Fighter.MovesOne (wanted : Stages) (f g : Fighter) : Prop :=
  ∃ c, wanted.get c ≠ 0 ∧ g.sheet.stage c ≠ f.sheet.stage c ∧
    g.sheet.stage c = f.sheet.limitStage (f.sheet.stage c + (Deed.doubled f.board wanted).get c) ∧
    ∀ c', c' ≠ c → g.sheet.stage c' = f.sheet.stage c'

namespace Fighter

variable {catalog : Catalog} {f : Fighter} {c : StageChannel} {wanted delta : Stages}

theorem stage_shiftStages (catalog : Catalog) (delta : Stages) (f : Fighter) (c : StageChannel) :
    (f.shiftStages catalog delta).1.sheet.stage c =
      if (allowed f.board delta).get c ≠ 0 then
        f.sheet.limitStage (f.sheet.stage c + (allowed f.board delta).get c)
      else f.sheet.stage c := by
  rw [shiftStages_eq, syncEach_sheet]
  exact f.sheet.stage_shiftStages (allowed f.board delta) c

theorem get_allowed_of_zero (h : delta.get c = 0) : (allowed f.board delta).get c = 0 := by
  unfold allowed
  rw [Stages.get_ofFn, h, ite_self]

theorem get_allowed_of_free
    (h : f.board.isBlocked (markerId c (decide (0 < delta.get c))) = false) :
    (allowed f.board delta).get c = delta.get c := by
  unfold allowed
  rw [Stages.get_ofFn, h, Bool.and_false, if_neg Bool.false_ne_true]

/-- The step of one wanted channel, whose way is free. -/
theorem movesOne_shiftStages {channels : List StageChannel} {i : Nat}
    (hi : channels[i]? = some c) (hc : wanted.get c ≠ 0) (hcan : f.CanMove c (wanted.get c)) :
    f.MovesOne wanted
      (f.shiftStages catalog (Deed.doubled f.board (Deed.onlyAt wanted channels i))).1 := by
  have hself : (Deed.onlyAt wanted channels i).get c = wanted.get c :=
    (Deed.get_onlyAt channels i).trans (if_pos hi)
  have hstep := Deed.get_doubled_congr f.board hself
  obtain ⟨hzero, hsign⟩ := Deed.doubled_direction f.board wanted c
  have hmoves : (Deed.doubled f.board wanted).get c ≠ 0 := fun h => hc (hzero.mp h)
  have hway : decide (0 < (Deed.doubled f.board wanted).get c) = decide (0 < wanted.get c) :=
    decide_eq_decide.mpr hsign
  -- The board lets the step through, however it is doubled.
  have hallowed : (allowed f.board (Deed.doubled f.board
      (Deed.onlyAt wanted channels i))).get c = (Deed.doubled f.board wanted).get c := by
    rw [get_allowed_of_free, hstep]
    rw [hstep, hway]
    exact hcan.free
  have hnew := stage_shiftStages catalog (Deed.doubled f.board (Deed.onlyAt wanted channels i)) f c
  rw [hallowed, if_pos hmoves] at hnew
  refine ⟨c, hc, ?_, hnew, ?_⟩
  · rw [hnew]
    apply StatSheet.limitStage_add_ne hmoves
    rw [hway]
    exact hcan.room
  · intro c' hne
    have hother : (Deed.onlyAt wanted channels i).get c' = 0 := by
      refine (Deed.get_onlyAt channels i).trans (if_neg fun h => hne ?_)
      exact Option.some.inj (h.symm.trans hi)
    have hstays := (Deed.doubled_direction f.board (Deed.onlyAt wanted channels i) c').1.mpr hother
    rw [stage_shiftStages, get_allowed_of_zero hstays, if_neg (not_not_intro rfl)]

/-- Beyond the list of channels nothing moves. -/
theorem stage_shiftStages_of_none {channels : List StageChannel} {i : Nat}
    (hi : channels[i]? = none) (c : StageChannel) :
    (f.shiftStages catalog (Deed.doubled f.board
      (Deed.onlyAt wanted channels i))).1.sheet.stage c = f.sheet.stage c := by
  have hnothing : (Deed.onlyAt wanted channels i).get c = 0 := by
    rw [Deed.get_onlyAt, hi]
    exact if_neg (Option.some_ne_none c).symm
  have hstays := (Deed.doubled_direction f.board (Deed.onlyAt wanted channels i) c).1.mpr hnothing
  rw [stage_shiftStages, get_allowed_of_zero hstays, if_neg (not_not_intro rfl)]

theorem not_movesOne_of_stays {g : Fighter} (h : ∀ c, g.sheet.stage c = f.sheet.stage c) :
    ¬f.MovesOne wanted g := fun ⟨c, _, hmoved, _⟩ => hmoved (h c)

end Fighter

/-- Options that can be read and a fighter that is out make a raise come to its deed. -/
theorem Effect.decide?_raise {ctx : Context} {m : Moment} {e : Effect} {random : Bool}
    {wanted : Stages} {pick : Pick} {id : DuelistId} (hability : e.ability = .raiseStages)
    (hrandom : flag? (e.option "random" "false") = some random)
    (hwanted : e.wantedStages? = some wanted) (hpick : e.pick? random = some pick)
    (hnamed : m.scene.named? e "who" "me" = some id) (hout : (m.scene.active? id).isSome) :
    e.decide? ctx m = some (.raiseStages id wanted pick) := by
  obtain ⟨f, hf⟩ := Option.isSome_iff_exists.mp hout
  simp only [decide?, hability, decideRaise, hrandom, hwanted, hpick, hnamed, hf,
    Option.bind_eq_bind, Option.bind_some]
  rfl

/-- The step of a raise moves the stream on and the stages of the fighter that is out. -/
theorem Scene.walk_raise {s : Scene} {id : DuelistId} {d : Duelist} {f : Fighter}
    (hd : s.duelist? id = some d) (hf : d.active? = some f) (ctx : Context) (wanted : Stages)
    (pick : Pick) :
    s.walk ((Deed.raiseStages id wanted pick).steps ctx) =
      s.update id fun _ =>
        { d with stream := (Deed.picked wanted pick d.stream).2 }.setActive
          (f.shiftStages ctx.catalog
            (Deed.doubled f.board (Deed.picked wanted pick d.stream).1)).1 := by
  have hf' : ({ d with stream := (Deed.picked wanted pick d.stream).2 } : Duelist).active? =
      some f := hf
  change s.update id (fun d => (d.moveStages ctx wanted pick).1) = _
  rw [update_of_duelist?_eq_some hd]
  unfold Duelist.moveStages Duelist.onFighter
  dsimp only
  rw [hf']

/-- A random raise in a quiet duel, of wanted channels that can all move. It moves the stream of the
duelist on and stages of its fighter, and nothing else. Exactly one wanted channel moves if and only
if the place that is drawn is that of a wanted channel, which is certain for an even pick and for
weights that are no more than the wanted channels; and otherwise no stage moves. -/
theorem random_raise_moves_one_iff {ctx : Context} {b : Battle} {e : Effect} {wanted : Stages}
    {pick : Pick} {id : DuelistId} {d : Duelist} {f : Fighter}
    (hcatalog : ∀ t ∈ ctx.catalog.buffs, t.Quiet)
    (hboards : ∀ f ∈ b.scene.fighters, ∀ x ∈ f.board.active, x.template.Quiet)
    (hability : e.ability = .raiseStages)
    (hrandom : flag? (e.option "random" "false") = some true)
    (hwanted : e.wantedStages? = some wanted) (hpick : e.pick? true = some pick)
    (hone : pick ≠ .every) (hnamed : b.scene.named? e "who" "me" = some id)
    (hd : b.scene.duelist? id = some d) (hf : d.active? = some f)
    (hsome : ∃ c, wanted.get c ≠ 0)
    (hcan : ∀ c, wanted.get c ≠ 0 → f.CanMove c (wanted.get c)) :
    let n := (Deed.wantedChannels wanted).length
    ∃ g stream, ctx.dispatch e b =
        (true, b.update id fun _ => { d with stream }.setActive g) ∧
      (f.MovesOne wanted g ↔ pick.place n d.stream < n) ∧
      (n ≤ pick.place n d.stream → ∀ c, g.sheet.stage c = f.sheet.stage c) ∧
      (pick.Fits n → pick.place n d.stream < n) := by
  intro n
  have hactive : b.scene.active? id = some f := (Scene.active?_of_duelist? hd).trans hf
  have hdecide : e.decide? ctx b.now = some (.raiseStages id wanted pick) :=
    Effect.decide?_raise hability hrandom hwanted hpick hnamed (Option.isSome_of_eq_some hactive)
  have hpossible : (Deed.raiseStages id wanted pick).possible b.scene = true :=
    Option.isSome_of_eq_some hactive
  have hdispatch := Context.dispatch_eq_walk hcatalog hboards hdecide
  obtain ⟨c₀, hc₀⟩ := hsome
  have hfilled : Deed.wantedChannels wanted ≠ [] :=
    List.ne_nil_of_mem (Deed.mem_wantedChannels.mpr hc₀)
  rw [hpossible, Scene.walk_raise hd hf, Deed.picked_fst hone hfilled] at hdispatch
  let moved := Deed.doubled f.board
    (Deed.onlyAt wanted (Deed.wantedChannels wanted) (pick.place n d.stream))
  let g := (f.shiftStages ctx.catalog moved).1
  have hbeyond (h : n ≤ pick.place n d.stream) (c : StageChannel) :
      g.sheet.stage c = f.sheet.stage c :=
    Fighter.stage_shiftStages_of_none (List.getElem?_eq_none h) c
  refine ⟨g, (Deed.picked wanted pick d.stream).2, hdispatch, ?_, hbeyond, fun hfits => ?_⟩
  · -- The place is that of a wanted channel, or it is beyond them all.
    by_cases hplace : pick.place n d.stream < n
    · have hi := List.getElem?_eq_getElem hplace
      have hc := Deed.mem_wantedChannels.mp (List.getElem_mem hplace)
      have hmoves : f.MovesOne wanted g := Fighter.movesOne_shiftStages hi hc (hcan _ hc)
      exact iff_of_true hmoves hplace
    · have hstays := hbeyond (Nat.le_of_not_lt hplace)
      exact iff_of_false (Fighter.not_movesOne_of_stays hstays) hplace
  · exact Pick.place_lt (List.length_pos_of_ne_nil hfilled)
      (Deed.length_wantedChannels wanted) hfits d.stream

/-- Of a raised attack and a lowered defense, picked evenly, one moves. -/
theorem evenly_picked_raise_moves_one :
    let ctx : Context := ⟨.plainMarkers, {}⟩
    let d : Duelist := .new ⟨1⟩ [.raisedByOne] 0
    let b := Battle.new d (.new ⟨2⟩ [] 0)
    let options : Options :=
      ⟨[("atk", "1"), ("def", "-1"), ("random", "true"), ("random_pdf", "uniform")]⟩
    let e := (Effect.new .attack .raiseStages options).actingFor ⟨1⟩
    let wanted : Stages := ⟨#v[1, -1, 0, 0, 0]⟩
    e.wantedStages? = some wanted ∧ e.pick? true = some .evenly ∧
      (∀ c, wanted.get c ≠ 0 → Fighter.raisedByOne.CanMove c (wanted.get c)) ∧
      ∃ g stream, ctx.dispatch e b =
          (true, b.update ⟨1⟩ fun _ => { d with stream }.setActive g) ∧
        Fighter.raisedByOne.MovesOne wanted g := by
  intro ctx d b options e wanted
  have hcatalog : ∀ t ∈ ctx.catalog.buffs, t.Quiet := Catalog.plainMarkers_marksStages.quiet
  have hboards : ∀ f ∈ b.scene.fighters, ∀ x ∈ f.board.active, x.template.Quiet :=
    List.forall_mem_singleton.mpr <| List.forall_mem_singleton.mpr fun _ he => nomatch he
  have hrandom : flag? (e.option "random" "false") = some true := by decide +kernel
  have hwanted : e.wantedStages? = some wanted := by decide +kernel
  have hpick : e.pick? true = some .evenly := by decide +kernel
  have hcan : ∀ c, wanted.get c ≠ 0 → Fighter.raisedByOne.CanMove c (wanted.get c) := by
    intro c _
    constructor <;> cases c <;> decide +kernel
  have hsome : ∃ c, wanted.get c ≠ 0 := ⟨.attack, by decide⟩
  obtain ⟨g, stream, hdispatch, hmoves, _, hwithin⟩ :=
    random_raise_moves_one_iff hcatalog hboards rfl hrandom hwanted hpick Pick.noConfusion rfl rfl
      rfl hsome hcan
  exact ⟨hwanted, hpick, hcan, g, stream, hdispatch, hmoves.mpr (hwithin trivial)⟩

/-- The second of two weights is drawn where one channel is wanted, and nothing moves. -/
theorem raise_beyond_wanted_channels :
    let ctx : Context := ⟨.plainMarkers, {}⟩
    let b := Battle.new (.new ⟨1⟩ [.raisedByOne] 0) (.new ⟨2⟩ [] 0)
    let options : Options := ⟨[("atk", "1"), ("random", "true"), ("random_pdf", "0/1")]⟩
    let e := (Effect.new .attack .raiseStages options).actingFor ⟨1⟩
    let wanted : Stages := ⟨#v[1, 0, 0, 0, 0]⟩
    e.wantedStages? = some wanted ∧
      Fighter.raisedByOne.CanMove .attack (wanted.get .attack) ∧
      (ctx.dispatch e b).1 = true ∧
      ∃ g, (ctx.dispatch e b).2.scene.active? ⟨1⟩ = some g ∧
        ¬Fighter.raisedByOne.MovesOne wanted g := by
  intro ctx b options e wanted
  have hwanted : e.wantedStages? = some wanted := by decide +kernel
  have hcan : Fighter.raisedByOne.CanMove .attack (wanted.get .attack) := by
    constructor <;> decide +kernel
  have hhandled : (ctx.dispatch e b).1 = true := by decide +kernel
  have hstays : ((ctx.dispatch e b).2.scene.active? ⟨1⟩).map (fun g => g.sheet.stages) =
      some Fighter.raisedByOne.sheet.stages := by decide +kernel
  obtain ⟨g, hg, hstages⟩ := Option.map_eq_some_iff.mp hstays
  refine ⟨hwanted, hcan, hhandled, g, hg, Fighter.not_movesOne_of_stays fun c => ?_⟩
  exact congrArg (fun stages : Stages => stages.get c) hstages

end PetDuel
