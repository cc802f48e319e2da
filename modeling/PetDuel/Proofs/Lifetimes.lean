import PetDuel.Proofs.TurnEnd

/-!
The lifetimes of buffs. Where nothing answers what expires, several ends of a turn count the buffs
of the fighters that are out down as if at once: a buff that lasts for good stays as it is, and a
buff that was given some turns is there for one end of a turn less.
-/

namespace PetDuel

/-- What is left of a turn count after so many ends of a turn, unless it has run out. -/
def turnsLeft (n : Nat) (t : Int32) : Option Int32 :=
  if n = 0 ∨ t < 0 then some t
  else if (n : Int) < t.toInt then some (Int32.ofInt (t.toInt - n))
  else none

def Buff.after (n : Nat) (x : Buff) : Option Buff :=
  (turnsLeft n x.turn).map fun turn => { x with turn }

def Fighter.after (n : Nat) (f : Fighter) : Fighter :=
  { f with board := { f.board with active := f.board.active.filterMap (Buff.after n) } }

/-- A duelist after so many ends of a turn: the buffs of the fighter that is out are counted down,
and the skill in use has done nothing yet. -/
def Duelist.after (n : Nat) (d : Duelist) : Duelist :=
  { d with
    team := { d.team with fighters := d.team.fighters.modify d.team.cursor (Fighter.after n) }
    turn := if n = 0 then d.turn else d.turn.reset }

def Scene.after (n : Nat) (s : Scene) : Scene :=
  { s with own := s.own.after n, opposing := s.opposing.after n, turn := s.turn + UInt32.ofNat n }

def Battle.endTurns (ctxs : List Context) (b : Battle) : Battle :=
  ctxs.foldl (fun b ctx => ctx.endTurn b) b

section Counting

variable {t : Int32} {n : Nat}

theorem turnsLeft_of_lasting (h : n = 0 ∨ t < 0) : turnsLeft n t = some t := if_pos h

theorem turnsLeft_of_counting (hn : n ≠ 0) (ht : ¬t < 0) (h : (n : Int) < t.toInt) :
    turnsLeft n t = some (Int32.ofInt (t.toInt - n)) :=
  (if_neg (not_or.mpr ⟨hn, ht⟩)).trans (if_pos h)

theorem turnsLeft_of_expired (hn : n ≠ 0) (ht : ¬t < 0) (h : ¬(n : Int) < t.toInt) :
    turnsLeft n t = none := (if_neg (not_or.mpr ⟨hn, ht⟩)).trans (if_neg h)

theorem turnsLeft_zero (t : Int32) : turnsLeft 0 t = some t := turnsLeft_of_lasting (Or.inl rfl)

/-- Turns that pass in two parts are turns that pass at once. A buff that leaves in the first part
does not come back in the second. -/
theorem bind_turnsLeft (m n : Nat) (t : Int32) :
    (turnsLeft m t).bind (turnsLeft n) = turnsLeft (m + n) t := by
  -- Before any end of a turn all counts stay, so this case comes before the one of their signs.
  rcases Nat.eq_zero_or_pos m with rfl | hm
  · rw [turnsLeft_zero, Option.bind_some, Nat.zero_add]
  by_cases ht : t < 0
  · rw [turnsLeft_of_lasting (Or.inr ht), Option.bind_some, turnsLeft_of_lasting (Or.inr ht),
      turnsLeft_of_lasting (Or.inr ht)]
  have hm : m ≠ 0 := by omega
  have hsum : m + n ≠ 0 := by omega
  by_cases hcounting : (m : Int) < t.toInt
  · have hbound : t.toInt < 2 ^ 31 := t.toInt_lt
    have hleft : (Int32.ofInt (t.toInt - m)).toInt = t.toInt - m :=
      Int32.toInt_ofInt_of_le (by omega) (by omega)
    rw [turnsLeft_of_counting hm ht hcounting, Option.bind_some]
    rcases Nat.eq_zero_or_pos n with rfl | hn
    · rw [turnsLeft_zero, Nat.add_zero, turnsLeft_of_counting hm ht hcounting]
    have hn : n ≠ 0 := by omega
    -- What is left after the first ends is still a positive count, and a word.
    have hpositive : ¬Int32.ofInt (t.toInt - m) < 0 := by
      rw [Int32.lt_iff_toInt_lt, hleft, Int32.toInt_zero]
      omega
    by_cases hlast : ((m + n : Nat) : Int) < t.toInt
    · rw [turnsLeft_of_counting hn hpositive (by omega), turnsLeft_of_counting hsum ht hlast, hleft]
      congr 2
      omega
    · rw [turnsLeft_of_expired hn hpositive (by omega), turnsLeft_of_expired hsum ht hlast]
  · rw [turnsLeft_of_expired hm ht hcounting, turnsLeft_of_expired hsum ht (by omega),
      Option.bind_none]

/-- A positive turn count lasts for one end of a turn less than it says. -/
theorem turnsLeft_of_pos (ht : 0 < t) (n : Nat) :
    turnsLeft n t = if (n : Int) ≤ t.toInt - 1 then some (Int32.ofInt (t.toInt - n)) else none := by
  have hpos : 0 < t.toInt := Int32.lt_iff_toInt_lt.mp ht
  have hnonneg : ¬t < 0 := by
    rw [Int32.lt_iff_toInt_lt, Int32.toInt_zero]
    omega
  rcases Nat.eq_zero_or_pos n with rfl | hn
  · have hzero : ((0 : Nat) : Int) ≤ t.toInt - 1 := by omega
    rw [turnsLeft_zero, if_pos hzero, Int.natCast_zero, Int.sub_zero, Int32.ofInt_toInt]
  have hn : n ≠ 0 := by omega
  by_cases hcounting : (n : Int) < t.toInt
  · have hthere : (n : Int) ≤ t.toInt - 1 := by omega
    rw [turnsLeft_of_counting hn hnonneg hcounting, if_pos hthere]
  · have hgone : ¬(n : Int) ≤ t.toInt - 1 := by omega
    rw [turnsLeft_of_expired hn hnonneg hcounting, if_neg hgone]

end Counting

namespace Buff

/-- One end of a turn is one turn less, and the buff leaves when none is left. -/
theorem after_one (x : Buff) : x.after 1 = if x.tick.isExpired then none else some x.tick := by
  unfold after tick isExpired
  by_cases hpos : 0 < x.turn
  · have hbound : x.turn.toInt < 2 ^ 31 := x.turn.toInt_lt
    have hturn : 0 < x.turn.toInt := Int32.lt_iff_toInt_lt.mp hpos
    have hword : Int32.ofInt (x.turn.toInt - (1 : Nat)) = x.turn - 1 := by
      rw [Int32.ofInt_sub, Int32.ofInt_toInt]
      rfl
    have hint : (x.turn - 1).toInt = x.turn.toInt - 1 := by
      rw [← hword]
      exact Int32.toInt_ofInt_of_le (by omega) (by omega)
    have hzero : (x.turn - 1 == 0) = true ↔ ¬((1 : Nat) : Int) ≤ x.turn.toInt - 1 := by
      rw [beq_iff_eq, ← Int32.toInt_inj, hint, Int32.toInt_zero]
      omega
    -- The buff leaves exactly when its count was one.
    rw [if_pos hpos, turnsLeft_of_pos hpos, hword]
    by_cases hlasts : ((1 : Nat) : Int) ≤ x.turn.toInt - 1
    · rw [if_pos hlasts, if_neg fun h => hzero.mp h hlasts]
      rfl
    · rw [if_neg hlasts, if_pos (hzero.mpr hlasts)]
      rfl
  · -- A count that is not positive is not counted down; only zero has run out.
    rw [if_neg hpos]
    by_cases hzero : x.turn = 0
    · rw [hzero]
      rfl
    · have hneg : x.turn < 0 := by
        rw [Int32.lt_iff_toInt_lt, Int32.toInt_zero] at hpos ⊢
        have hne : x.turn.toInt ≠ 0 := fun h => hzero (Int32.toInt_inj.mp h)
        omega
      rw [turnsLeft_of_lasting (Or.inr hneg), if_neg (mt beq_iff_eq.mp hzero)]
      rfl

theorem after_of_pos {x : Buff} (hx : 0 < x.turn) (n : Nat) :
    x.after n = if (n : Int) ≤ x.turn.toInt - 1
      then some { x with turn := Int32.ofInt (x.turn.toInt - n) } else none := by
  unfold after
  rw [turnsLeft_of_pos hx]
  split <;> rfl

theorem after_zero (x : Buff) : x.after 0 = some x := by
  unfold after
  rw [turnsLeft_zero]
  rfl

theorem bind_after (m n : Nat) (x : Buff) : (x.after m).bind (after n) = x.after (m + n) := by
  unfold after
  rw [← bind_turnsLeft m n x.turn]
  cases turnsLeft m x.turn with
  | none => rfl
  | some t => rfl

/-- A buff keeps its kind while it is counted down. -/
theorem template_of_after {n : Nat} {x y : Buff} (h : x.after n = some y) :
    y.template = x.template := by
  obtain ⟨t, _, rfl⟩ := Option.map_eq_some_iff.mp h
  rfl

end Buff

theorem Fighter.after_zero (f : Fighter) : f.after 0 = f := by
  have hbuffs : Buff.after 0 = some := funext Buff.after_zero
  unfold after
  rw [hbuffs, List.filterMap_some]

theorem Fighter.after_after (m n : Nat) (f : Fighter) : (f.after m).after n = f.after (m + n) := by
  have hboth : (fun x => (Buff.after m x).bind (Buff.after n)) = Buff.after (m + n) :=
    funext (Buff.bind_after m n)
  unfold after
  rw [List.filterMap_filterMap, hboth]

theorem Fighter.after_one (f : Fighter) : (f.onBoard BuffBoard.tick).1 = f.after 1 := by
  have hlast : (f.board.active.map Buff.tick).filter (fun x => !x.isExpired) =
      f.board.active.filterMap (Buff.after 1) := by
    rw [← List.filterMap_eq_filter, List.filterMap_map]
    apply List.filterMap_congr
    intro x _
    rw [Buff.after_one]
    cases hexpired : x.tick.isExpired <;> simp [Option.guard, hexpired]
  exact congrArg (fun active => { f with board := { f.board with active } }) hlast

namespace Duelist

theorem active?_after (n : Nat) (d : Duelist) :
    (d.after n).active? = d.active?.map (Fighter.after n) :=
  List.getElem?_modify_eq (Fighter.after n) d.team.cursor d.team.fighters

theorem after_zero (d : Duelist) : d.after 0 = d := by
  have hfighters : d.team.fighters.modify d.team.cursor (Fighter.after 0) = d.team.fighters :=
    (congrArg (List.modify _ _) (funext Fighter.after_zero)).trans (List.modify_id _ _)
  unfold after
  rw [hfighters]
  rfl

theorem after_after (m n : Nat) (d : Duelist) : (d.after m).after n = d.after (m + n) := by
  have hfighters : (d.team.fighters.modify d.team.cursor (Fighter.after m)).modify d.team.cursor
      (Fighter.after n) = d.team.fighters.modify d.team.cursor (Fighter.after (m + n)) := by
    rw [List.modify_modify_eq]
    exact congrArg (List.modify _ _) (funext (Fighter.after_after m n))
  have hturn : (if n = 0 then (d.after m).turn else (d.after m).turn.reset) =
      if m + n = 0 then d.turn else d.turn.reset := by
    cases m <;> cases n <;> rfl
  unfold after at hturn ⊢
  dsimp only at hturn ⊢
  rw [hfighters, hturn]

/-- One end of a turn for a duelist. -/
theorem after_one (d : Duelist) :
    ({ d.tick with turn := d.tick.turn.reset } : Duelist) = d.after 1 := by
  unfold tick
  cases hf : d.active? with
  | none =>
    have hsame : d.team.fighters.modify d.team.cursor (Fighter.after 1) = d.team.fighters :=
      List.modify_eq_self (List.getElem?_eq_none_iff.mp hf)
    unfold onFighter after
    rw [hf, hsame]
    rfl
  | some f =>
    -- The fighter that is out is the only one that is written.
    have hset : d.team.fighters.modify d.team.cursor (Fighter.after 1) =
        d.team.fighters.set d.team.cursor (f.after 1) := by
      have hget : d.team.fighters[d.team.cursor]? = some f := hf
      rw [List.modify_eq_set_getElem?, hget]
      rfl
    rw [onFighter_fst hf, Fighter.after_one]
    unfold after
    rw [hset]
    rfl

def OutQuiet (d : Duelist) : Prop := ∀ f ∈ d.active?, ∀ x ∈ f.board.active, x.template.Quiet

/-- Buffs that are still there after some turns are quiet as before, for only their counts differ.
-/
theorem OutQuiet.after {d : Duelist} (h : d.OutQuiet) (n : Nat) : (d.after n).OutQuiet := by
  intro g hg y hy
  rw [active?_after] at hg
  obtain ⟨f, hf, rfl⟩ := Option.map_eq_some_iff.mp hg
  obtain ⟨x, hx, hxy⟩ := List.mem_filterMap.mp hy
  rw [Buff.template_of_after hxy]
  exact h f hf x hx

/-- Nothing answers when a quiet buff runs out. -/
theorem OutQuiet.expiresQuietly {d : Duelist} (h : d.OutQuiet) : d.ExpiresQuietly := by
  intro f hf y hy e he
  have hmem := (List.mem_filter.mp hy).1
  obtain ⟨x, hx, rfl⟩ := List.mem_map.mp hmem
  have htemplate : x.tick.template = x.template := by
    unfold Buff.tick
    split <;> rfl
  rw [htemplate] at he
  exact (h f hf x hx e he).2

end Duelist

namespace Scene

theorem after_zero (s : Scene) : s.after 0 = s := by
  unfold after
  rw [Duelist.after_zero, Duelist.after_zero]
  exact congrArg (fun turn => { s with turn }) (UInt32.add_zero s.turn)

theorem after_after (m n : Nat) (s : Scene) : (s.after m).after n = s.after (m + n) := by
  unfold after
  dsimp only
  rw [Duelist.after_after, Duelist.after_after, UInt32.ofNat_add, UInt32.add_assoc]

theorem active?_after (n : Nat) (id : DuelistId) (s : Scene) :
    (s.after n).active? id = (s.active? id).map (Fighter.after n) := by
  have hfound : (s.after n).duelist? id = (s.duelist? id).map (Duelist.after n) := by
    have hown : (s.own.after n).id = s.own.id := rfl
    have hopposing : (s.opposing.after n).id = s.opposing.id := rfl
    unfold duelist? after
    dsimp only
    rw [hown, hopposing]
    split
    · rfl
    · split <;> rfl
  unfold active?
  rw [hfound]
  cases s.duelist? id with
  | none => rfl
  | some d => exact d.active?_after n

end Scene

variable {b : Battle} {ctxs : List Context}

/-- One end of a turn is one turn for both duelists, when they have different numbers and nothing
answers what runs out. -/
theorem endTurn_eq_after (ctx : Context) (hapart : b.scene.Apart) (hown : b.scene.own.OutQuiet)
    (hopposing : b.scene.opposing.OutQuiet) : ctx.endTurn b = b.onScene (Scene.after 1) := by
  have hscene : Scene.nextTurn { b.scene with
      own := b.scene.own.tick, opposing := b.scene.opposing.tick } = b.scene.after 1 := by
    unfold Scene.nextTurn Scene.after
    dsimp only
    rw [Duelist.after_one, Duelist.after_one]
    rfl
  rw [Battle.endTurn_eq_ticks hown.expiresQuietly hopposing.expiresQuietly hapart]
  exact congrArg (fun scene => { b with scene }) hscene

/-- Any number of them is that number of turns, as the premises hold after each turn again. -/
theorem endTurns_eq_after (hapart : b.scene.Apart) (hown : b.scene.own.OutQuiet)
    (hopposing : b.scene.opposing.OutQuiet) :
    b.endTurns ctxs = b.onScene (Scene.after ctxs.length) := by
  induction ctxs generalizing b with
  | nil => exact congrArg (fun scene => { b with scene }) b.scene.after_zero.symm
  | cons ctx ctxs ih =>
    -- The duelists are still apart after the first end of a turn, and their buffs are still quiet.
    have hrest : (b.onScene (Scene.after 1)).endTurns ctxs =
        (b.onScene (Scene.after 1)).onScene (Scene.after ctxs.length) :=
      ih (b := b.onScene (Scene.after 1)) hapart (hown.after 1) (hopposing.after 1)
    calc b.endTurns (ctx :: ctxs)
        = (ctx.endTurn b).endTurns ctxs := rfl
      _ = (b.onScene (Scene.after 1)).endTurns ctxs := by
          rw [endTurn_eq_after ctx hapart hown hopposing]
      _ = (b.onScene (Scene.after 1)).onScene (Scene.after ctxs.length) := hrest
      _ = b.onScene (Scene.after (ctx :: ctxs).length) := by
          rw [List.length_cons, Nat.add_comm]
          exact congrArg (fun scene => { b with scene }) (Scene.after_after 1 ctxs.length b.scene)

/-- The ends of several turns in a duel between two different duelists, where nothing answers what
expires. The fighters that are out keep, in order, the buffs that last for good as they are and
those that were given more turns, counted down; the records of the turn start again with the skill
kept, the turn number grows, and nothing else changes. So a buff that was given some turns is there,
in its place, for one end of a turn less, and no longer. -/
theorem lifetimes_counted (hapart : b.scene.Apart)
    (hboards : ∀ f ∈ b.scene.fighters, ∀ x ∈ f.board.active, x.template.Quiet)
    (hturn : b.scene.turn.toNat + ctxs.length < UInt32.size) :
    b.endTurns ctxs = b.onScene (Scene.after ctxs.length) ∧
    (b.endTurns ctxs).scene.turn.toNat = b.scene.turn.toNat + ctxs.length ∧
    ∀ id f earlier x later, b.scene.active? id = some f →
      f.board.active = earlier ++ x :: later → 0 < x.turn →
      ∃ g, (b.endTurns ctxs).scene.active? id = some g ∧
        g.board.active = earlier.filterMap (Buff.after ctxs.length) ++
          (if (ctxs.length : Int) ≤ x.turn.toInt - 1
            then [{ x with turn := Int32.ofInt (x.turn.toInt - ctxs.length) }] else []) ++
          later.filterMap (Buff.after ctxs.length) := by
  obtain ⟨hown, hopposing⟩ := List.forall_mem_append.mp hboards
  -- Only the fighters that are out matter for what expires.
  have hout {d : Duelist} (h : ∀ f ∈ d.team.fighters, ∀ x ∈ f.board.active, x.template.Quiet) :
      d.OutQuiet := fun f hf => h f (List.mem_of_getElem? hf)
  have hends : b.endTurns ctxs = b.onScene (Scene.after ctxs.length) :=
    endTurns_eq_after hapart (hout hown) (hout hopposing)
  refine ⟨hends, ?_, ?_⟩
  · have hlength : (UInt32.ofNat ctxs.length).toNat = ctxs.length := by
      apply UInt32.toNat_ofNat_of_lt'
      omega
    rw [hends]
    calc (b.scene.turn + UInt32.ofNat ctxs.length).toNat
        = (b.scene.turn.toNat + ctxs.length) % UInt32.size := by rw [UInt32.toNat_add, hlength]
      _ = b.scene.turn.toNat + ctxs.length := Nat.mod_eq_of_lt hturn
  · intro id f earlier x later hf hboard hx
    refine ⟨f.after ctxs.length, ?_, ?_⟩
    · rw [hends]
      apply (b.scene.active?_after ctxs.length id).trans
      exact congrArg (Option.map _) hf
    · have hactive : (f.after ctxs.length).board.active =
          f.board.active.filterMap (Buff.after ctxs.length) := rfl
      have hhere : [x].filterMap (Buff.after ctxs.length) =
          if (ctxs.length : Int) ≤ x.turn.toInt - 1
            then [{ x with turn := Int32.ofInt (x.turn.toInt - ctxs.length) }] else [] := by
        rw [List.filterMap_cons, List.filterMap_nil, Buff.after_of_pos hx]
        by_cases hthere : (ctxs.length : Int) ≤ x.turn.toInt - 1
        · rw [if_pos hthere, if_pos hthere]
        · rw [if_neg hthere, if_neg hthere]
      rw [hactive, hboard, ← List.singleton_append, List.filterMap_append, List.filterMap_append,
        hhere, List.append_assoc]

/-- Two ends of a turn for buffs of all sorts, two of which have one number: the one for three turns
is still there, with one turn left. -/
theorem lifetimes_of_mixed_buffs :
    let plain (id turn : Int32) : Buff := .new { (default : BuffTemplate) with id } turn 0
    let ctx : Context := ⟨⟨[], [], []⟩, {}⟩
    let f := { (default : Fighter) with
      board := ⟨[plain 20 2, plain 21 (-1), plain 22 0, plain 20 3, plain 23 1], [], []⟩ }
    let g := { (default : Fighter) with board := ⟨[plain 24 (-5), plain 25 1], [], []⟩ }
    let b := Battle.new (.new ⟨1⟩ [f, g] 0) (.new ⟨2⟩ [g] 0)
    b.scene.Apart ∧ (∀ f ∈ b.scene.fighters, ∀ x ∈ f.board.active, x.template.Quiet) ∧
      b.endTurns [ctx, ctx] = b.onScene (Scene.after 2) ∧
      (b.endTurns [ctx, ctx]).scene.turn.toNat = 2 ∧
      (b.scene.after 2).fighters.map (fun f => f.board.active) =
        [[plain 21 (-1), plain 20 1], g.board.active, [plain 24 (-5)]] ∧
      ∃ h, (b.endTurns [ctx, ctx]).scene.active? ⟨1⟩ = some h ∧
        h.board.active = [plain 21 (-1), plain 20 1] := by
  intro plain ctx f g b
  have hapart : b.scene.Apart := by decide
  have hboards : ∀ f ∈ b.scene.fighters, ∀ x ∈ f.board.active, x.template.Quiet := by decide
  have hfits : b.scene.turn.toNat + [ctx, ctx].length < UInt32.size := by decide
  obtain ⟨hends, hturn, hplace⟩ := lifetimes_counted hapart hboards hfits
  obtain ⟨h, hactive, hboard⟩ := hplace ⟨1⟩ f [plain 20 2, plain 21 (-1), plain 22 0] (plain 20 3)
    [plain 23 1] rfl rfl (by decide)
  exact ⟨hapart, hboards, hends, hturn, by decide, h, hactive, hboard.trans (by decide)⟩

/-- Where both duelists have one number, the own side is found in the place of the opposing one: its
buffs are counted down twice in a turn, and those of the opposing side stay as they are. -/
theorem lifetimes_of_one_number :
    let plain (turn : Int32) : Buff := .new { (default : BuffTemplate) with id := 20 } turn 0
    let ctx : Context := ⟨⟨[], [], []⟩, {}⟩
    let f := { (default : Fighter) with board := ⟨[plain 3], [], []⟩ }
    let b := Battle.new (.new ⟨0⟩ [f] 0) (.new ⟨0⟩ [f] 0)
    (∀ f ∈ b.scene.fighters, ∀ x ∈ f.board.active, x.template.Quiet) ∧
      b.endTurns [ctx] ≠ b.onScene (Scene.after 1) ∧
      (b.scene.after 1).fighters.map (fun f => f.board.active) = [[plain 2], [plain 2]] ∧
      (b.endTurns [ctx]).scene.fighters.map (fun f => f.board.active) = [[plain 1], [plain 3]] := by
  intro plain ctx f b
  have hcounted : (b.scene.after 1).fighters.map (fun f => f.board.active) =
      [[plain 2], [plain 2]] := by decide
  have hfound : (b.endTurns [ctx]).scene.fighters.map (fun f => f.board.active) =
      [[plain 1], [plain 3]] := by decide +kernel
  refine ⟨by decide, fun hsame => ?_, hcounted, hfound⟩
  rw [hsame] at hfound
  exact absurd (hcounted.symm.trans hfound) (by decide)

end PetDuel
