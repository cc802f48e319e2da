import PetDuel.Proofs.Keyed
import PetDuel.Proofs.Lasting
import PetDuel.Proofs.Quiet

/-!
Footprints: what an effect of each ability can change. As long as the coming and the leaving of
buffs is not answered, everything else stays as it is: the other duelist, the fighters that are not
out, and the scenes that were kept.
-/

namespace PetDuel

structure Pet.Tuned (p q : Pet) : Prop where
  sameMake : p.SameMake q
  others : ∃ a, ∀ a', a' ≠ a → q.read? a' = p.read? a'

namespace Fighter

def OnlyHp (f g : Fighter) : Prop := g = { f with hp := g.hp }

def OnlyAnger (f g : Fighter) : Prop :=
  g = { f with
    anger := g.anger
    sheet := { f.sheet with minAnger := g.sheet.minAnger, maxAnger := g.sheet.maxAnger } }

def OnlyAddition (f g : Fighter) : Prop :=
  ∃ c x, g = { f with sheet := { f.sheet with added := f.sheet.added.set c x } }

def OnlyBlocks (f g : Fighter) : Prop :=
  g = { f with board := { f.board with
    blockedIds := g.board.blockedIds, blockedRanges := g.board.blockedRanges } }

def OnlyBuffs (n : Int32) (f g : Fighter) : Prop :=
  g = { f with board := g.board } ∧ f.board.Spares (fun id => id == n) g.board

def OnlyCarried (f g : Fighter) : Prop :=
  g = { f with anger := g.anger, board := { f.board with active := g.board.active } }

def OnlyStage (f g : Fighter) : Prop :=
  f.Spares isMarkerId g ∧ ∃ c, ∀ d, d ≠ c → g.sheet.stage d = f.sheet.stage d

def OnlyWritten (f g : Fighter) : Prop :=
  f.OnlyHp g ∨ f.OnlyAnger g ∨ f.OnlyStage g ∨ g = { f with pet := g.pet } ∧ f.pet.Tuned g.pet

end Fighter

structure Skill.Tuned (s u : Skill) : Prop where
  rest : u = { s with
    element := u.element, kind := u.kind, power := u.power, anger := u.anger
    accuracy := u.accuracy, critical := u.critical, priority := u.priority, combo := u.combo
    secondSuper := u.secondSuper, ignoreShield := u.ignoreShield, ignoreStages := u.ignoreStages }
  others : ∃ a, ∀ a', a' ≠ a → u.read a' = s.read a'

namespace TurnRecord

def OnlyDamage (t u : TurnRecord) : Prop :=
  u = { t with skillDamage := u.skillDamage } ∨ u = { t with itemDamage := u.itemDamage } ∨
    u = { t with buffDamage := u.buffDamage }

def OnlyHeal (t u : TurnRecord) : Prop :=
  u = { t with skillHeal := u.skillHeal } ∨ u = { t with itemHeal := u.itemHeal } ∨
    u = { t with buffHeal := u.buffHeal }

def OnlyWritten (t u : TurnRecord) : Prop :=
  t.OnlyDamage u ∨ t.OnlyHeal u ∨ u = { t with hit := u.hit } ∨
    u = { t with critical := u.critical } ∨ u = { t with relation := u.relation } ∨
    u = { t with skill := u.skill } ∧ t.skill.Tuned u.skill

end TurnRecord

namespace Duelist

/-- At most the fighter that is out differs, and that one as `R` says. -/
def Out (R : Fighter → Fighter → Prop) (d e : Duelist) : Prop :=
  e = d ∨ ∃ f g, d.active? = some f ∧ R f g ∧ e = d.setActive g

def Tries (d e : Duelist) : Prop :=
  ∃ stream result, e = { d with
    stream, turn := { d.turn with
      skill := { d.skill with options := d.skill.options.set "capture_result" result } } }

def Heals (d e : Duelist) : Prop :=
  ∃ turn, d.turn.OnlyHeal turn ∧ { d with turn }.Out Fighter.OnlyHp e

def Raises (d e : Duelist) : Prop := ∃ stream, { d with stream }.Out (Fighter.Spares isMarkerId) e

def TakesDamage (d e : Duelist) : Prop := e = { d with turn := e.turn } ∧ d.turn.OnlyDamage e.turn

def Writes (d e : Duelist) : Prop := e = { d with turn := e.turn } ∧ d.turn.OnlyWritten e.turn

def Chooses (d e : Duelist) : Prop :=
  e = { d with turn := { d.turn with skill := e.turn.skill }, stream := e.stream }

/-- Only the cursor differs, and what is handed over between the fighters in some slots. -/
structure Swaps (slots : Nat → Prop) (d e : Duelist) : Prop where
  rest : e = { d with team := e.team }
  fighters : List.Forall₂ Fighter.OnlyCarried d.team.fighters e.team.fighters
  others : ∀ i, ¬slots i → e.team.fighters[i]? = d.team.fighters[i]?

def Switches (d e : Duelist) : Prop := d.Swaps (fun i => i = d.team.cursor ∨ i = e.team.cursor) e

def ChangesIf (named : DuelistId → Prop) (R : Duelist → Duelist → Prop) (d e : Duelist) : Prop :=
  e = d ∨ named d.id ∧ R d e

/-- Fighters that are out neither before nor after are the same. -/
def KeepsBench (d e : Duelist) : Prop :=
  ∀ i, i ≠ d.team.cursor → i ≠ e.team.cursor → e.team.fighters[i]? = d.team.fighters[i]?

end Duelist

namespace Scene

/-- Nothing but the duelists that are named differs, and these as `R` says. -/
structure Within (named : DuelistId → Prop) (R : Duelist → Duelist → Prop) (s t : Scene) :
    Prop where
  rest : t = { s with own := t.own, opposing := t.opposing }
  own : s.own.ChangesIf named R t.own
  opposing : s.opposing.ChangesIf named R t.opposing

def Ends (s t : Scene) : Prop :=
  t = { s with
    phase := t.phase, outcome := t.outcome
    own := { s.own with done := t.own.done }
    opposing := { s.opposing with done := t.opposing.done } }

end Scene

/-- What an effect can change at most, by its ability. -/
def Effect.Footprint (e : Effect) (s t : Scene) : Prop :=
  let target (id : DuelistId) : Prop := s.named? e "who" "me" = some id
  let invoker (id : DuelistId) : Prop := e.invoker = some id
  match e.ability with
  | .win | .escape => s.Ends t
  | .capture => ∃ u, s.Within invoker Duelist.Tries u ∧ u.Ends t
  | .switchPet => ∃ u, s.Within invoker Duelist.Switches u ∧ t = { u with sentOut := t.sentOut }
  | .heal => s.Within target Duelist.Heals t
  | .rage => s.Within target (Duelist.Out Fighter.OnlyAnger) t
  | .raiseStages => s.Within target Duelist.Raises t
  | .addStats => s.Within target (Duelist.Out Fighter.OnlyAddition) t
  | .blockBuffs => s.Within target (Duelist.Out Fighter.OnlyBlocks) t
  | .addBuff | .setBuff =>
    s.Within target (Duelist.Out fun f g => ∃ n, e.int? "id" "0" = some n ∧ f.OnlyBuffs n g) t
  | .removeBuffs => s.Within target (Duelist.Out (Fighter.Spares fun _ => true)) t
  | .copyBuffs =>
    s.Within (fun id => s.named? e "source" "op" = some id ∨ s.named? e "target" "me" = some id)
      (Duelist.Out (Fighter.Spares fun _ => true)) t
  | .setDamage => s.Within target Duelist.TakesDamage t
  | .setSkill =>
    if e.option "type" Options.emptyText = "id" then s.Within target Duelist.Chooses t
    else s.Within target Duelist.Writes t
  | .setPet => s.Within target (Duelist.Out Fighter.OnlyWritten) t
  | .setWeather => t = { s with weather := t.weather }

namespace Pet

variable {p q : Pet} {a a' : PetAttribute} {x : Double}

/-- A written attribute leaves what is read of the others. -/
theorem read?_of_write? (h : p.write? a x = some q) (ha : a' ≠ a) : q.read? a' = p.read? a' := by
  cases a with
  | record key =>
    cases h
    cases a' with
    | record key' =>
      have hkey : key' ≠ key := fun hsame => ha (hsame ▸ rfl)
      exact congrArg (Option.map Prod.snd) (Keyed.find?_put_of_ne hkey p.records)
    | _ => rfl
  | knows | brings | id | baseId | element | subElement => cases h
  | _ =>
    cases h
    cases a' <;> first | exact absurd rfl ha | rfl

theorem tuned_write? (h : p.write? a x = some q) : p.Tuned q :=
  ⟨sameMake_write? h, a, fun _ => read?_of_write? h⟩

theorem Tuned.refl (p : Pet) : p.Tuned p := ⟨.refl p, .id, fun _ _ => rfl⟩

end Pet

namespace BuffBoard

theorem Spares.active {ids : Int32 → Bool} {board board' : BuffBoard}
    (h : board.Spares ids board') : board' = { board with active := board'.active } := by
  obtain ⟨active, blockedIds, blockedRanges⟩ := board'
  rw [BuffBoard.mk.injEq]
  exact ⟨rfl, h.blockedIds, h.blockedRanges⟩

end BuffBoard

namespace Fighter

variable {f g h : Fighter}

theorem OnlyCarried.refl (f : Fighter) : f.OnlyCarried f := rfl

theorem OnlyCarried.trans (hfg : f.OnlyCarried g) (hgh : g.OnlyCarried h) : f.OnlyCarried h := by
  unfold OnlyCarried at hfg hgh ⊢
  rw [hfg] at hgh
  exact hgh

theorem onlyCarried_onBoard {step : BuffBoard → BuffBoard × BuffChange}
    (hstep : ∀ board : BuffBoard, board.Spares (fun _ => true) (step board).1) (f : Fighter) :
    f.OnlyCarried (f.onBoard step).1 := by
  have hactive := (hstep f.board).active
  exact congrArg (fun board => ({ f with board } : Fighter)) hactive

theorem onlyBlocks_blockOn (block : Bool) (ids : List Int32) (ranges : List (Int32 × Int32))
    (f : Fighter) : f.OnlyBlocks (Deed.blockOn block ids ranges f) := by
  cases block <;> rfl

/-- Adding a buff touches buffs with its number only, by whatever policy. -/
theorem onlyBuffs_add (x : Buff) (f : Fighter) :
    f.OnlyBuffs x.id (f.onBoard fun board => board.add x).1 := by
  refine ⟨rfl, ?_⟩
  apply BuffBoard.spares_add
  exact beq_self_eq_true x.id

/-- Writing an attribute of a buff touches buffs with its number only, also when the buff is spent
then and leaves. -/
theorem onlyBuffs_writeBuff (n : Int32) (a : BuffAttribute) (x : Double) (f : Fighter) :
    f.OnlyBuffs n (f.onBoard (Deed.writeBuff n a x)).1 := by
  refine ⟨rfl, ?_⟩
  change f.board.Spares _ (Deed.writeBuff n a x f.board).1
  unfold Deed.writeBuff
  cases hupdate : f.board.update? n fun b => (b.write? a x).getD b with
  | none => exact .refl f.board
  | some result =>
    apply BuffBoard.spares_update? _ (fun b => (b.rewritten_write? a x).id) hupdate
    exact beq_self_eq_true n

theorem isMarkerId_markerId (c : StageChannel) (raised : Bool) :
    isMarkerId (markerId c raised) = true := by
  cases c <;> cases raised <;> decide

theorem syncEach_sheet (catalog : Catalog) (cs : List StageChannel) (f : Fighter) :
    (f.syncEach catalog cs).1.sheet = f.sheet := by
  induction cs generalizing f with
  | nil => rfl
  | cons c cs ih => exact (ih _).trans (syncMarker_sheet catalog c f)

/-- A written stage moves that stage alone. -/
theorem onlyStage_setStageOf (c : Channel) (n : Int32) (f : Fighter) :
    f.OnlyStage { f with sheet := f.sheet.setStageOf c n } := by
  unfold StatSheet.setStageOf
  split
  · rename_i c' _
    refine ⟨spares_setStage _ _ f, c', ?_⟩
    intro d hd
    exact (Stages.get_set _ c' d _).trans (if_neg hd.symm)
  · exact ⟨.refl f, .attack, fun _ _ => rfl⟩

/-- Bringing the markers in line keeps the footprint of a stage, as markers belong to it. -/
theorem OnlyStage.syncMarkers (h : f.OnlyStage g) (catalog : Catalog) :
    f.OnlyStage (g.syncMarkers catalog).1 := by
  obtain ⟨hspared, c, hothers⟩ := h
  have hsynced : g.Spares isMarkerId (g.syncMarkers catalog).1 :=
    spares_syncEach (fun c _ => isMarkerId_markerId c) g
  have hsheet : (g.syncMarkers catalog).1.sheet = g.sheet :=
    syncEach_sheet catalog StageChannel.all g
  refine ⟨hspared.trans hsynced, c, ?_⟩
  rw [hsheet]
  exact hothers

/-- A written attribute is one place of the fighter, and a written stage moves the markers too. -/
theorem onlyWritten_writeFighter (ctx : Context) (a : FighterAttribute) (x : Double) (f : Fighter) :
    f.OnlyWritten (Deed.writeFighter ctx a x f).1 := by
  cases a with
  | stage c =>
    have hwritten := f.onlyStage_setStageOf c x.toInt32
    exact Or.inr (Or.inr (Or.inl (hwritten.syncMarkers ctx.catalog)))
  | pet a =>
    refine Or.inr (Or.inr (Or.inr ?_))
    change (_ = _) ∧ f.pet.Tuned ((f.write? (.pet a) x).getD f).pet
    cases hpet : f.pet.write? a x with
    | none =>
      simp only [Deed.writeFighter, write?, hpet, Option.map_none, Option.getD_none]
      exact ⟨trivial, .refl f.pet⟩
    | some pet =>
      simp only [Deed.writeFighter, write?, hpet, Option.map_some, Option.getD_some]
      exact ⟨trivial, Pet.tuned_write? hpet⟩
  | anger | minAnger | maxAnger => exact Or.inr (Or.inl rfl)
  | hp | buffs | entryStat | maxHp | isDead | stat => exact Or.inl rfl

end Fighter

namespace Skill

variable {s u : Skill} {a a' : SkillAttribute} {x : Double}

theorem read_of_write? (h : s.write? a x = some u) (ha : a' ≠ a) : u.read a' = s.read a' := by
  cases a with
  | id => cases h
  | kind =>
    obtain ⟨kind, _, rfl⟩ := Option.map_eq_some_iff.mp h
    cases a' <;> first | exact absurd rfl ha | rfl
  | _ =>
    cases h
    cases a' <;> first | exact absurd rfl ha | rfl

theorem tuned_write? (h : s.write? a x = some u) : s.Tuned u := by
  refine ⟨?_, a, fun _ => read_of_write? h⟩
  cases a with
  | id => cases h
  | kind =>
    obtain ⟨kind, _, rfl⟩ := Option.map_eq_some_iff.mp h
    rfl
  | _ =>
    cases h
    rfl

theorem Tuned.refl (s : Skill) : s.Tuned s := ⟨rfl, .id, fun _ _ => rfl⟩

end Skill

namespace TurnRecord

/-- A healing is credited to one account at most. -/
theorem onlyHeal_credit (account : Option HealAccount) (amount : Int32) (t : TurnRecord) :
    t.OnlyHeal (Deed.credit account amount t) := by
  cases account with
  | none => exact Or.inl rfl
  | some account =>
    cases account with
    | skill => exact Or.inl rfl
    | item => exact Or.inr (Or.inl rfl)
    | buff => exact Or.inr (Or.inr rfl)

theorem onlyDamage_write? {a : TurnAttribute}
    (ha : a ∈ [.skillDamage, .itemDamage, .buffDamage]) (x : Double) (t : TurnRecord) :
    t.OnlyDamage ((t.write? a x).getD t) := by
  simp only [List.mem_cons, List.not_mem_nil, or_false] at ha
  rcases ha with rfl | rfl | rfl
  · exact Or.inl rfl
  · exact Or.inr (Or.inl rfl)
  · exact Or.inr (Or.inr rfl)

/-- A turn record that is written differs in one of its own attributes, or its skill differs in one
of those. -/
theorem onlyWritten_write? (a : TurnAttribute) (x : Double) (t : TurnRecord) :
    t.OnlyWritten ((t.write? a x).getD t) := by
  cases a with
  | skillDamage => exact Or.inl (Or.inl rfl)
  | itemDamage => exact Or.inl (Or.inr (Or.inl rfl))
  | buffDamage => exact Or.inl (Or.inr (Or.inr rfl))
  | skillHeal => exact Or.inr (Or.inl (Or.inl rfl))
  | itemHeal => exact Or.inr (Or.inl (Or.inr (Or.inl rfl)))
  | buffHeal => exact Or.inr (Or.inl (Or.inr (Or.inr rfl)))
  | hit => exact Or.inr (Or.inr (Or.inl rfl))
  | critical => exact Or.inr (Or.inr (Or.inr (Or.inl rfl)))
  | relation => exact Or.inr (Or.inr (Or.inr (Or.inr (Or.inl rfl))))
  | skill a =>
    refine Or.inr (Or.inr (Or.inr (Or.inr (Or.inr ?_))))
    cases hskill : t.skill.write? a x with
    | none =>
      simp only [write?, hskill, Option.map_none, Option.getD_none]
      exact ⟨trivial, .refl t.skill⟩
    | some skill =>
      simp only [write?, hskill, Option.map_some, Option.getD_some]
      exact ⟨trivial, Skill.tuned_write? hskill⟩

end TurnRecord

namespace Duelist

variable {R : Fighter → Fighter → Prop} {d e d' : Duelist} {slots : Nat → Prop}

/-- Two changes of the fighter that is out are one, if what they do adds up. -/
theorem Out.trans (hR : ∀ f g h, R f g → R g h → R f h) (hde : d.Out R e) (hed : e.Out R d') :
    d.Out R d' := by
  rcases hde with rfl | ⟨f, g, hf, hfg, rfl⟩
  · exact hed
  · rcases hed with rfl | ⟨f', h, hf', hgh, rfl⟩
    · exact Or.inr ⟨f, g, hf, hfg, rfl⟩
    · rw [active?_setActive hf] at hf'
      cases hf'
      refine Or.inr ⟨f, h, hf, hR _ _ _ hfg hgh, ?_⟩
      exact d.setActive_setActive g h

theorem out_mapFighter {op : Fighter → Fighter} (h : ∀ f, R f (op f)) (d : Duelist) :
    d.Out R (d.mapFighter op) := by
  unfold mapFighter
  split
  · rename_i f hf
    exact Or.inr ⟨f, op f, hf, h f, rfl⟩
  · exact Or.inl rfl

theorem out_onFighter {op : Fighter → Fighter × BuffChange} (h : ∀ f, R f (op f).1) (d : Duelist) :
    d.Out R (d.onFighter op).1 := by
  unfold onFighter
  split
  · rename_i f hf
    exact Or.inr ⟨f, (op f).1, hf, h f, rfl⟩
  · exact Or.inl rfl

theorem others_setActive {i : Nat} (hi : i ≠ d.team.cursor) (g : Fighter) :
    (d.setActive g).team.fighters[i]? = d.team.fighters[i]? := List.getElem?_set_ne hi.symm

theorem Out.keepsBench (h : d.Out R e) : d.KeepsBench e := by
  intro i hi _
  rcases h with rfl | ⟨f, g, _, _, rfl⟩
  · rfl
  · exact others_setActive hi g

theorem KeepsBench.of_team (h : e.team = d.team) : d.KeepsBench e := by
  intro i _ _
  rw [h]

theorem KeepsBench.congr (h : d.KeepsBench e) (hteam : d'.team = e.team) : d.KeepsBench d' := by
  unfold KeepsBench
  rw [hteam]
  exact h

theorem Tries.keepsBench (h : d.Tries e) : d.KeepsBench e := by
  obtain ⟨_, _, rfl⟩ := h
  exact .of_team rfl

theorem Heals.keepsBench (h : d.Heals e) : d.KeepsBench e := by
  obtain ⟨_, _, hout⟩ := h
  exact hout.keepsBench

theorem Raises.keepsBench (h : d.Raises e) : d.KeepsBench e := by
  obtain ⟨_, hout⟩ := h
  exact hout.keepsBench

theorem TakesDamage.keepsBench (h : d.TakesDamage e) : d.KeepsBench e :=
  .of_team (congrArg Duelist.team h.1 :)

theorem Writes.keepsBench (h : d.Writes e) : d.KeepsBench e :=
  .of_team (congrArg Duelist.team h.1 :)

theorem Chooses.keepsBench (h : d.Chooses e) : d.KeepsBench e :=
  .of_team (congrArg Duelist.team h :)

theorem Switches.keepsBench (h : d.Switches e) : d.KeepsBench e :=
  fun i hbefore hafter => h.others i (not_or.mpr ⟨hbefore, hafter⟩)

theorem Swaps.refl (d : Duelist) : d.Swaps slots d :=
  ⟨rfl, List.forall₂_same.mpr fun f _ => .refl f, fun _ _ => rfl⟩

theorem Swaps.trans (hde : d.Swaps slots e) (hed : e.Swaps slots d') : d.Swaps slots d' where
  rest := by
    have hlast := hed.rest
    rw [hde.rest] at hlast
    exact hlast
  fighters := forall₂_trans (fun _ _ _ hfg hgh => hfg.trans hgh) hde.fighters hed.fighters
  others := fun i hi => (hed.others i hi).trans (hde.others i hi)

theorem swaps_setActive (hslot : slots d.team.cursor) {f g : Fighter} (hf : d.active? = some f)
    (hg : f.OnlyCarried g) : d.Swaps slots (d.setActive g) where
  rest := rfl
  fighters := forall₂_set .refl hf hg
  others := by
    intro i hi
    have hother : i ≠ d.team.cursor := fun hcursor => hi (hcursor ▸ hslot)
    exact others_setActive hother g

theorem swaps_onBoard (hslot : slots d.team.cursor) {step : BuffBoard → BuffBoard × BuffChange}
    (hstep : ∀ board : BuffBoard, board.Spares (fun _ => true) (step board).1) :
    d.Swaps slots (d.onFighter (Fighter.onBoard step)).1 := by
  unfold onFighter
  split
  · rename_i f hf
    exact swaps_setActive hslot hf (Fighter.onlyCarried_onBoard hstep f)
  · exact .refl d

theorem cursor_onFighter (op : Fighter → Fighter × BuffChange) (d : Duelist) :
    (d.onFighter op).1.team.cursor = d.team.cursor := by
  unfold onFighter
  split <;> rfl

theorem cursor_comeOut (target : Nat) (carried : Int32) (d : Duelist) :
    (Deed.comeOut target carried d).team.cursor = target := by
  unfold Deed.comeOut
  dsimp only
  split <;> rfl

theorem swaps_comeOut {target : Nat} (hslot : slots target) (carried : Int32) (d : Duelist) :
    d.Swaps slots (Deed.comeOut target carried d) := by
  have hout : d.Swaps slots { d with team := { d.team with cursor := target } } :=
    ⟨rfl, List.forall₂_same.mpr fun f _ => .refl f, fun _ _ => rfl⟩
  unfold Deed.comeOut
  dsimp only
  split
  · rename_i f hf
    exact hout.trans (swaps_setActive hslot hf rfl)
  · exact hout

/-- A switch as a whole touches the two slots that change places, and in them what is handed over.
-/
theorem switches_switch (target : Nat) (carried : Int32) (inherited : List Buff) (fainted : Bool)
    (d : Duelist) : d.Switches (d.switch target carried inherited fainted) := by
  -- The changes that a switch makes, one after the other.
  let left := (d.onFighter (Fighter.onBoard fun board => board.removeEach inherited)).1
  let swept := (left.onFighter (Fighter.onBoard fun board =>
    board.removeWhere fun x => !x.template.keep)).1
  let out := Deed.comeOut target carried swept
  let joined := (out.onFighter (Fighter.onBoard fun board => board.addEach inherited)).1
  let slots : Nat → Prop := fun i => i = d.team.cursor ∨ i = target
  have hleft : d.Swaps slots left :=
    swaps_onBoard (Or.inl rfl) (BuffBoard.spares_each fun _ _ => BuffBoard.spares_remove rfl)
  have hcursor : left.team.cursor = d.team.cursor := cursor_onFighter _ d
  have hswept : left.Swaps slots swept :=
    swaps_onBoard (Or.inl hcursor) (BuffBoard.spares_removeWhere fun _ _ => rfl)
  have hout : swept.Swaps slots out := swaps_comeOut (Or.inr rfl) carried swept
  have htarget : out.team.cursor = target := cursor_comeOut target carried swept
  have hjoined : out.Swaps slots joined :=
    swaps_onBoard (Or.inr htarget) (BuffBoard.spares_each fun _ _ => BuffBoard.spares_add rfl)
  have hcame := (hleft.trans hswept).trans hout
  unfold Switches
  cases fainted with
  | true =>
    change d.Swaps (fun i => i = d.team.cursor ∨ i = out.team.cursor) out
    rw [htarget]
    exact hcame
  | false =>
    have hlast : joined.team.cursor = target := (cursor_onFighter _ out).trans htarget
    change d.Swaps (fun i => i = d.team.cursor ∨ i = joined.team.cursor) joined
    rw [hlast]
    exact hcame.trans hjoined

theorem raises_moveStages (ctx : Context) (wanted : Stages) (pick : Pick) (d : Duelist) :
    d.Raises (d.moveStages ctx wanted pick).1 :=
  ⟨(Deed.picked wanted pick d.stream).2, out_onFighter (fun f =>
    Fighter.spares_shiftStages Fighter.isMarkerId_markerId _ f) _⟩

variable {named : DuelistId → Prop} {P : Duelist → Duelist → Prop}

theorem ChangesIf.trans (hP : ∀ d e d', P d e → P e d' → P d d') (hde : d.ChangesIf named P e)
    (hed : e.ChangesIf named P d') : d.ChangesIf named P d' := by
  rcases hde with rfl | ⟨hnamed, hchanged⟩
  · exact hed
  · rcases hed with rfl | ⟨_, hchanged'⟩
    · exact Or.inr ⟨hnamed, hchanged⟩
    · exact Or.inr ⟨hnamed, hP _ _ _ hchanged hchanged'⟩

theorem ChangesIf.keepsBench (h : d.ChangesIf named P e) (hP : ∀ d e, P d e → d.KeepsBench e) :
    d.KeepsBench e := by
  rcases h with rfl | ⟨_, hchanged⟩
  · exact .of_team rfl
  · exact hP d e hchanged

end Duelist

end PetDuel
