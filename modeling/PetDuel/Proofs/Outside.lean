import PetDuel.Deed.Outside
import PetDuel.Proofs.DoubleTexts
import PetDuel.Proofs.WriteBack

/-!
Pets outside a duel. Whatever is dispatched on such a pet, it stays the pet that it is, its level
stays one that a pet can have, and effort that is taken back goes into storage. Its health stays
between zero and full as long as no healing is by what is no number; after such a healing the health
is no number either, and nothing outside a duel makes it one again.
-/

namespace PetDuel

def Pet.afterOutside (p : Pet) (effects : List Effect) : Pet :=
  effects.foldl (fun p e => (e.dispatchOutside p).2) p

def Effect.HealsByNoNumber (e : Effect) : Prop :=
  e.ability = .heal ∧ Double.saysNoNumber (Text.trim (e.option "add" "0")) = true

instance (e : Effect) : Decidable e.HealsByNoNumber := inferInstanceAs (Decidable (_ ∧ _))

def Effect.TakesBackEffort (e : Effect) : Prop :=
  e.ability = .setPet ∧ e.option "type" Options.emptyText = "evReset"

namespace Pet

def effort (p : Pet) : Int := (p.ev.toList.map Int32.toInt).sum

def HpInBounds (p : Pet) : Prop := Double.ofInt 0 ≤ p.hp ∧ p.hp ≤ p.normal.get .health

def HasHealth (p : Pet) : Prop :=
  Double.ofInt 0 ≤ p.normal.get .health ∧ (p.normal.get .health).isFinite = true

instance (p : Pet) : Decidable p.HpInBounds := inferInstanceAs (Decidable (_ ∧ _))
instance (p : Pet) : Decidable p.HasHealth := inferInstanceAs (Decidable (_ ∧ _))

/-- What no effect outside a duel writes is the same for two pets. -/
structure SamePet (p q : Pet) : Prop where
  normal : q.normal = p.normal
  id : q.id = p.id
  baseId : q.baseId = p.baseId
  element : q.element = p.element
  subElement : q.subElement = p.subElement
  skills : q.skills = p.skills
  entryBuffs : q.entryBuffs = p.entryBuffs

theorem SamePet.refl (p : Pet) : p.SamePet p := ⟨rfl, rfl, rfl, rfl, rfl, rfl, rfl⟩

theorem SamePet.trans {p q r : Pet} (h : p.SamePet q) (h' : q.SamePet r) : p.SamePet r :=
  ⟨h'.normal.trans h.normal, h'.id.trans h.id, h'.baseId.trans h.baseId,
    h'.element.trans h.element, h'.subElement.trans h.subElement, h'.skills.trans h.skills,
    h'.entryBuffs.trans h.entryBuffs⟩

theorem SamePet.hasHealth {p q : Pet} (h : p.SamePet q) (hp : p.HasHealth) : q.HasHealth := by
  rw [HasHealth, h.normal]
  exact hp

variable {p q : Pet} {x : Double}

theorem hp_setHp (p : Pet) (x : Double) :
    (p.setHp x).hp = Double.clampTo (Double.ofInt 0) p.fullHp x :=
  Vector.getElem_set_self _

theorem fullHp_mem (h : p.HasHealth) :
    Double.ofInt 0 ≤ p.fullHp ∧ p.fullHp ≤ p.normal.get .health := by
  obtain ⟨hzero, hnumber, _⟩ := Double.le_iff.mp h.1
  unfold fullHp Double.larger
  rw [if_neg (by decide)]
  split_ifs
  · exact ⟨h.1, Double.le_self hnumber⟩
  · exact ⟨Double.le_self hzero, h.1⟩

/-- Any number that is written as the health ends up within the bounds. -/
theorem hpInBounds_setHp (h : p.HasHealth) (hx : x.isNotANumber = false) :
    (p.setHp x).HpInBounds := by
  obtain ⟨hlow, hhigh⟩ := p.fullHp_mem h
  obtain ⟨hzero, hfull⟩ := Double.clampTo_mem hlow hx
  rw [HpInBounds, hp_setHp]
  exact ⟨hzero, Double.le_trans_of_numbers hfull hhigh⟩

theorem isNotANumber_hp_setHp (hx : x.isNotANumber = true) :
    (p.setHp x).hp.isNotANumber = true := by
  rw [hp_setHp, Double.clampTo_of_isNotANumber hx]
  exact hx

/-- A sum of 32-bit numbers is the sum of the numbers up to overflow. -/
theorem toInt_foldl_add (ns : List Int32) (n : Int32) : (ns.foldl (· + ·) n).toInt =
    (n.toInt + (ns.map Int32.toInt).sum).bmod (2 ^ 32) := by
  induction ns generalizing n with
  | nil =>
    have hlow := n.le_toInt
    have hhigh := n.toInt_lt
    rw [List.foldl_nil, List.map_nil, List.sum_nil, Int.add_zero]
    exact (Int.bmod_eq_of_le (by omega) (by omega)).symm
  | cons m ns ih =>
    rw [List.foldl_cons, ih, Int32.toInt_add, List.map_cons, List.sum_cons, Int.bmod_add_bmod,
      Int.add_assoc]

/-- Effort that is taken back is added to the storage, as long as the storage has room for it. -/
theorem evStorage_resetEffort (hlow : -2 ^ 31 ≤ p.evStorage.toInt + p.effort)
    (hhigh : p.evStorage.toInt + p.effort < 2 ^ 31) :
    p.resetEffort.evStorage.toInt = p.evStorage.toInt + p.effort := by
  unfold effort at hlow hhigh ⊢
  have hsum : p.resetEffort.evStorage.toInt =
      (p.evStorage.toInt + (p.ev.toList.foldl (· + ·) 0).toInt).bmod (2 ^ 32) := Int32.toInt_add _ _
  have hzero : (0 : Int32).toInt = 0 := rfl
  rw [hsum, toInt_foldl_add, Int.add_bmod_bmod, hzero, Int.zero_add]
  -- Wrapping around at every addition comes to the same as wrapping around once at the end.
  exact Int.bmod_eq_of_le (by omega) (by omega)

/-- A written attribute touches neither what is set for good nor the statistics nor the effort. -/
theorem write?_spares {a : PetAttribute} (h : p.write? a x = some q) :
    p.SamePet q ∧ q.current = p.current ∧ q.ev = p.ev ∧ (p.HasLevel → q.HasLevel) := by
  cases a with
  | knows | brings | id | baseId | element | subElement => cases h
  | level =>
    cases h
    exact ⟨⟨rfl, rfl, rfl, rfl, rfl, rfl, rfl⟩, rfl, rfl, fun _ => bounded_mem 1 topLevel _⟩
  | _ =>
    cases h
    exact ⟨⟨rfl, rfl, rfl, rfl, rfl, rfl, rfl⟩, rfl, rfl, fun h => h⟩

end Pet

namespace Effect

variable (e : Effect) (p : Pet)

/-- An effect that is neither a healing nor the writing of an attribute is refused. -/
theorem dispatchOutside_of_ability_ne (hheal : e.ability ≠ .heal) (hset : e.ability ≠ .setPet) :
    e.dispatchOutside p = (false, p) := by
  unfold dispatchOutside
  split
  · contradiction
  · contradiction
  · rfl

/-- A write outside a duel takes back the effort, writes one attribute, or does nothing. -/
theorem setOutside?_cases {e : Effect} {p q : Pet} (h : e.setOutside? p = some q) :
    e.option "type" Options.emptyText = "evReset" ∧ q = p.resetEffort ∨
      (∃ a x, p.write? a x = some q) ∨ q = p := by
  unfold setOutside? at h
  obtain ⟨op, _, h⟩ := Option.bind_eq_some_iff.mp h
  extract_lets field at h
  split at h
  · rename_i hfield
    cases h
    exact .inl ⟨eq_of_beq hfield, rfl⟩
  · obtain ⟨a, _, h⟩ := Option.bind_eq_some_iff.mp h
    obtain ⟨old, _, h⟩ := Option.bind_eq_some_iff.mp h
    obtain ⟨x, _, h⟩ := Option.bind_eq_some_iff.mp h
    cases h
    right
    cases hwrite : p.write? a (op.apply old x) with
    | none => exact .inr rfl
    | some q => exact .inl ⟨a, _, hwrite⟩

theorem dispatchOutside_of_heal {e : Effect} (h : e.ability = .heal) (p : Pet) :
    e.dispatchOutside p = ((e.healOutside? p).isSome, (e.healOutside? p).getD p) := by
  unfold dispatchOutside
  rw [h]
  dsimp only
  cases e.healOutside? p <;> rfl

theorem dispatchOutside_of_setPet {e : Effect} (h : e.ability = .setPet) (p : Pet) :
    e.dispatchOutside p = ((e.setOutside? p).isSome, (e.setOutside? p).getD p) := by
  unfold dispatchOutside
  rw [h]
  dsimp only
  cases e.setOutside? p <;> rfl

/-- What an effect can do to a pet outside a duel: heal it, take back its effort, write an attribute
or nothing. -/
theorem dispatchOutside_cases :
    (∃ x, (x.isNotANumber = true ↔ e.HealsByNoNumber) ∧
      e.dispatchOutside p = (true, p.setHp (p.hp + x))) ∨
    ¬e.HealsByNoNumber ∧ (e.TakesBackEffort ∧ e.dispatchOutside p = (true, p.resetEffort) ∨
      (∃ a x, p.write? a x = some (e.dispatchOutside p).2) ∨ (e.dispatchOutside p).2 = p) := by
  by_cases hheal : e.ability = .heal
  · -- Whether the amount is a number can be told from its text.
    have hspelled := Double.any_isNotANumber_ofText? (Text.trim (e.option "add" "0"))
    rw [HealsByNoNumber, and_iff_right hheal, ← hspelled, dispatchOutside_of_heal hheal,
      healOutside?]
    cases Double.ofText? (Text.trim (e.option "add" "0")) with
    | none => exact .inr ⟨nofun, .inr (.inr rfl)⟩
    | some x => exact .inl ⟨x, Iff.rfl, rfl⟩
  refine .inr ⟨fun h => hheal h.1, ?_⟩
  by_cases hset : e.ability = .setPet
  · rw [dispatchOutside_of_setPet hset]
    cases hwritten : e.setOutside? p with
    | none => exact .inr (.inr rfl)
    | some q =>
      obtain ⟨hfield, rfl⟩ | h := setOutside?_cases hwritten
      · exact .inl ⟨⟨hset, hfield⟩, rfl⟩
      · exact .inr h
  · rw [e.dispatchOutside_of_ability_ne p hheal hset]
    exact .inr (.inr rfl)

/-- No effect outside a duel touches what is set for good. -/
theorem samePet_dispatchOutside : p.SamePet (e.dispatchOutside p).2 := by
  obtain ⟨x, _, h⟩ | ⟨_, ⟨_, h⟩ | ⟨a, x, h⟩ | h⟩ := e.dispatchOutside_cases p
  · rw [h]
    exact ⟨rfl, rfl, rfl, rfl, rfl, rfl, rfl⟩
  · rw [h]
    exact ⟨rfl, rfl, rfl, rfl, rfl, rfl, rfl⟩
  · exact (Pet.write?_spares h).1
  · rw [h]
    exact .refl p

/-- A level is only ever written within its bounds. -/
theorem hasLevel_dispatchOutside (hp : p.HasLevel) : (e.dispatchOutside p).2.HasLevel := by
  obtain ⟨x, _, h⟩ | ⟨_, ⟨_, h⟩ | ⟨a, x, h⟩ | h⟩ := e.dispatchOutside_cases p
  · rw [h]
    exact hp
  · rw [h]
    exact hp
  · exact (Pet.write?_spares h).2.2.2 hp
  · rw [h]
    exact hp

/-- The effort stays as it is or is taken back as a whole. -/
theorem ev_dispatchOutside : (e.dispatchOutside p).2.ev = p.ev ∨
    e.TakesBackEffort ∧ e.dispatchOutside p = (true, p.resetEffort) := by
  obtain ⟨x, _, h⟩ | ⟨_, h | ⟨a, x, h⟩ | h⟩ := e.dispatchOutside_cases p
  · rw [h]
    exact .inl rfl
  · exact .inr h
  · exact .inl (Pet.write?_spares h).2.2.1
  · rw [h]
    exact .inl rfl

/-- A health that is no number stays so, and a healing by no number makes every health so. -/
theorem isNotANumber_hp_dispatchOutside (h : p.hp.isNotANumber = true ∨ e.HealsByNoNumber) :
    (e.dispatchOutside p).2.hp.isNotANumber = true := by
  obtain ⟨x, hx, hp⟩ | ⟨he, hp⟩ := e.dispatchOutside_cases p
  · rw [hp]
    exact Pet.isNotANumber_hp_setHp (Double.isNotANumber_add (h.imp_right hx.mpr))
  · -- Only a healing writes the health at all.
    have hlost := h.resolve_right he
    obtain ⟨_, hp⟩ | ⟨a, x, hp⟩ | hp := hp
    · rw [hp]
      exact hlost
    · rw [Pet.hp, (Pet.write?_spares hp).2.1]
      exact hlost
    · rw [hp]
      exact hlost

/-- One effect keeps the health within its bounds, unless it heals by what is no number. -/
theorem hpInBounds_dispatchOutside (h : p.HasHealth) (hp : p.HpInBounds)
    (he : ¬e.HealsByNoNumber) : (e.dispatchOutside p).2.HpInBounds := by
  obtain ⟨x, hx, hnext⟩ | ⟨_, ⟨_, hnext⟩ | ⟨a, x, hnext⟩ | hnext⟩ := e.dispatchOutside_cases p
  · -- The amount may be infinite, but the health before is finite, so the sum is a number.
    have hfinite := Double.isFinite_of_le hp.1 hp.2 h.2
    have hnumber : x.isNotANumber = false := Bool.eq_false_iff.mpr (mt hx.mp he)
    rw [hnext]
    exact Pet.hpInBounds_setHp h (Double.isNotANumber_add_of_isFinite hfinite hnumber)
  · rw [hnext]
    exact hp
  · obtain ⟨hsame, hcurrent, _⟩ := Pet.write?_spares hnext
    rw [Pet.HpInBounds, Pet.hp, hcurrent, hsame.normal]
    exact hp
  · rw [hnext]
    exact hp

end Effect

namespace Pet

variable {p : Pet} (effects : List Effect)

theorem samePet_afterOutside (p : Pet) : p.SamePet (p.afterOutside effects) :=
  List.foldlRecOn effects _ (.refl p) fun q h e _ => h.trans (e.samePet_dispatchOutside q)

theorem hasLevel_afterOutside (h : p.HasLevel) : (p.afterOutside effects).HasLevel :=
  List.foldlRecOn effects _ h fun q h e _ => e.hasLevel_dispatchOutside q h

/-- A health that is no number once stays so, whatever is dispatched after that. -/
theorem isNotANumber_hp_afterOutside (h : p.hp.isNotANumber = true) :
    (p.afterOutside effects).hp.isNotANumber = true :=
  List.foldlRecOn (motive := fun q => q.hp.isNotANumber = true) effects _ h fun q h e _ =>
    e.isNotANumber_hp_dispatchOutside q (.inl h)

/-- The health is lost for good just when one of the healings is by no number. -/
theorem hpInBounds_afterOutside_iff (h : p.HasHealth) (hp : p.HpInBounds) :
    (p.afterOutside effects).HpInBounds ↔ ∀ e ∈ effects, ¬e.HealsByNoNumber := by
  induction effects generalizing p with
  | nil => exact iff_of_true hp (List.forall_mem_nil _)
  | cons e effects ih =>
    rw [List.forall_mem_cons]
    by_cases he : e.HealsByNoNumber
    · -- The health is no number from here on, whatever comes later.
      have hlost := e.isNotANumber_hp_dispatchOutside p (.inr he)
      refine iff_of_false (fun hbounds => ?_) fun hall => hall.1 he
      have hnumber := (Double.le_iff.mp hbounds.1).2.1
      exact Bool.false_ne_true (hnumber.symm.trans (isNotANumber_hp_afterOutside effects hlost))
    · rw [and_iff_right he]
      exact ih ((e.samePet_dispatchOutside p).hasHealth h) (e.hpInBounds_dispatchOutside p h hp he)

end Pet

/-- A pet in full health that has a level stays valid outside a duel, whatever is dispatched on it:
its statistics, identity and skills are never written, its level stays in bounds, its effort only
ever goes back into storage as a whole, and its health stays in bounds just as long as no healing is
by what is no number. Effects other than healings and written attributes are refused. -/
theorem pet_stays_valid_outside {p : Pet} (hfull : p.current = p.normal) (hhealth : p.HasHealth)
    (hlevel : p.HasLevel) (effects : List Effect) :
    let q := p.afterOutside effects
    (q.HpInBounds ↔ ∀ e ∈ effects, ¬e.HealsByNoNumber) ∧ q.HasLevel ∧ p.SamePet q ∧
      ∀ e : Effect, let r := (e.dispatchOutside q).2
        (r.ev = q.ev ∨ e.TakesBackEffort ∧ (e.dispatchOutside q).1 = true ∧ r.effort = 0 ∧
          (-2 ^ 31 ≤ q.evStorage.toInt + q.effort → q.evStorage.toInt + q.effort < 2 ^ 31 →
            r.evStorage.toInt = q.evStorage.toInt + q.effort)) ∧
        (e.ability ≠ .heal → e.ability ≠ .setPet → e.dispatchOutside q = (false, q)) := by
  intro q
  have hbounds : p.HpInBounds := by
    obtain ⟨_, hnumber, _⟩ := Double.le_iff.mp hhealth.1
    rw [Pet.HpInBounds, Pet.hp, hfull]
    exact ⟨hhealth.1, Double.le_self hnumber⟩
  refine ⟨Pet.hpInBounds_afterOutside_iff effects hhealth hbounds,
    Pet.hasLevel_afterOutside effects hlevel, Pet.samePet_afterOutside effects p, fun e => ⟨?_, ?_⟩⟩
  · obtain hsame | ⟨htakes, hnext⟩ := e.ev_dispatchOutside q
    · exact .inl hsame
    · rw [hnext]
      exact .inr ⟨htakes, rfl, rfl, Pet.evStorage_resetEffort⟩
  · exact e.dispatchOutside_of_ability_ne q

/-- A hurt pet is healed beyond full, promoted beyond the highest level and gets its effort back. -/
theorem healed_and_promoted_within_bounds :
    let p : Pet := { Pet.ofTenHp with ev := #v[1, 2, 3, 4, 5, 6], evStorage := 7 }
    let effects : List Effect := [.new .attack .heal ⟨[("add", "-3")]⟩,
      .new .attack .heal ⟨[("add", "inf")]⟩,
      .new .attack .setPet ⟨[("type", "level"), ("value", "200")]⟩,
      .new .attack .setPet ⟨[("type", "evReset")]⟩]
    p.current = p.normal ∧ p.HasHealth ∧ p.HasLevel ∧ (∀ e ∈ effects, ¬e.HealsByNoNumber) ∧
      (p.afterOutside effects).HpInBounds ∧ (p.afterOutside effects).hp = Double.ofInt 10 ∧
      (p.afterOutside effects).level = 100 ∧ (p.afterOutside effects).evStorage = 28 := by
  intro p effects
  have hhealth : p.HasHealth := by decide +kernel
  have hlevel : p.HasLevel := ⟨by decide, by decide⟩
  have hnumbers : ∀ e ∈ effects, ¬e.HealsByNoNumber := by decide +kernel
  have hbounds := (pet_stays_valid_outside rfl hhealth hlevel effects).1.mpr hnumbers
  exact ⟨rfl, hhealth, hlevel, hnumbers, hbounds, by decide +kernel, by decide +kernel,
    by decide +kernel⟩

/-- A healing by no number is not refused, and the health is lost for good: another healing does not
bring it back into bounds. -/
theorem health_lost_to_no_number :
    let p := Pet.ofTenHp
    let lose : Effect := .new .attack .heal ⟨[("add", "nan")]⟩
    let heal : Effect := .new .attack .heal ⟨[("add", "5")]⟩
    p.current = p.normal ∧ p.HasHealth ∧ p.HasLevel ∧ (lose.dispatchOutside p).1 = true ∧
      ¬(p.afterOutside [lose]).HpInBounds ∧ ¬(p.afterOutside [lose, heal]).HpInBounds := by
  intro p lose heal
  exact ⟨rfl, by decide +kernel, ⟨by decide, by decide⟩, by decide +kernel, by decide +kernel,
    by decide +kernel⟩

end PetDuel
