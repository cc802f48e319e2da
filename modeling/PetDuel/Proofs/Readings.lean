import Mathlib.Data.Option.Basic
import PetDuel.Proofs.Lookup

/-!
What effects are read as. The deed that an effect comes to suits its ability, and names only
duelists that are there.
-/

namespace PetDuel

/-- A duelist that is named is there. -/
theorem Scene.isSome_duelist?_of_named? {s : Scene} {e : Effect} {key default : String}
    {id : DuelistId} (h : s.named? e key default = some id) : (s.duelist? id).isSome := by
  obtain ⟨invoker, _, hside⟩ := Option.bind_eq_some_iff.mp h
  -- The own side is looked up; the opposing one is the number of the other of the two.
  cases hs : Side.ofText (e.option key default) with
  | own =>
    rw [hs] at hside
    obtain ⟨d, hd, hid⟩ := Option.map_eq_some_iff.mp hside
    rw [← hid, id_of_duelist? hd, hd]
    rfl
  | opposing =>
    rw [hs] at hside
    change s.rivalId? invoker = some id at hside
    unfold rivalId? at hside
    unfold duelist?
    split at hside
    · cases hside
      split <;> simp
    · split at hside
      · cases hside
        simp
      · cases hside

theorem Moment.duelist?_of_scope? {m : Moment} {e : Effect} {c : Operand.Scope}
    (h : m.scope? e = some c) : m.scene.duelist? c.own.id = some c.own := by
  simp only [scope?, Option.bind_eq_bind, Option.bind_eq_some_iff] at h
  obtain ⟨id, _, own, hown, _, _, hc⟩ := h
  cases hc
  rw [Scene.id_of_duelist? hown, hown]

/-- A deed that suits an ability: it names only duelists that are there, with a fighter out where it
is about fighters, and ends the duel only for the two abilities that do so. -/
def Deed.Aimed (a : Ability) (s : Scene) : Deed → Prop
  | .finish _ => a = .win ∨ a = .escape
  | .setWeather _ => True
  | .capture id _ | .addBuff id _ | .setTurn id .. | .setSkill id .. => (s.duelist? id).isSome
  | .switchPet id .. | .heal id _ | .rage id .. | .raiseStages id .. | .addStats id ..
  | .blockBuffs id .. | .removeBuffs id .. | .setBuff id .. | .setPet id .. => (s.active? id).isSome
  | .copyBuffs source target .. => (s.active? source).isSome ∧ (s.active? target).isSome

def Deed.abilities : Deed → List Ability
  | .finish _ => [.win, .escape]
  | .capture .. => [.capture]
  | .switchPet .. => [.switchPet]
  | .heal .. => [.heal]
  | .rage .. => [.rage]
  | .raiseStages .. => [.raiseStages]
  | .addStats .. => [.addStats]
  | .blockBuffs .. => [.blockBuffs]
  | .addBuff .. => [.addBuff]
  | .removeBuffs .. => [.removeBuffs]
  | .copyBuffs .. => [.copyBuffs]
  | .setBuff .. => [.setBuff]
  | .setTurn .. => [.setDamage, .setSkill]
  | .setSkill .. => [.setSkill]
  | .setPet .. => [.setPet]
  | .setWeather _ => [.setWeather]

namespace Effect

variable {e : Effect} {a : Ability} {ctx : Context} {m : Moment} {deed : Deed} {c : Operand.Scope}

theorem isSome_duelist?_of_scope? (hc : m.scope? e = some c) :
    (m.scene.duelist? c.own.id).isSome := by
  rw [Moment.duelist?_of_scope? hc]
  rfl

theorem isSome_active?_of_scope? {f : Fighter} (hc : m.scope? e = some c)
    (hf : c.own.active? = some f) : (m.scene.active? c.own.id).isSome := by
  rw [Scene.active?_of_duelist? (Moment.duelist?_of_scope? hc), hf]
  rfl

theorem aimed_of_decideWin (h : e.decideWin m = some deed) : deed.Aimed .win m.scene := by
  obtain ⟨_, _, h⟩ := Option.bind_eq_some_iff.mp h
  cases h
  exact Or.inl rfl

theorem aimed_of_decideCapture (h : e.decideCapture m = some deed) : deed.Aimed a m.scene := by
  simp only [decideCapture, Option.bind_eq_bind, Option.bind_eq_some_iff] at h
  obtain ⟨_, _, id, _, rival, hrival, _, _, h⟩ := h
  cases h
  change (m.scene.duelist? id).isSome
  rw [← Scene.isSome_rival?, hrival]
  rfl

theorem aimed_of_decideSwitch (h : e.decideSwitch ctx m = some deed) : deed.Aimed a m.scene := by
  simp only [decideSwitch, Option.bind_eq_bind, Option.bind_eq_some_iff] at h
  obtain ⟨_, _, id, _, d, hd, _, _, f, hf, h⟩ := h
  cases h
  change (m.scene.active? id).isSome
  rw [Scene.active?_of_duelist? hd, hf]
  rfl

/-- A healing is read off the own fighter, so there is one. -/
theorem aimed_of_decideHeal (h : e.decideHeal m = some deed) : deed.Aimed a m.scene := by
  simp only [decideHeal, Option.bind_eq_bind, Option.bind_eq_some_iff] at h
  obtain ⟨c, hc, f, hf, _, _, written, _, h⟩ := h
  have hactive := isSome_active?_of_scope? hc hf
  cases written with
  | some hp =>
    cases h
    exact hactive
  | none =>
    obtain ⟨_, _, h⟩ := Option.bind_eq_some_iff.mp h
    cases h
    exact hactive

theorem aimed_of_decideRage (h : e.decideRage m = some deed) : deed.Aimed a m.scene := by
  simp only [decideRage, Option.bind_eq_bind, Option.bind_eq_some_iff] at h
  obtain ⟨c, hc, f, hf, _, _, _, _, _, _, h⟩ := h
  cases h
  exact isSome_active?_of_scope? hc hf

theorem aimed_of_decideRaise (h : e.decideRaise m = some deed) : deed.Aimed a m.scene := by
  simp only [decideRaise, Option.bind_eq_bind, Option.bind_eq_some_iff] at h
  obtain ⟨_, _, _, _, _, _, id, _, f, hf, h⟩ := h
  cases h
  exact Option.isSome_of_eq_some hf

theorem aimed_of_decideAddStats (h : e.decideAddStats m = some deed) : deed.Aimed a m.scene := by
  simp only [decideAddStats, Option.bind_eq_bind, Option.bind_eq_some_iff] at h
  obtain ⟨_, _, _, _, c, hc, f, hf, _, _, _, _, h⟩ := h
  cases h
  exact isSome_active?_of_scope? hc hf

theorem aimed_of_decideBlock (h : e.decideBlock m = some deed) : deed.Aimed a m.scene := by
  simp only [decideBlock, Option.bind_eq_bind] at h
  -- The operator only says whether numbers are blocked or set free.
  split at h
  all_goals
    simp only [Option.bind_eq_some_iff] at h
    obtain ⟨_, _, _, _, _, _, _, _, id, _, f, hf, h⟩ := h
    cases h
    exact Option.isSome_of_eq_some hf

theorem aimed_of_decideAddBuff (h : e.decideAddBuff ctx m = some deed) : deed.Aimed a m.scene := by
  simp only [decideAddBuff, Option.bind_eq_bind, Option.bind_eq_some_iff] at h
  obtain ⟨_, _, _, _, c, hc, _, _, _, _, h⟩ := h
  cases h
  exact isSome_duelist?_of_scope? hc

theorem aimed_of_decideRemove (h : e.decideRemove m = some deed) : deed.Aimed a m.scene := by
  simp only [decideRemove, Option.bind_eq_bind, Option.bind_eq_some_iff] at h
  obtain ⟨_, _, _, _, _, _, id, _, f, hf, h⟩ := h
  cases h
  exact Option.isSome_of_eq_some hf

theorem aimed_of_decideCopy (h : e.decideCopy m = some deed) : deed.Aimed a m.scene := by
  simp only [decideCopy, Option.bind_eq_bind, Option.bind_eq_some_iff] at h
  obtain ⟨_, _, _, _, _, _, _, _, _, _, source, _, target, _, f, hf, g, hg, h⟩ := h
  cases h
  exact ⟨Option.isSome_of_eq_some hf, Option.isSome_of_eq_some hg⟩

theorem aimed_of_decideSetBuff (h : e.decideSetBuff m = some deed) : deed.Aimed a m.scene := by
  simp only [decideSetBuff, Option.bind_eq_bind, Option.bind_eq_some_iff] at h
  obtain ⟨_, _, _, _, _, _, c, hc, f, hf, _, _, _, _, h⟩ := h
  cases h
  exact isSome_active?_of_scope? hc hf

theorem aimed_of_decideSetDamage (h : e.decideSetDamage m = some deed) : deed.Aimed a m.scene := by
  simp only [decideSetDamage, Option.bind_eq_bind, Option.bind_eq_some_iff] at h
  obtain ⟨_, _, _, _, _, _, _, _, target, _, d, hd, h⟩ := h
  cases h
  exact Option.isSome_of_eq_some hd

/-- A skill belongs to the duelist, so no fighter has to be out. -/
theorem aimed_of_decideSetSkill (h : e.decideSetSkill ctx m = some deed) :
    deed.Aimed a m.scene := by
  unfold decideSetSkill at h
  dsimp only at h
  split at h
  · simp only [Option.bind_eq_bind, Option.bind_eq_some_iff] at h
    obtain ⟨_, _, _, _, id, _, d, hd, h⟩ := h
    cases h
    exact Option.isSome_of_eq_some hd
  · simp only [Option.bind_eq_bind, Option.bind_eq_some_iff] at h
    obtain ⟨_, _, c, hc, _, _, _, _, h⟩ := h
    cases h
    exact isSome_duelist?_of_scope? hc

theorem aimed_of_decideSetPet (h : e.decideSetPet m = some deed) : deed.Aimed a m.scene := by
  simp only [decideSetPet, Option.bind_eq_bind, Option.bind_eq_some_iff] at h
  obtain ⟨_, _, _, _, c, hc, f, hf, _, _, _, _, h⟩ := h
  cases h
  exact isSome_active?_of_scope? hc hf

theorem aimed_of_decideWeather (h : e.decideWeather = some deed) : deed.Aimed a m.scene := by
  simp only [decideWeather, Option.bind_eq_bind, Option.bind_eq_some_iff] at h
  obtain ⟨_, _, _, _, h⟩ := h
  cases h
  trivial

/-- Whatever an effect is read as, the deed names nobody who is not there. -/
theorem aimed_of_decide? (h : e.decide? ctx m = some deed) : deed.Aimed e.ability m.scene := by
  unfold decide? at h
  cases ha : e.ability <;> rw [ha] at h
  case win => exact aimed_of_decideWin h
  case escape =>
    cases h
    exact Or.inr rfl
  case capture => exact aimed_of_decideCapture h
  case switchPet => exact aimed_of_decideSwitch h
  case heal => exact aimed_of_decideHeal h
  case rage => exact aimed_of_decideRage h
  case raiseStages => exact aimed_of_decideRaise h
  case addStats => exact aimed_of_decideAddStats h
  case blockBuffs => exact aimed_of_decideBlock h
  case addBuff => exact aimed_of_decideAddBuff h
  case removeBuffs => exact aimed_of_decideRemove h
  case copyBuffs => exact aimed_of_decideCopy h
  case setBuff => exact aimed_of_decideSetBuff h
  case setDamage => exact aimed_of_decideSetDamage h
  case setSkill => exact aimed_of_decideSetSkill h
  case setPet => exact aimed_of_decideSetPet h
  case setWeather => exact aimed_of_decideWeather h

/-- What an effect is read as suits its ability. -/
theorem mem_abilities_of_decide? (h : e.decide? ctx m = some deed) :
    e.ability ∈ deed.abilities := by
  unfold decide? at h
  cases ha : e.ability <;> rw [ha] at h
  case escape =>
    cases h
    exact List.mem_cons_of_mem _ List.mem_cons_self
  -- Three abilities read something on the way that decides how the rest is read.
  case heal =>
    simp only [decideHeal, Option.bind_eq_bind, Option.bind_eq_some_iff] at h
    obtain ⟨_, _, _, _, _, _, written, _, h⟩ := h
    cases written with
    | some hp => grind [Deed.abilities]
    | none =>
      simp only [Option.bind_eq_some_iff] at h
      grind [Deed.abilities]
  case setSkill =>
    unfold decideSetSkill at h
    dsimp only at h
    split at h
    all_goals
      simp only [Option.bind_eq_bind, Option.bind_eq_some_iff] at h
      grind [Deed.abilities]
  case blockBuffs =>
    unfold decideBlock at h
    simp only [Option.bind_eq_bind] at h
    split at h
    all_goals
      simp only [Option.bind_eq_some_iff] at h
      grind [Deed.abilities]
  all_goals
    simp only [decideWin, decideCapture, decideSwitch, decideRage, decideRaise,
      decideAddStats, decideAddBuff, decideRemove, decideCopy, decideSetBuff, decideSetDamage,
      decideSetPet, decideWeather, Option.bind_eq_bind, Option.bind_eq_some_iff] at h
    grind [Deed.abilities]

end Effect

end PetDuel
