import PetDuel.Proofs.Markers
import PetDuel.Proofs.Readings

/-!
Whom a deed is aimed at. Between the options of an effect and the duelist that changes there are
several look-ups, and all of them come to the one duelist that the effect names.
-/

namespace PetDuel

/-- A deed is aimed at those whom the effect names, and at the buff that it names. Damage goes to
one of the three accounts, and another skill comes into use only where that is asked for. -/
def Deed.NamedBy (e : Effect) (s : Scene) : Deed → Prop
  | .finish _ | .setWeather _ => True
  | .capture id _ | .switchPet id .. => e.invoker = some id
  | .heal id _ | .rage id .. | .raiseStages id .. | .addStats id .. | .blockBuffs id ..
  | .removeBuffs id .. | .setPet id .. => s.named? e "who" "me" = some id
  | .addBuff id x => s.named? e "who" "me" = some id ∧ e.int? "id" "0" = some x.id
  | .setBuff id n .. => s.named? e "who" "me" = some id ∧ e.int? "id" "0" = some n
  | .setTurn id a _ => s.named? e "who" "me" = some id ∧
    (e.ability = .setDamage → a ∈ [.skillDamage, .itemDamage, .buffDamage]) ∧
    (e.ability = .setSkill → e.option "type" Options.emptyText ≠ "id")
  | .setSkill id .. =>
    s.named? e "who" "me" = some id ∧ e.option "type" Options.emptyText = "id"
  | .copyBuffs source target .. =>
    s.named? e "source" "op" = some source ∧ s.named? e "target" "me" = some target

namespace Effect

variable {e : Effect} {ctx : Context} {m : Moment} {deed : Deed} {c : Operand.Scope}

/-- The scope of the operands is that of the duelist that is named. -/
theorem named?_of_scope? (h : m.scope? e = some c) :
    m.scene.named? e "who" "me" = some c.own.id := by
  simp only [Moment.scope?, Option.bind_eq_bind, Option.bind_eq_some_iff] at h
  obtain ⟨id, hid, own, hown, _, _, hc⟩ := h
  cases hc
  rw [Scene.id_of_duelist? hown, hid]

theorem mem_of_damageAccount? {phase : Timing} {a : TurnAttribute}
    (h : e.damageAccount? phase = some a) : a ∈ [.skillDamage, .itemDamage, .buffDamage] := by
  unfold damageAccount? at h
  split at h
  · cases h
    decide
  · split at h <;> cases h <;> decide

/-- A healing is done to the duelist that the effect names. -/
theorem namedBy_of_decideHeal (h : e.decideHeal m = some deed) : deed.NamedBy e m.scene := by
  simp only [decideHeal, Option.bind_eq_bind, Option.bind_eq_some_iff] at h
  obtain ⟨c, hc, _, _, _, _, written, _, h⟩ := h
  have hnamed := named?_of_scope? hc
  cases written with
  | some hp =>
    cases h
    exact hnamed
  | none =>
    obtain ⟨_, _, h⟩ := Option.bind_eq_some_iff.mp h
    cases h
    exact hnamed

theorem namedBy_of_decideAddBuff (h : e.decideAddBuff ctx m = some deed) :
    deed.NamedBy e m.scene := by
  simp only [decideAddBuff, Option.bind_eq_bind, Option.bind_eq_some_iff] at h
  obtain ⟨number, hnumber, t, ht, c, hc, _, _, _, _, h⟩ := h
  cases h
  have hid : t.id = number := (Catalog.buff?_cases ht).2
  exact ⟨named?_of_scope? hc, hnumber.trans (congrArg some hid.symm)⟩

theorem namedBy_of_decideBlock (h : e.decideBlock m = some deed) : deed.NamedBy e m.scene := by
  simp only [decideBlock, Option.bind_eq_bind] at h
  split at h
  all_goals
    simp only [Option.bind_eq_some_iff] at h
    obtain ⟨_, _, _, _, _, _, _, _, id, hid, _, _, h⟩ := h
    cases h
    exact hid

theorem namedBy_of_decideSetDamage (hability : e.ability = .setDamage)
    (h : e.decideSetDamage m = some deed) : deed.NamedBy e m.scene := by
  simp only [decideSetDamage, Option.bind_eq_bind, Option.bind_eq_some_iff] at h
  obtain ⟨_, _, _, _, _, _, a, ha, target, htarget, _, _, h⟩ := h
  cases h
  refine ⟨htarget, fun _ => mem_of_damageAccount? ha, fun hskill => ?_⟩
  cases hability.symm.trans hskill

/-- A skill is chosen when the option asks for one by number, and written to otherwise. -/
theorem namedBy_of_decideSetSkill (hability : e.ability = .setSkill)
    (h : e.decideSetSkill ctx m = some deed) : deed.NamedBy e m.scene := by
  unfold decideSetSkill at h
  dsimp only at h
  split at h
  · rename_i htype
    simp only [Option.bind_eq_bind, Option.bind_eq_some_iff] at h
    obtain ⟨_, _, _, _, id, hid, _, _, h⟩ := h
    cases h
    exact ⟨hid, beq_iff_eq.mp htype⟩
  · rename_i htype
    simp only [Option.bind_eq_bind, Option.bind_eq_some_iff] at h
    obtain ⟨_, _, c, hc, _, _, _, _, h⟩ := h
    cases h
    refine ⟨named?_of_scope? hc, fun hdamage => ?_, fun _ hid => htype (beq_iff_eq.mpr hid)⟩
    cases hability.symm.trans hdamage

/-- Whatever an effect is read as, the deed is aimed at those whom the effect names. -/
theorem namedBy_of_decide? (h : e.decide? ctx m = some deed) : deed.NamedBy e m.scene := by
  unfold decide? at h
  cases ha : e.ability <;> rw [ha] at h
  case win =>
    obtain ⟨_, _, h⟩ := Option.bind_eq_some_iff.mp h
    cases h
    trivial
  case escape =>
    cases h
    trivial
  case heal => exact namedBy_of_decideHeal h
  case blockBuffs => exact namedBy_of_decideBlock h
  case addBuff => exact namedBy_of_decideAddBuff h
  case setDamage => exact namedBy_of_decideSetDamage ha h
  case setSkill => exact namedBy_of_decideSetSkill ha h
  all_goals
    simp only [decideCapture, decideSwitch, decideRage, decideRaise, decideAddStats, decideRemove,
      decideCopy, decideSetBuff, decideSetPet, decideWeather, Option.bind_eq_bind,
      Option.bind_eq_some_iff] at h
  case capture =>
    obtain ⟨_, _, id, hid, _, _, _, _, h⟩ := h
    cases h
    exact hid
  case switchPet =>
    obtain ⟨_, _, id, hid, _, _, _, _, _, _, h⟩ := h
    cases h
    exact hid
  case rage =>
    obtain ⟨c, hc, _, _, _, _, _, _, _, _, h⟩ := h
    cases h
    exact named?_of_scope? hc
  case raiseStages =>
    obtain ⟨_, _, _, _, _, _, id, hid, _, _, h⟩ := h
    cases h
    exact hid
  case addStats =>
    obtain ⟨_, _, _, _, c, hc, _, _, _, _, _, _, h⟩ := h
    cases h
    exact named?_of_scope? hc
  case removeBuffs =>
    obtain ⟨_, _, _, _, _, _, id, hid, _, _, h⟩ := h
    cases h
    exact hid
  case copyBuffs =>
    obtain ⟨_, _, _, _, _, _, _, _, _, _, source, hsource, target, htarget, _, _, _, _, h⟩ := h
    cases h
    exact ⟨hsource, htarget⟩
  case setBuff =>
    obtain ⟨number, hnumber, _, _, _, _, c, hc, _, _, _, _, _, _, h⟩ := h
    cases h
    exact ⟨named?_of_scope? hc, hnumber⟩
  case setPet =>
    obtain ⟨_, _, _, _, c, hc, _, _, _, _, _, _, h⟩ := h
    cases h
    exact named?_of_scope? hc
  case setWeather =>
    obtain ⟨_, _, _, _, h⟩ := h
    cases h
    trivial

end Effect

end PetDuel
