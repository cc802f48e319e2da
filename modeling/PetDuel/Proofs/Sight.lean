import Mathlib.Data.List.Forall2
import Mathlib.Data.Option.Basic
import PetDuel.Proofs.Names
import PetDuel.Proofs.Steps
import PetDuel.Resolve

/-!
What an effect sees. An effect finds duelists by their numbers and looks at their teams and at what
they do in the turn, at the scene and, if one of its options speaks of the last turn, at the scenes
kept before it. Which side a duelist is on, its random stream, how the duel went and who is acting
it does not see. Only the two effects that end the duel name a side in their outcome.
-/

namespace PetDuel

open Operand

/-- A text that speaks of the last turn. -/
def Text.SaysLast (s : String) : Prop := "last".toList <:+: s.toList

instance (s : String) : Decidable (Text.SaysLast s) :=
  inferInstanceAs (Decidable ("last".toList <:+: s.toList))

def Options.SaysLast (o : Options) : Prop := ∃ entry ∈ o.entries, Text.SaysLast entry.2

instance (o : Options) : Decidable o.SaysLast :=
  inferInstanceAs (Decidable (∃ entry ∈ o.entries, Text.SaysLast entry.2))

structure Duelist.SameSight (d e : Duelist) : Prop where
  id : d.id = e.id
  team : d.team = e.team
  turn : d.turn = e.turn

structure Scene.SameSight (s t : Scene) : Prop where
  duelist? : ∀ id, Option.Rel Duelist.SameSight (s.duelist? id) (t.duelist? id)
  rivalId? : ∀ id, s.rivalId? id = t.rivalId? id
  phase : s.phase = t.phase
  turn : s.turn = t.turn
  weather : s.weather = t.weather

structure Moment.SameSight (m n : Moment) : Prop where
  scene : m.scene.SameSight n.scene
  history : List.Forall₂ Scene.SameSight m.history n.history

/-- Two moments in which an effect sees the same: now, and if it speaks of the last turn, in what
was kept. -/
structure Effect.SameSight (e : Effect) (m n : Moment) : Prop where
  scene : m.scene.SameSight n.scene
  history : e.options.SaysLast → List.Forall₂ Scene.SameSight m.history n.history

theorem Moment.SameSight.at {m n : Moment} (h : m.SameSight n) (e : Effect) : e.SameSight m n :=
  ⟨h.scene, fun _ => h.history⟩

structure Operand.Scope.SameSight (c d : Scope) : Prop where
  effect : c.effect = d.effect
  own : c.own.SameSight d.own
  rival : c.rival.SameSight d.rival
  moment : Option.Rel c.effect.SameSight c.moment d.moment

theorem bind_congr_rel {α β : Type} {r : α → α → Prop} {o p : Option α} (h : Option.Rel r o p)
    {f g : α → Option β} (hf : ∀ a b, r a b → f a = g b) : o.bind f = p.bind g := by
  cases h with
  | none => rfl
  | some hab => exact hf _ _ hab

namespace Duelist

variable {d e : Duelist}

theorem SameSight.refl (d : Duelist) : d.SameSight d := ⟨rfl, rfl, rfl⟩

theorem sameSight_rel (o : Option Duelist) : Option.Rel SameSight o o := by
  cases o with
  | none => exact .none
  | some d => exact .some (.refl d)

namespace SameSight

theorem active? (h : d.SameSight e) : d.active? = e.active? := congrArg Team.active? h.team

theorem skill (h : d.SameSight e) : d.skill = e.skill := congrArg TurnRecord.skill h.turn

theorem duelistPath? (h : d.SameSight e) (path : String) :
    duelistPath? d path = duelistPath? e path := by
  unfold Operand.duelistPath?
  rw [h.skill, h.turn, h.team, h.active?]

end SameSight

end Duelist

theorem Operand.sidedPath?_congr {own own' rival rival' : Duelist} (hown : own.SameSight own')
    (hrival : rival.SameSight rival') (path : String) :
    sidedPath? own rival path = sidedPath? own' rival' path := by
  unfold sidedPath?
  simp only [hown.duelistPath?, hrival.duelistPath?]

namespace Scene.SameSight

variable {s t : Scene}

theorem refl (s : Scene) : s.SameSight s where
  duelist? := fun id => Duelist.sameSight_rel (s.duelist? id)
  rivalId? := fun _ => rfl
  phase := rfl
  turn := rfl
  weather := rfl

theorem rival? (h : s.SameSight t) (id : DuelistId) :
    Option.Rel Duelist.SameSight (s.rival? id) (t.rival? id) := by
  unfold Scene.rival?
  rw [h.rivalId?]
  cases t.rivalId? id with
  | none => exact .none
  | some rival => exact h.duelist? rival

theorem isSome_duelist? (h : s.SameSight t) (id : DuelistId) :
    (s.duelist? id).isSome = (t.duelist? id).isSome := by
  have hrel := h.duelist? id
  revert hrel
  generalize s.duelist? id = o, t.duelist? id = p
  intro hrel
  cases hrel <;> rfl

theorem active? (h : s.SameSight t) (id : DuelistId) : s.active? id = t.active? id :=
  bind_congr_rel (h.duelist? id) fun _ _ hd => hd.active?

theorem onSide? (h : s.SameSight t) (id : DuelistId) (side : Side) :
    s.onSide? id side = t.onSide? id side := by
  cases side with
  | own =>
    change (s.duelist? id).map Duelist.id = (t.duelist? id).map Duelist.id
    rw [Option.map_eq_bind, Option.map_eq_bind]
    exact bind_congr_rel (h.duelist? id) fun _ _ hd => congrArg some hd.id
  | opposing => exact h.rivalId? id

theorem named? (h : s.SameSight t) (e : Effect) (key default : String) :
    s.named? e key default = t.named? e key default := by
  unfold Scene.named?
  simp only [h.onSide?]

theorem scenePath? (h : s.SameSight t) (name : String) : scenePath? s name = scenePath? t name := by
  unfold Operand.scenePath?
  rw [h.turn, h.weather, h.phase]

theorem possible (h : s.SameSight t) (deed : Deed) : deed.possible s = deed.possible t := by
  cases deed with
  | capture id | switchPet id => exact h.isSome_duelist? id
  | raiseStages id | addBuff id | setBuff id | setPet id =>
    exact congrArg Option.isSome (h.active? id)
  | _ => rfl

/-- The duelists act in the same order. -/
theorem inOrder (h : s.SameSight t) (hacting : s.acting = t.acting) :
    List.Forall₂ Duelist.SameSight s.inOrder t.inOrder := by
  -- The duelists are looked up by number in both scenes, and the numbers are the same.
  have hfilter (ids : List DuelistId) :
      List.Forall₂ Duelist.SameSight (ids.filterMap s.duelist?) (ids.filterMap t.duelist?) := by
    induction ids with
    | nil => exact .nil
    | cons id ids ih =>
      have hrel := h.duelist? id
      rw [List.filterMap_cons, List.filterMap_cons]
      revert hrel
      generalize s.duelist? id = o, t.duelist? id = p
      intro hrel
      cases hrel with
      | none => exact ih
      | some hd => exact .cons hd ih
  unfold Scene.inOrder
  rw [hacting, h.rivalId?]
  split
  · exact .nil
  · exact hfilter _

/-- The same effects are found at a timing, in the same order. -/
theorem effectsAt (h : s.SameSight t) (hacting : s.acting = t.acting) (timing : Timing) :
    s.effectsAt timing = t.effectsAt timing := by
  -- What is collected from each duelist is the same, and so is the order of the duelists.
  have hcollect {f : Duelist → List Effect} (hf : ∀ d e : Duelist, d.SameSight e → f d = f e) :
      s.inOrder.flatMap f = t.inOrder.flatMap f := by
    have horder := h.inOrder hacting
    revert horder
    generalize s.inOrder = ds, t.inOrder = es
    intro horder
    induction horder with
    | nil => rfl
    | cons hd _ ih => rw [List.flatMap_cons, List.flatMap_cons, hf _ _ hd, ih]
  have hskill : ∀ d e : Duelist, d.SameSight e → skillEffects timing d = skillEffects timing e := by
    intro d e hd
    unfold skillEffects
    rw [hd.skill, hd.id]
  have hbuffs : ∀ d e : Duelist, d.SameSight e → buffEffects timing d = buffEffects timing e := by
    intro d e hd
    unfold buffEffects
    rw [hd.active?, hd.id]
  unfold Scene.effectsAt
  rw [hcollect hskill, hcollect hbuffs]

end Scene.SameSight

namespace Effect

variable {e : Effect}

/-- An effect that speaks of the last turn finds the same one. -/
theorem SameSight.last? {m n : Moment} (h : e.SameSight m n) (hlast : e.options.SaysLast) :
    Option.Rel e.SameSight m.last? n.last? := by
  have hearlier {ss ts : List Scene} (hss : List.Forall₂ Scene.SameSight ss ts) (turn : UInt32) :
      Option.Rel e.SameSight (earlierTurn? turn ss) (earlierTurn? turn ts) := by
    induction hss with
    | nil => exact .none
    | cons hs hss ih =>
      unfold earlierTurn?
      rw [hs.turn]
      split
      · exact .some ⟨hs, fun _ => hss⟩
      · exact ih
  unfold Moment.last?
  rw [h.scene.turn]
  exact hearlier (h.history hlast) n.scene.turn

/-- An option that speaks of the last turn is given one of the values that the effect holds, unless
the default does so. -/
theorem saysLast_of_option {key default : String} (hdefault : ¬Text.SaysLast default)
    (h : Text.SaysLast (e.option key default)) : e.options.SaysLast := by
  unfold option Options.getD Options.get? at h
  cases hfound : Keyed.find? Prod.fst key e.options.entries with
  | none =>
    rw [hfound] at h
    exact absurd h hdefault
  | some entry =>
    rw [hfound] at h
    exact ⟨entry, List.mem_of_find?_eq_some hfound, h⟩

end Effect

namespace Operand.Scope.SameSight

variable {c d : Scope}

theorem lastPath? (h : c.SameSight d) (hlast : c.effect.options.SaysLast) (path : String) :
    c.lastPath? path = d.lastPath? path := by
  refine bind_congr_rel h.moment fun m n hm => bind_congr_rel (hm.last? hlast) fun m n hm => ?_
  rw [h.own.id, h.rival.id]
  refine bind_congr_rel (hm.scene.duelist? d.own.id) fun own own' hown => ?_
  exact bind_congr_rel (hm.scene.duelist? d.rival.id) fun _ _ hrival =>
    sidedPath?_congr hown hrival path

/-- A path to what carries the effect finds the same. -/
theorem carrierPath? (h : c.SameSight d) (name : String) :
    c.carrierPath? name = d.carrierPath? name := by
  have hfind (id : DuelistId) :
      Option.Rel Duelist.SameSight ([c.own, c.rival].find? fun x => x.id == id)
        ([d.own, d.rival].find? fun x => x.id == id) := by
    simp only [List.find?_cons, h.own.id, h.rival.id]
    cases d.own.id == id with
    | true => exact .some h.own
    | false =>
      cases d.rival.id == id with
      | true => exact .some h.rival
      | false => exact .none
  unfold Scope.carrierPath? Scope.invoker?
  rw [h.effect, Option.bind_assoc, Option.bind_assoc]
  refine Option.bind_congr fun id _ => bind_congr_rel (hfind id) fun x y hxy => ?_
  rw [hxy.active?, hxy.skill]

/-- A path finds the same in both scopes. Only one that speaks of the last turn needs the same past.
-/
theorem resolve? (h : c.SameSight d) {path : String}
    (hlast : Text.SaysLast path → c.effect.options.SaysLast) :
    c.resolve? path = d.resolve? path := by
  have hstate (name : String) :
      (c.moment.bind fun m => scenePath? m.scene name) =
        d.moment.bind fun m => scenePath? m.scene name :=
    bind_congr_rel h.moment fun m n hm => hm.scene.scenePath? name
  unfold Scope.resolve?
  cases hafter : Text.after? "last." path with
  | some rest =>
    have hsays : Text.SaysLast path :=
      List.IsInfix.trans (by decide) (Text.infix_of_after? hafter)
    exact h.lastPath? (hlast hsays) rest
  | none => simp only [hstate, h.carrierPath?, sidedPath?_congr h.own h.rival]

/-- An operand has the same value, since the names in it resolve alike. -/
theorem value? (h : c.SameSight d) {operand : String}
    (hlast : Text.SaysLast operand → c.effect.options.SaysLast) :
    c.value? operand = d.value? operand :=
  Scope.value?_congr fun _ hs => h.resolve? fun hsays => hlast (List.IsInfix.trans hsays hs)

theorem operand? (h : c.SameSight d) {e : Effect} (he : c.effect = e) (key : String)
    {default : String} (hdefault : ¬Text.SaysLast default) :
    e.operand? c key default = e.operand? d key default :=
  h.value? fun hsays => he ▸ Effect.saysLast_of_option hdefault hsays

theorem optionalOperand? (h : c.SameSight d) {e : Effect} (he : c.effect = e) (key : String) :
    e.optionalOperand? c key = e.optionalOperand? d key := by
  have hdefault : ¬Text.SaysLast Options.emptyText := by decide
  have hvalue := h.operand? he key hdefault
  unfold Effect.operand? at hvalue
  unfold Effect.optionalOperand?
  dsimp only
  rw [hvalue]

end Operand.Scope.SameSight

namespace Effect

variable {e : Effect} {ctx : Context} {m n : Moment}

/-- The scopes of an effect in two such moments are two such scopes. -/
theorem scope?_sameSight (h : e.SameSight m n) :
    Option.Rel (fun c d => c.effect = e ∧ c.SameSight d) (m.scope? e) (n.scope? e) := by
  unfold Moment.scope?
  rw [h.scene.named?]
  cases n.scene.named? e "who" "me" with
  | none => exact .none
  | some id =>
    change Option.Rel _ ((m.scene.duelist? id).bind _) ((n.scene.duelist? id).bind _)
    have hown := h.scene.duelist? id
    have hrival := h.scene.rival? id
    revert hown hrival
    generalize m.scene.duelist? id = own, n.scene.duelist? id = own'
    intro hown hrival
    cases hown with
    | none => exact .none
    | some hown =>
      change Option.Rel _ ((m.scene.rival? id).bind _) ((n.scene.rival? id).bind _)
      revert hrival
      generalize m.scene.rival? id = rival, n.scene.rival? id = rival'
      intro hrival
      cases hrival with
      | none => exact .none
      | some hrival => exact .some ⟨rfl, rfl, hown, hrival, .some h⟩

theorem bind_scope? {β : Type} (h : e.SameSight m n) {f : Scope → Option β}
    (hf : ∀ c d : Scope, c.effect = e → c.SameSight d → f c = f d) :
    (m.scope? e).bind f = (n.scope? e).bind f :=
  bind_congr_rel (scope?_sameSight h) fun c d hc => hf c d hc.1 hc.2

theorem decideCapture_congr (h : e.SameSight m n) : e.decideCapture m = e.decideCapture n := by
  unfold decideCapture
  refine Option.bind_congr fun base _ => Option.bind_congr fun id _ => ?_
  refine bind_congr_rel (h.scene.rival? id) fun d d' hd => ?_
  rw [hd.active?]

theorem decideSwitch_congr (h : e.SameSight m n) : e.decideSwitch ctx m = e.decideSwitch ctx n := by
  unfold decideSwitch
  refine Option.bind_congr fun target _ => Option.bind_congr fun id _ => ?_
  refine bind_congr_rel (h.scene.duelist? id) fun d d' hd => ?_
  rw [hd.team, hd.active?]

theorem decideHeal_congr (h : e.SameSight m n) : e.decideHeal m = e.decideHeal n := by
  refine bind_scope? h fun c d he hc => ?_
  have hadd := hc.operand? he "add" (by decide : ¬Text.SaysLast "0")
  simp only [hc.own.active?, hc.own.id, hadd, hc.optionalOperand? he]

theorem decideRage_congr (h : e.SameSight m n) : e.decideRage m = e.decideRage n := by
  refine bind_scope? h fun c d he hc => ?_
  have hadd := hc.operand? he "add" (by decide : ¬Text.SaysLast "0")
  simp only [hc.own.active?, hc.own.id, hadd, hc.optionalOperand? he]

theorem decideRaise_congr (h : e.SameSight m n) : e.decideRaise m = e.decideRaise n := by
  unfold decideRaise
  simp only [h.scene.named?, h.scene.active?]

theorem decideAddStats_congr (h : e.SameSight m n) : e.decideAddStats m = e.decideAddStats n := by
  unfold decideAddStats
  refine Option.bind_congr fun i _ => Option.bind_congr fun channel _ => ?_
  refine bind_scope? h fun c d he hc => ?_
  have hmult := hc.operand? he "mult" (by decide : ¬Text.SaysLast "0/1")
  have hadd := hc.operand? he "add" (by decide : ¬Text.SaysLast "0")
  simp only [hc.own.active?, hc.own.id, hmult, hadd]

theorem decideBlock_congr (h : e.SameSight m n) : e.decideBlock m = e.decideBlock n := by
  unfold decideBlock
  simp only [h.scene.named?, h.scene.active?]

theorem decideAddBuff_congr (h : e.SameSight m n) :
    e.decideAddBuff ctx m = e.decideAddBuff ctx n := by
  unfold decideAddBuff
  refine Option.bind_congr fun number _ => Option.bind_congr fun template _ => ?_
  refine bind_scope? h fun c d he hc => ?_
  have hturn := hc.operand? he "turn" (by decide : ¬Text.SaysLast "-1")
  have hvalue := hc.operand? he "value" (by decide : ¬Text.SaysLast "0")
  simp only [hc.own.id, hturn, hvalue]

theorem decideRemove_congr (h : e.SameSight m n) : e.decideRemove m = e.decideRemove n := by
  unfold decideRemove
  simp only [h.scene.named?, h.scene.active?]

theorem decideCopy_congr (h : e.SameSight m n) : e.decideCopy m = e.decideCopy n := by
  unfold decideCopy
  simp only [h.scene.named?, h.scene.active?]

theorem decideSetBuff_congr (h : e.SameSight m n) : e.decideSetBuff m = e.decideSetBuff n := by
  unfold decideSetBuff
  refine Option.bind_congr fun number _ => Option.bind_congr fun op _ => ?_
  refine Option.bind_congr fun a _ => bind_scope? h fun c d he hc => ?_
  have hvalue := hc.operand? he "value" (by decide : ¬Text.SaysLast "0")
  simp only [hc.own.active?, hc.own.id, hvalue]

theorem damageAt?_congr (h : e.SameSight m n) (id : DuelistId) :
    e.damageAt? id m = e.damageAt? id n := by
  refine bind_congr_rel (h.scene.duelist? id) fun own own' hown => ?_
  refine bind_congr_rel (h.scene.rival? id) fun rival rival' hrival => ?_
  have hscope : Scope.SameSight { effect := e, own, rival, moment := some m }
      { effect := e, own := own', rival := rival', moment := some n } :=
    ⟨rfl, hown, hrival, .some h⟩
  exact hscope.operand? rfl "value" (by decide)

/-- The damage may be read at the last turn, which takes the same past only when the effect says so.
-/
theorem damage?_congr (h : e.SameSight m n) (id : DuelistId) :
    e.damage? id m = e.damage? id n := by
  unfold damage?
  rw [damageAt?_congr h]
  -- The damage may be read at the last turn, which is a moment of its own.
  split
  · rename_i hstate
    have hsays : Text.SaysLast (e.option "state" "current") := by
      rw [beq_iff_eq.mp hstate]
      decide
    have hlast := h.last? (saysLast_of_option (by decide) hsays)
    revert hlast
    generalize m.last? = last, n.last? = last'
    intro hlast
    cases hlast with
    | none => rfl
    | some hmoment => exact damageAt?_congr hmoment id
  · rfl

theorem decideSetDamage_congr (h : e.SameSight m n) :
    e.decideSetDamage m = e.decideSetDamage n := by
  unfold decideSetDamage
  simp only [damage?_congr h, h.scene.phase, h.scene.named?]
  refine Option.bind_congr fun op _ => Option.bind_congr fun id _ => ?_
  refine Option.bind_congr fun damage _ => Option.bind_congr fun a _ => ?_
  refine Option.bind_congr fun target _ => ?_
  refine bind_congr_rel (h.scene.duelist? target) fun d d' hd => ?_
  rw [hd.turn]

/-- A skill is chosen by number or drawn later on, so the choice does not look at the streams. -/
theorem decideSetSkill_congr (h : e.SameSight m n) :
    e.decideSetSkill ctx m = e.decideSetSkill ctx n := by
  unfold decideSetSkill
  dsimp only
  split
  · simp only [h.scene.named?]
    refine Option.bind_congr fun ownCost _ => Option.bind_congr fun choice _ => ?_
    refine Option.bind_congr fun id _ => ?_
    exact bind_congr_rel (h.scene.duelist? id) fun _ _ _ => rfl
  · refine Option.bind_congr fun op _ => bind_scope? h fun c d he hc => ?_
    have hvalue := hc.operand? he "value" (by decide : ¬Text.SaysLast "0")
    simp only [hc.own.turn, hc.own.id, hvalue]

theorem decideSetPet_congr (h : e.SameSight m n) : e.decideSetPet m = e.decideSetPet n := by
  unfold decideSetPet
  refine Option.bind_congr fun op _ => Option.bind_congr fun a _ => ?_
  refine bind_scope? h fun c d he hc => ?_
  have hvalue := hc.operand? he "value" (by decide : ¬Text.SaysLast "0")
  simp only [hc.own.active?, hc.own.id, hvalue]

/-- Every effect but the two that end the duel for a side comes to the same deed where it sees the
same. -/
theorem decide?_congr (h : e.SameSight m n) (hwin : e.ability ≠ .win)
    (hescape : e.ability ≠ .escape) : e.decide? ctx m = e.decide? ctx n := by
  unfold decide?
  cases ha : e.ability
  case win => exact absurd ha hwin
  case escape => exact absurd ha hescape
  case capture => exact decideCapture_congr h
  case switchPet => exact decideSwitch_congr h
  case heal => exact decideHeal_congr h
  case rage => exact decideRage_congr h
  case raiseStages => exact decideRaise_congr h
  case addStats => exact decideAddStats_congr h
  case blockBuffs => exact decideBlock_congr h
  case addBuff => exact decideAddBuff_congr h
  case removeBuffs => exact decideRemove_congr h
  case copyBuffs => exact decideCopy_congr h
  case setBuff => exact decideSetBuff_congr h
  case setDamage => exact decideSetDamage_congr h
  case setSkill => exact decideSetSkill_congr h
  case setPet => exact decideSetPet_congr h
  case setWeather => rfl

/-- Where the sides and the acting duelist are the same as well, every effect comes to the same
deed. -/
theorem decide?_congr_of_sides (h : e.SameSight m n) (hown : m.scene.isOwn = n.scene.isOwn)
    (hacting : m.scene.acting = n.scene.acting) : e.decide? ctx m = e.decide? ctx n := by
  by_cases hwin : e.ability = .win
  · simp only [decide?, hwin, decideWin, h.scene.named?, hown]
  by_cases hescape : e.ability = .escape
  · simp only [decide?, hescape, decideEscape, hown, hacting]
  exact decide?_congr h hwin hescape

end Effect

end PetDuel
