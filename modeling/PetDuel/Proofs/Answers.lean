import Mathlib.Data.List.Forall2
import PetDuel.Proofs.Steps
import PetDuel.Resolve

/-!
Nested answers. A change of buffs is answered by dispatching further effects, and what their deeds
change is answered again. What the steps of deeds keep is carried here through all levels of this,
for one battle and for two battles that run side by side.
-/

namespace PetDuel

def Battle.atDepth (n : Nat) (b : Battle) : Battle := { b with depth := n }

def Scene.nextTurn (s : Scene) : Scene :=
  { s with
    own := { s.own with turn := s.own.turn.reset }
    opposing := { s.opposing with turn := s.opposing.turn.reset }
    turn := s.turn + 1 }

def Scene.endTurnSteps (s : Scene) : List Step :=
  [.board s.own.id BuffBoard.tick, .board s.opposing.id BuffBoard.tick, .scene nextTurn]

/-- Two answers that keep battles related when they answer one change, as long as all effects that
answer it have a property. -/
def Answer.Alike (R : Battle → Battle → Prop) (Q : Effect → Prop) (answer answer' : Answer) :
    Prop :=
  ∀ id change b c, (∀ e ∈ change.answers id, Q e) → R b c →
    R (answer id change b) (answer' id change c)

def Step.Alike (R : Battle → Battle → Prop) (Q : Effect → Prop) (s t : Step) : Prop :=
  ∀ b c, R b c → R (s.act b).1 (t.act c).1 ∧ (s.act b).2 = (t.act c).2 ∧
    ∀ id change, (s.act b).2 = some (id, change) → ∀ e ∈ change.answers id, Q e

/-- A relation between battles under which effects with a property are read alike. -/
structure Simulation (ctx : Context) (R : Battle → Battle → Prop) (Q : Effect → Prop) : Prop where
  depth : ∀ b c, R b c → b.depth = c.depth
  atDepth : ∀ n b c, R b c → R (b.atDepth n) (c.atDepth n)
  /-- Either both battles refuse an effect, or it comes to deeds of related steps. -/
  decide : ∀ e b c, Q e → R b c →
    Option.Rel (fun deed deed' => deed.possible b.scene = deed'.possible c.scene ∧
        List.Forall₂ (Step.Alike R Q) (deed.steps ctx) (deed'.steps ctx))
      (e.decide? ctx b.now) (e.decide? ctx c.now)

structure Invariant (ctx : Context) (P : Battle → Prop) (Q : Effect → Prop) : Prop where
  atDepth : ∀ n b, P b → P (b.atDepth n)
  steps : ∀ e b deed, Q e → P b → e.decide? ctx b.now = some deed →
    ∀ s ∈ deed.steps ctx, ∀ b, P b → P (s.act b).1 ∧
      ∀ id change, (s.act b).2 = some (id, change) → ∀ e ∈ change.answers id, Q e

section Playing

variable {R : Battle → Battle → Prop} {Q : Effect → Prop} {answer answer' : Answer} {b c : Battle}

/-- A step that does alike to related battles, and asks for the same answer, leaves them related
once it is answered. -/
theorem Step.Alike.play {s t : Step} (hs : Step.Alike R Q s t)
    (ha : Answer.Alike R Q answer answer') (h : R b c) :
    R (s.play answer b) (t.play answer' c) := by
  obtain ⟨hacted, hasked, hq⟩ := hs b c h
  unfold Step.play
  -- Either nothing is asked for on either side, or the same answer is.
  rcases hb : s.act b with ⟨b', _ | ⟨id, change⟩⟩
  · rcases hc : t.act c with ⟨c', _ | _⟩
    · rw [hb, hc] at hacted
      exact hacted
    · rw [hb, hc] at hasked
      cases hasked
  · rcases hc : t.act c with ⟨c', _ | _⟩
    · rw [hb, hc] at hasked
      cases hasked
    · rw [hb, hc] at hacted hasked
      cases hasked
      exact ha id change b' c' (hq id change (congrArg Prod.snd hb)) hacted

theorem Battle.play_alike {ss ts : List Step} (hs : List.Forall₂ (Step.Alike R Q) ss ts)
    (ha : Answer.Alike R Q answer answer') (h : R b c) :
    R (b.play answer ss) (c.play answer' ts) := by
  -- The induction is on the two lists together; each pair of steps hands related battles on.
  induction hs generalizing b c with
  | nil => exact h
  | cons hst _ ih => exact ih (hst.play ha h)

end Playing

namespace Context

variable (ctx : Context)

/-- Nothing answers a change by which no buff comes or leaves, at any number of levels. -/
theorem answerWithin_idle (levels : Nat) : Answer.Idle (ctx.answerWithin levels) := by
  intro id b
  cases levels with
  | zero => rfl
  | succ levels =>
    have hnone : BuffChange.none.answers id = [] := rfl
    simp only [answerWithin, hnone, ite_self]

theorem answer_idle : Answer.Idle ctx.answer := fun id b => ctx.answerWithin_idle _ id b

/-- Dispatching an effect is playing the steps of the deed that it comes to. -/
theorem dispatchWith_snd {answer : Answer} (h : answer.Idle) (e : Effect) (b : Battle) :
    (ctx.dispatchWith answer e b).2 =
      match e.decide? ctx b.now with
      | none => b
      | some deed => b.play answer (deed.steps ctx) := by
  unfold dispatchWith
  cases e.decide? ctx b.now with
  | none => rfl
  | some deed => exact Deed.carryOut_snd h ctx deed b

theorem endTurn_eq_play (b : Battle) :
    ctx.endTurn b = b.play ctx.answer b.scene.endTurnSteps := by
  unfold endTurn tickBuffs Scene.endTurnSteps
  rw [Battle.play_cons, Battle.play_cons, Step.play_board ctx.answer_idle,
    Step.play_board ctx.answer_idle]
  rfl

end Context

namespace Simulation

variable {ctx : Context} {R : Battle → Battle → Prop} {Q : Effect → Prop}

/-- Under a simulation an effect is refused in both battles, or comes in both to deeds whose steps
do alike. -/
theorem decide_cases (sim : Simulation ctx R Q) {e : Effect} (hq : Q e) {b c : Battle} (h : R b c) :
    (e.decide? ctx b.now = none ∧ e.decide? ctx c.now = none) ∨
      ∃ deed deed', e.decide? ctx b.now = some deed ∧ e.decide? ctx c.now = some deed' ∧
        deed.possible b.scene = deed'.possible c.scene ∧
        List.Forall₂ (Step.Alike R Q) (deed.steps ctx) (deed'.steps ctx) := by
  have hrel := sim.decide e b c hq h
  cases hb : e.decide? ctx b.now with
  | none =>
    cases hc : e.decide? ctx c.now with
    | none => exact Or.inl ⟨rfl, rfl⟩
    | some deed' =>
      rw [hb, hc] at hrel
      cases hrel
  | some deed =>
    cases hc : e.decide? ctx c.now with
    | none =>
      rw [hb, hc] at hrel
      cases hrel
    | some deed' =>
      rw [hb, hc] at hrel
      cases hrel with
      | some hdeeds => exact Or.inr ⟨deed, deed', rfl, rfl, hdeeds⟩

/-- A simulation is kept by dispatching an effect, if it is kept by the answers. -/
theorem dispatchWith_snd (sim : Simulation ctx R Q) {answer : Answer} (hidle : answer.Idle)
    (ha : Answer.Alike R Q answer answer) {e : Effect} (hq : Q e) {b c : Battle} (h : R b c) :
    R (ctx.dispatchWith answer e b).2 (ctx.dispatchWith answer e c).2 := by
  rw [ctx.dispatchWith_snd hidle, ctx.dispatchWith_snd hidle]
  rcases sim.decide_cases hq h with ⟨hb, hc⟩ | ⟨deed, deed', hb, hc, _, hsteps⟩
  · rw [hb, hc]
    exact h
  · rw [hb, hc]
    exact Battle.play_alike hsteps ha h

/-- A simulation is kept by answers at every number of levels: by induction on the levels, as an
answer dispatches the effects of one level with the answers of the next. -/
theorem answerWithin (sim : Simulation ctx R Q) (levels : Nat) :
    Answer.Alike R Q (ctx.answerWithin levels) (ctx.answerWithin levels) := by
  -- The effects that answer a change keep battles related, because the answers one level further in
  -- do.
  induction levels with
  | zero => exact fun _ _ _ _ _ h => h
  | succ levels ih =>
    intro id change b c hq h
    have hfold (es : List Effect) (hes : ∀ e ∈ es, Q e) {b c : Battle} (h : R b c) :
        R (es.foldl (fun b e => (ctx.dispatchWith (ctx.answerWithin levels) e b).2) b)
          (es.foldl (fun b e => (ctx.dispatchWith (ctx.answerWithin levels) e b).2) c) := by
      induction es generalizing b c with
      | nil => exact h
      | cons e es ihes =>
        refine ihes (fun e he => hes e (List.mem_cons_of_mem _ he)) ?_
        exact sim.dispatchWith_snd (ctx.answerWithin_idle levels) ih (hes e List.mem_cons_self) h
    unfold Context.answerWithin
    -- Related battles are equally deep, and so both answer or neither does.
    rw [sim.depth b c h]
    split
    · exact h
    · split
      · exact h
      · have hinner := hfold _ hq (sim.atDepth (c.depth + 1) b c h)
        exact sim.atDepth c.depth _ _ hinner

theorem answer (sim : Simulation ctx R Q) : Answer.Alike R Q ctx.answer ctx.answer := by
  intro id change b c hq h
  unfold Context.answer
  rw [sim.depth b c h]
  exact sim.answerWithin _ id change b c hq h

end Simulation

namespace Invariant

variable {ctx : Context} {P : Battle → Prop} {Q : Effect → Prop}

theorem alike_self {s : Step} (h : ∀ b, P b → P (s.act b).1 ∧
    ∀ id change, (s.act b).2 = some (id, change) → ∀ e ∈ change.answers id, Q e) :
    Step.Alike (fun b c => b = c ∧ P b) Q s s := by
  rintro b c ⟨rfl, hb⟩
  obtain ⟨hacted, hq⟩ := h b hb
  exact ⟨⟨rfl, hacted⟩, rfl, hq⟩

/-- An invariant is a relation of a battle with itself. -/
theorem simulation (inv : Invariant ctx P Q) : Simulation ctx (fun b c => b = c ∧ P b) Q where
  depth := fun b c h => congrArg Battle.depth h.1
  atDepth := fun n b c h => ⟨congrArg (Battle.atDepth n) h.1, inv.atDepth n b h.2⟩
  decide := by
    rintro e b c hq ⟨rfl, hb⟩
    cases hdecide : e.decide? ctx b.now with
    | none => exact .none
    | some deed =>
      refine .some ⟨rfl, List.forall₂_same.mpr fun s hs => ?_⟩
      exact alike_self (inv.steps e b deed hq hb hdecide s hs)

theorem answer (inv : Invariant ctx P Q) {id : DuelistId} {change : BuffChange}
    (hq : ∀ e ∈ change.answers id, Q e) {b : Battle} (h : P b) : P (ctx.answer id change b) :=
  (inv.simulation.answer id change b b hq ⟨rfl, h⟩).2

/-- An invariant is kept by steps each of which keeps it and asks only for answers by effects of the
kind. -/
theorem play (inv : Invariant ctx P Q) {ss : List Step}
    (hss : ∀ s ∈ ss, ∀ b, P b → P (s.act b).1 ∧
      ∀ id change, (s.act b).2 = some (id, change) → ∀ e ∈ change.answers id, Q e)
    {b : Battle} (h : P b) : P (b.play ctx.answer ss) := by
  have halike : List.Forall₂ (Step.Alike (fun b c => b = c ∧ P b) Q) ss ss :=
    List.forall₂_same.mpr fun s hs => alike_self (hss s hs)
  exact (Battle.play_alike halike inv.simulation.answer ⟨rfl, h⟩).2

end Invariant

end PetDuel
