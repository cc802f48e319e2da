import PetDuel.Resolve

/-!
Phases of a duel that has ended. The end of a duel is kept in its phase, and entering the next phase
writes over it: within the phase in which a duel ends no further effect is dispatched, but in later
phases effects are dispatched as if the duel were still going on.
-/

namespace PetDuel

namespace Context

variable (ctx : Context)

/-- The effects of a phase that are dispatched, which are those before the duel ends. -/
def dispatched (timing : Timing) : List Effect → Battle → List Effect
  | [], _ => []
  | e :: es, b =>
    if timing != .battleEnd && b.scene.phase == .battleEnd then []
    else e :: dispatched timing es (ctx.dispatch e b).2

/-- A phase passes a duel by: no effect is dispatched, none counts as handled, and nothing but the
phase is different afterwards. -/
def PassesBy (timing : Timing) (b : Battle) : Prop :=
  ctx.dispatched timing (b.scene.effectsAt timing) (b.advance timing) = [] ∧
    (ctx.resolve timing b).1 = 0 ∧
    (ctx.resolve timing b).2.scene = { b.scene with phase := timing }

def AllPassBy : List Timing → Battle → Prop
  | [], _ => True
  | timing :: timings, b =>
    ctx.PassesBy timing b ∧ AllPassBy timings (ctx.resolve timing b).2

/-- A phase leaves the duel as the effects leave it that are dispatched. -/
theorem dispatchEach_snd (timing : Timing) (es : List Effect) (b : Battle) :
    (ctx.dispatchEach timing es b).2 =
      (ctx.dispatched timing es b).foldl (fun b e => (ctx.dispatch e b).2) b := by
  induction es generalizing b with
  | nil => rfl
  | cons e es ih =>
    unfold dispatchEach dispatched
    split
    · rfl
    · exact ih (ctx.dispatch e b).2

/-- Entering a phase makes it the current one, and so the first effect of the phase is dispatched
even in a duel that has ended. -/
theorem dispatched_advance_cons {timing : Timing} (ht : timing ≠ .battleEnd) (e : Effect)
    (es : List Effect) (b : Battle) :
    ctx.dispatched timing (e :: es) (b.advance timing) =
      e :: ctx.dispatched timing es (ctx.dispatch e (b.advance timing)).2 := by
  -- Whatever the phase was before, it is the new one by now.
  have hphase : (b.advance timing).scene.phase ≠ .battleEnd := ht
  rw [dispatched, beq_eq_false_iff_ne.mpr hphase, Bool.and_false]
  rfl

theorem resolve_of_effectsAt_eq_nil {timing : Timing} {b : Battle}
    (h : b.scene.effectsAt timing = []) : ctx.resolve timing b = (0, b.advance timing) := by
  have hadvanced : (b.advance timing).scene.effectsAt timing = [] := h
  unfold resolve
  dsimp only
  rw [hadvanced]
  rfl

/-- A phase passes a duel by exactly when there is no effect at its timing. -/
theorem passesBy_iff {timing : Timing} (ht : timing ≠ .battleEnd) (b : Battle) :
    ctx.PassesBy timing b ↔ b.scene.effectsAt timing = [] := by
  constructor
  · rintro ⟨hnone, _, _⟩
    cases hes : b.scene.effectsAt timing with
    | nil => rfl
    | cons e es =>
      rw [hes, ctx.dispatched_advance_cons ht] at hnone
      cases hnone
  · intro hes
    unfold PassesBy
    rw [ctx.resolve_of_effectsAt_eq_nil hes, hes]
    exact ⟨rfl, rfl, rfl⟩

end Context

/-- Whether a duel has ended or not, later phases pass it by exactly as long as none of them finds
an effect to dispatch. -/
theorem allPassBy_iff (ctx : Context) (timings : List Timing) (h : .battleEnd ∉ timings)
    (b : Battle) :
    ctx.AllPassBy timings b ↔ ∀ timing ∈ timings, b.scene.effectsAt timing = [] := by
  induction timings generalizing b with
  | nil => exact ⟨fun _ => List.forall_mem_nil _, fun _ => trivial⟩
  | cons timing timings ih =>
    have hne : timing ≠ .battleEnd := fun heq => h (heq ▸ List.mem_cons_self)
    have hrest : .battleEnd ∉ timings := fun hmem => h (List.mem_cons_of_mem _ hmem)
    rw [List.forall_mem_cons]
    -- A phase that passes by leaves the effects of the later phases as they were.
    have hlater (hes : b.scene.effectsAt timing = []) (t : Timing) :
        (ctx.resolve timing b).2.scene.effectsAt t = b.scene.effectsAt t := by
      rw [ctx.resolve_of_effectsAt_eq_nil hes]
      rfl
    constructor
    · rintro ⟨hby, hall⟩
      have hes := (ctx.passesBy_iff hne b).mp hby
      refine ⟨hes, fun t ht => ?_⟩
      rw [← hlater hes t]
      exact (ih hrest _).mp hall t ht
    · rintro ⟨hes, hall⟩
      refine ⟨(ctx.passesBy_iff hne b).mpr hes, (ih hrest _).mpr fun t ht => ?_⟩
      rw [hlater hes t]
      exact hall t ht

/-- A skill that holds an escape for the start of a turn leaves a won duel alone as long as no turn
starts. -/
theorem allPassBy_before_turnStart :
    let ctx : Context := ⟨.empty, {}⟩
    let skill := { Skill.pass with effects := [.new .turnStart .escape .empty] }
    let own := (Duelist.new ⟨1⟩ [] 0).choose skill
    let b := (Battle.new own (.new ⟨2⟩ [] 0)).onScene fun s => s.finish .win
    let timings := [Timing.turnEnd, .attack]
    (.battleEnd ∉ timings) ∧ b.scene.effectsAt .turnStart ≠ [] ∧
      (∀ timing ∈ timings, b.scene.effectsAt timing = []) ∧ ctx.AllPassBy timings b := by
  intro ctx skill own b timings
  have htimings : .battleEnd ∉ timings := by decide
  have hnone : ∀ timing ∈ timings, b.scene.effectsAt timing = [] := by decide
  exact ⟨htimings, by decide, hnone, (allPassBy_iff ctx timings htimings b).mpr hnone⟩

/-- An escape that a skill holds for the start of a turn is dispatched after the duel was won, and
the duel counts as escaped from. -/
theorem escape_after_win :
    let ctx : Context := ⟨.empty, {}⟩
    let skill := { Skill.pass with effects := [.new .turnStart .escape .empty] }
    let own := (Duelist.new ⟨1⟩ [] 0).choose skill
    let b := (Battle.new own (.new ⟨2⟩ [] 0)).onScene fun s => s.finish .win
    b.scene.outcome = .win ∧ (ctx.resolve .turnStart b).1 = 1 ∧
      (ctx.resolve .turnStart b).2.scene.outcome = .ownEscape ∧
      ¬ctx.AllPassBy [.turnStart] b := by
  intro ctx skill own b
  have hcount : (ctx.resolve .turnStart b).1 = 1 := by decide
  have houtcome : (ctx.resolve .turnStart b).2.scene.outcome = .ownEscape := by decide
  refine ⟨rfl, hcount, houtcome, fun h => ?_⟩
  have hnone : (ctx.resolve .turnStart b).1 = 0 := h.1.2.1
  rw [hcount] at hnone
  cases hnone

end PetDuel
