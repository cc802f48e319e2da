import PetDuel.Proofs.Answers

/-!
Nested answers come to an end. The run of a call is written down here as a relation that follows the
nesting of the effects themselves and counts no levels, so that a run in it is a run that ends.
-/

namespace PetDuel

inductive Call
  /-- An effect is dispatched. -/
  | dispatch (e : Effect)
  /-- The fighter that is out for a duelist changes, and the change of its buffs is answered. -/
  | change (id : DuelistId) (f : Fighter → Fighter × BuffChange)
  /-- A change of buffs is answered. -/
  | answer (id : DuelistId) (buffs : BuffChange)
  /-- The turn ends. -/
  | endTurn
  /-- A phase is entered. -/
  | resolve (timing : Timing)

def Call.run (ctx : Context) (b : Battle) : Call → Battle
  | dispatch e => (ctx.dispatch e b).2
  | change id f => (b.changeActive ctx.answer id f).2
  | answer id buffs => ctx.answer id buffs b
  | endTurn => ctx.endTurn b
  | resolve timing => (ctx.resolve timing b).2

/-- What is to be done at some point of a call. -/
inductive Task
  | call (c : Call)
  | steps (ss : List Step)
  | effects (es : List Effect)
  /-- The effects of a phase, which stop when the duel ends. -/
  | pass (timing : Timing) (es : List Effect)

/-- A task done from one battle to another. The list tells at which depth each of the effects was
dispatched on the way. -/
inductive Runs (ctx : Context) : Task → Battle → List Nat → Battle → Prop
  | refused {e : Effect} {b : Battle} (h : e.decide? ctx b.now = none) :
    Runs ctx (.call (.dispatch e)) b [b.depth] b
  | decided {e : Effect} {b c : Battle} {deed : Deed} {log : List Nat}
    (h : e.decide? ctx b.now = some deed) (hs : Runs ctx (.steps (deed.steps ctx)) b log c) :
    Runs ctx (.call (.dispatch e)) b (b.depth :: log) c
  | change {id : DuelistId} {f : Fighter → Fighter × BuffChange} {b c : Battle} {log : List Nat}
    (hs : Runs ctx (.steps [.fighter id f]) b log c) : Runs ctx (.call (.change id f)) b log c
  | full {id : DuelistId} {change : BuffChange} {b : Battle}
    (h : ctx.rules.hookLimit.toNat ≤ b.depth) : Runs ctx (.call (.answer id change)) b [] b
  | unanswered {id : DuelistId} {change : BuffChange} {b : Battle} (h : change.answers id = []) :
    Runs ctx (.call (.answer id change)) b [] b
  | answered {id : DuelistId} {change : BuffChange} {b c : Battle} {log : List Nat}
    (h : b.depth < ctx.rules.hookLimit.toNat) (hne : change.answers id ≠ [])
    (hes : Runs ctx (.effects (change.answers id)) (b.atDepth (b.depth + 1)) log c) :
    Runs ctx (.call (.answer id change)) b log (c.atDepth b.depth)
  | endTurn {b c : Battle} {log : List Nat}
    (hs : Runs ctx (.steps b.scene.endTurnSteps) b log c) : Runs ctx (.call .endTurn) b log c
  | resolve {timing : Timing} {b c : Battle} {log : List Nat}
    (hes : Runs ctx (.pass timing ((b.advance timing).scene.effectsAt timing)) (b.advance timing)
      log c) : Runs ctx (.call (.resolve timing)) b log c
  | stepsDone {b : Battle} : Runs ctx (.steps []) b [] b
  | stepQuiet {s : Step} {ss : List Step} {b b' c : Battle} {log : List Nat}
    (h : s.act b = (b', none)) (hs : Runs ctx (.steps ss) b' log c) :
    Runs ctx (.steps (s :: ss)) b log c
  | stepAnswered {s : Step} {ss : List Step} {id : DuelistId} {change : BuffChange}
    {b b' c d : Battle} {first rest : List Nat} (h : s.act b = (b', some (id, change)))
    (ha : Runs ctx (.call (.answer id change)) b' first c) (hs : Runs ctx (.steps ss) c rest d) :
    Runs ctx (.steps (s :: ss)) b (first ++ rest) d
  | effectsDone {b : Battle} : Runs ctx (.effects []) b [] b
  | effectsNext {e : Effect} {es : List Effect} {b c d : Battle} {first rest : List Nat}
    (he : Runs ctx (.call (.dispatch e)) b first c) (hes : Runs ctx (.effects es) c rest d) :
    Runs ctx (.effects (e :: es)) b (first ++ rest) d
  | passDone {timing : Timing} {b : Battle} : Runs ctx (.pass timing []) b [] b
  | passStopped {timing : Timing} {e : Effect} {es : List Effect} {b : Battle}
    (h : timing ≠ .battleEnd ∧ b.scene.phase = .battleEnd) :
    Runs ctx (.pass timing (e :: es)) b [] b
  | passNext {timing : Timing} {e : Effect} {es : List Effect} {b c d : Battle}
    {first rest : List Nat} (h : ¬(timing ≠ .battleEnd ∧ b.scene.phase = .battleEnd))
    (he : Runs ctx (.call (.dispatch e)) b first c) (hes : Runs ctx (.pass timing es) c rest d) :
    Runs ctx (.pass timing (e :: es)) b (first ++ rest) d

/-- A step on its own does not go deeper. -/
theorem Step.depth_of_act {s : Step} {b b' : Battle} {asked : Option (DuelistId × BuffChange)}
    (h : s.act b = (b', asked)) : b'.depth = b.depth := by
  have hdepth : (s.act b).1.depth = b.depth := by rw [s.act_fst b]
  rw [h] at hdepth
  exact hdepth

namespace Runs

variable {ctx : Context} {task : Task} {b c : Battle} {log : List Nat}

/-- A task ends at the depth where it started. -/
theorem depth_eq (h : Runs ctx task b log c) : c.depth = b.depth := by
  -- An answer puts back the count that it found, and nothing else touches it.
  induction h with
  | refused | full | unanswered | answered | stepsDone | effectsDone | passDone | passStopped => rfl
  | decided _ _ ih => exact ih
  | change _ ih | endTurn _ ih => exact ih
  | resolve _ ih => exact ih
  | stepQuiet h _ ih => exact ih.trans (Step.depth_of_act h)
  | stepAnswered h _ _ iha ihs => exact (ihs.trans iha).trans (Step.depth_of_act h)
  | effectsNext _ _ ihe ihes => exact ihes.trans ihe
  | passNext _ _ _ ihe ihes => exact ihes.trans ihe

/-- No depth in the log is above the limit: by induction on the run, as a change is answered only
below it. -/
theorem bounded (h : Runs ctx task b log c) (hb : b.depth ≤ ctx.rules.hookLimit.toNat) :
    ∀ n ∈ log, n ≤ ctx.rules.hookLimit.toNat := by
  -- Only an answer goes one level deeper, and only below the limit.
  induction h with
  | full | unanswered | stepsDone | effectsDone | passDone | passStopped =>
    exact List.forall_mem_nil _
  | refused => exact List.forall_mem_singleton.mpr hb
  | decided _ _ ih => exact List.forall_mem_cons.mpr ⟨hb, ih hb⟩
  | change _ ih | endTurn _ ih => exact ih hb
  | resolve _ ih => exact ih hb
  | answered h _ _ ih => exact ih h
  | stepQuiet h _ ih => exact ih ((Step.depth_of_act h).symm ▸ hb)
  | stepAnswered h ha _ iha ihs =>
    have hacted := (Step.depth_of_act h).symm ▸ hb
    exact List.forall_mem_append.mpr ⟨iha hacted, ihs (ha.depth_eq.symm ▸ hacted)⟩
  | effectsNext he _ ihe ihes =>
    exact List.forall_mem_append.mpr ⟨ihe hb, ihes (he.depth_eq.symm ▸ hb)⟩
  | passNext _ he _ ihe ihes =>
    exact List.forall_mem_append.mpr ⟨ihe hb, ihes (he.depth_eq.symm ▸ hb)⟩

/-- A task has one end and one log: by induction on the run, with one case for each rule and the
other rules excluded. -/
theorem unique (h : Runs ctx task b log c) {log' : List Nat} {c' : Battle}
    (h' : Runs ctx task b log' c') : log' = log ∧ c' = c := by
  induction h generalizing log' c' with
  | refused h =>
    cases h' with
    | refused => exact ⟨rfl, rfl⟩
    | decided hsome => cases h.symm.trans hsome
  | decided h _ ih =>
    cases h' with
    | refused hnone => cases h.symm.trans hnone
    | decided hsome hs =>
      cases h.symm.trans hsome
      obtain ⟨hlog, hc⟩ := ih hs
      exact ⟨congrArg _ hlog, hc⟩
  | change _ ih =>
    cases h' with
    | change hs => exact ih hs
  -- At the limit and without effects nothing is done, whichever of the two rules applies.
  | full h =>
    cases h' with
    | full | unanswered => exact ⟨rfl, rfl⟩
    | answered hlt => exact absurd h (Nat.not_le_of_lt hlt)
  | unanswered h =>
    cases h' with
    | full | unanswered => exact ⟨rfl, rfl⟩
    | answered _ hne => exact absurd h hne
  | answered h hne _ ih =>
    cases h' with
    | full hle => exact absurd hle (Nat.not_le_of_lt h)
    | unanswered hnil => exact absurd hnil hne
    | answered _ _ hes =>
      obtain ⟨hlog, hc⟩ := ih hes
      exact ⟨hlog, congrArg _ hc⟩
  | endTurn _ ih =>
    cases h' with
    | endTurn hs => exact ih hs
  | resolve _ ih =>
    cases h' with
    | resolve hes => exact ih hes
  | stepsDone =>
    cases h' with
    | stepsDone => exact ⟨rfl, rfl⟩
  | stepQuiet h _ ih =>
    cases h' with
    | stepQuiet h' hs =>
      cases h.symm.trans h'
      exact ih hs
    | stepAnswered h' => cases h.symm.trans h'
  | stepAnswered h _ _ iha ihs =>
    cases h' with
    | stepQuiet h' => cases h.symm.trans h'
    | stepAnswered h' ha hs =>
      cases h.symm.trans h'
      obtain ⟨hfirst, rfl⟩ := iha ha
      obtain ⟨hrest, hd⟩ := ihs hs
      exact ⟨congrArg₂ _ hfirst hrest, hd⟩
  | effectsDone =>
    cases h' with
    | effectsDone => exact ⟨rfl, rfl⟩
  | effectsNext _ _ ihe ihes =>
    cases h' with
    | effectsNext he hes =>
      obtain ⟨hfirst, rfl⟩ := ihe he
      obtain ⟨hrest, hd⟩ := ihes hes
      exact ⟨congrArg₂ _ hfirst hrest, hd⟩
  | passDone =>
    cases h' with
    | passDone => exact ⟨rfl, rfl⟩
  | passStopped h =>
    cases h' with
    | passStopped => exact ⟨rfl, rfl⟩
    | passNext hgoing => exact absurd h hgoing
  | passNext h _ _ ihe ihes =>
    cases h' with
    | passStopped hstopped => exact absurd hstopped h
    | passNext _ he hes =>
      obtain ⟨hfirst, rfl⟩ := ihe he
      obtain ⟨hrest, hd⟩ := ihes hes
      exact ⟨congrArg₂ _ hfirst hrest, hd⟩

end Runs

def Answer.RunsAt (ctx : Context) (n : Nat) (answer : Answer) : Prop :=
  ∀ id change b, b.depth = n →
    ∃ log, Runs ctx (.call (.answer id change)) b log (answer id change b)

section Completeness

variable {ctx : Context} {answer : Answer} {n : Nat}

/-- Steps run when the answers at their depth run. -/
theorem Answer.RunsAt.steps (ha : answer.RunsAt ctx n) (ss : List Step) {b : Battle}
    (hb : b.depth = n) : ∃ log, Runs ctx (.steps ss) b log (b.play answer ss) := by
  induction ss generalizing b with
  | nil => exact ⟨[], .stepsDone⟩
  | cons s ss ih =>
    rw [Battle.play_cons]
    unfold Step.play
    rcases hact : s.act b with ⟨b', _ | ⟨id, change⟩⟩
    · obtain ⟨log, hs⟩ := ih ((Step.depth_of_act hact).trans hb)
      exact ⟨log, .stepQuiet hact hs⟩
    · have hacted := (Step.depth_of_act hact).trans hb
      obtain ⟨first, hfirst⟩ := ha id change b' hacted
      obtain ⟨rest, hs⟩ := ih (hfirst.depth_eq.trans hacted)
      exact ⟨first ++ rest, .stepAnswered hact hfirst hs⟩

/-- An effect runs by the steps of the deed that it comes to. -/
theorem Answer.RunsAt.dispatchWith (ha : answer.RunsAt ctx n) (hidle : answer.Idle) (e : Effect)
    {b : Battle} (hb : b.depth = n) :
    ∃ log, Runs ctx (.call (.dispatch e)) b log (ctx.dispatchWith answer e b).2 := by
  rw [ctx.dispatchWith_snd hidle]
  cases hdecide : e.decide? ctx b.now with
  | none => exact ⟨[b.depth], .refused hdecide⟩
  | some deed =>
    obtain ⟨log, hs⟩ := ha.steps (deed.steps ctx) hb
    exact ⟨b.depth :: log, .decided hdecide hs⟩

/-- Several effects run one after the other. -/
theorem Answer.RunsAt.effects (ha : answer.RunsAt ctx n) (hidle : answer.Idle) (es : List Effect)
    {b : Battle} (hb : b.depth = n) :
    ∃ log, Runs ctx (.effects es) b log
      (es.foldl (fun b e => (ctx.dispatchWith answer e b).2) b) := by
  induction es generalizing b with
  | nil => exact ⟨[], .effectsDone⟩
  | cons e es ih =>
    obtain ⟨first, he⟩ := ha.dispatchWith hidle e hb
    obtain ⟨rest, hes⟩ := ih (he.depth_eq.trans hb)
    exact ⟨first ++ rest, .effectsNext he hes⟩

/-- As many levels as are left below the limit are enough, whatever the effects are. -/
theorem Context.answerWithin_runsAt (ctx : Context) (levels : Nat) :
    ∀ n, ctx.rules.hookLimit.toNat ≤ n + levels →
      Answer.RunsAt ctx n (ctx.answerWithin levels) := by
  -- The induction is on the levels; the effects of an answer run one level deeper, with one level
  -- less to go.
  induction levels with
  | zero =>
    intro n hlimit id change b hb
    exact ⟨[], .full (hb ▸ hlimit)⟩
  | succ levels ih =>
    intro n hlimit id change b hb
    unfold answerWithin
    split
    · rename_i hfull
      exact ⟨[], .full hfull⟩
    · rename_i hfull
      split
      · rename_i hnil
        exact ⟨[], .unanswered hnil⟩
      · rename_i hne
        have hinner : Answer.RunsAt ctx (b.depth + 1) (ctx.answerWithin levels) :=
          ih (b.depth + 1) (by omega)
        obtain ⟨log, hes⟩ := hinner.effects (ctx.answerWithin_idle levels) (change.answers id)
          (b := b.atDepth (b.depth + 1)) rfl
        exact ⟨log, .answered (Nat.lt_of_not_le hfull) hne hes⟩

theorem Context.answer_runsAt (ctx : Context) (n : Nat) : Answer.RunsAt ctx n ctx.answer :=
  fun id change b _ => ctx.answerWithin_runsAt _ b.depth (by omega) id change b rfl

/-- A pass over the effects of a phase runs to its end. -/
theorem Context.dispatchEach_runs (ctx : Context) (timing : Timing) (es : List Effect)
    (b : Battle) :
    ∃ log, Runs ctx (.pass timing es) b log (ctx.dispatchEach timing es b).2 := by
  induction es generalizing b with
  | nil => exact ⟨[], .passDone⟩
  | cons e es ih =>
    unfold dispatchEach
    split
    · rename_i hstop
      exact ⟨[], .passStopped (by simpa using hstop)⟩
    · rename_i hgo
      obtain ⟨first, he⟩ := (ctx.answer_runsAt b.depth).dispatchWith ctx.answer_idle e rfl
      obtain ⟨rest, hes⟩ := ih (ctx.dispatch e b).2
      exact ⟨first ++ rest, .passNext (by simpa using hgo) he hes⟩

/-- Each of the five calls runs and ends in what the function returns. -/
theorem Call.runs (ctx : Context) (call : Call) (b : Battle) :
    ∃ log, Runs ctx (.call call) b log (call.run ctx b) := by
  have ha := ctx.answer_runsAt b.depth
  cases call with
  | dispatch e => exact ha.dispatchWith ctx.answer_idle e rfl
  | change id f =>
    obtain ⟨log, hs⟩ := ha.steps [.fighter id f] rfl
    rw [Battle.play_cons, Battle.play_nil, Step.play_fighter ctx.answer_idle] at hs
    exact ⟨log, .change hs⟩
  | answer id buffs => exact ha id buffs b rfl
  | endTurn =>
    obtain ⟨log, hs⟩ := ha.steps b.scene.endTurnSteps rfl
    rw [← ctx.endTurn_eq_play] at hs
    exact ⟨log, .endTurn hs⟩
  | resolve timing =>
    obtain ⟨log, hes⟩ := ctx.dispatchEach_runs timing _ (b.advance timing)
    exact ⟨log, .resolve hes⟩

end Completeness

/-- Every call has a run that ends, and no other; in it no effect is dispatched deeper than the
limit, and the count of nested answers is in the end what it was. -/
theorem nesting_bounded (ctx : Context) (call : Call) (b : Battle)
    (h : b.depth ≤ ctx.rules.hookLimit.toNat) :
    ∃ log, (∀ log' c, Runs ctx (.call call) b log' c ↔ log' = log ∧ c = call.run ctx b) ∧
      (∀ n ∈ log, n ≤ ctx.rules.hookLimit.toNat) ∧ (call.run ctx b).depth = b.depth := by
  obtain ⟨log, hrun⟩ := call.runs ctx b
  refine ⟨log, fun log' c => ⟨hrun.unique, ?_⟩, hrun.bounded h, hrun.depth_eq⟩
  rintro ⟨rfl, rfl⟩
  exact hrun

/-- A buff that brings another of its kind along whenever it comes. -/
theorem nesting_bounded_of_self_adding :
    let again := (Effect.new .buffAdded .addBuff .empty).actingFor ⟨1⟩
    let template : BuffTemplate :=
      { (default : BuffTemplate) with policy := .append, effects := [again] }
    let ctx : Context := ⟨⟨[template], [], []⟩, { hookLimit := 3 }⟩
    let b := Battle.new (.new ⟨1⟩ [default] 0) (.new ⟨2⟩ [default] 0)
    let c := (Call.dispatch again).run ctx b
    b.depth ≤ 3 ∧ ∃ log, (∀ log' c', Runs ctx (.call (.dispatch again)) b log' c' ↔
      log' = log ∧ c' = c) ∧ (∀ n ∈ log, n ≤ 3) ∧ c.depth = b.depth := by
  intro again template ctx b c
  have hb : b.depth ≤ ctx.rules.hookLimit.toNat := by decide
  exact ⟨hb, nesting_bounded ctx (.dispatch again) b hb⟩

end PetDuel
