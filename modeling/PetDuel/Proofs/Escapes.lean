import PetDuel.Proofs.Handled
import PetDuel.Proofs.Passes

/-!
Escapes. A phase dispatches the effects of both duelists while one of them is acting. Whoever an
escape belongs to, it is the acting duelist that escapes, and the phase is over with it.
-/

namespace PetDuel

namespace Scene

variable {s t : Scene}

def escapeOf (s : Scene) (id : DuelistId) : Outcome :=
  if s.isOwn id then .ownEscape else .opposingEscape

theorem escapeOf_congr (h : t.ids = s.ids) (id : DuelistId) : t.escapeOf id = s.escapeOf id := by
  have hown : t.own.id = s.own.id := congrArg Prod.fst h
  unfold escapeOf isOwn
  rw [hown]

/-- The player's own duelist is the only one whose escape counts as its own. -/
theorem escapeOf_eq_ownEscape_iff (id : DuelistId) :
    s.escapeOf id = .ownEscape ↔ s.own.id = id := by
  unfold escapeOf isOwn
  by_cases h : s.own.id = id <;> simp [h]

/-- The escapes of the two duelists differ. -/
theorem escapeOf_inj {id id' : DuelistId} (h : (s.duelist? id).isSome)
    (h' : (s.duelist? id').isSome) : s.escapeOf id = s.escapeOf id' ↔ id' = id := by
  constructor
  · intro heq
    have hiff : s.own.id = id ↔ s.own.id = id' := by
      rw [← escapeOf_eq_ownEscape_iff, ← escapeOf_eq_ownEscape_iff, heq]
    rcases s.duelist?_cases id with ⟨hown, _⟩ | ⟨hown, hid, _⟩ | ⟨_, _, hnone, _⟩
    · exact (hiff.mp hown).symm.trans hown
    · -- Both are on the other side then, where only one duelist is.
      rcases s.duelist?_cases id' with ⟨hown', _⟩ | ⟨_, hid', _⟩ | ⟨_, _, hnone', _⟩
      · exact absurd (hiff.mpr hown') hown
      · exact hid'.symm.trans hid
      · simp [hnone'] at h'
    · simp [hnone] at h
  · rintro rfl
    rfl

/-- Effects are collected only while one of the duelists is acting. -/
theorem isSome_duelist?_acting {timing : Timing} {e : Effect} (h : e ∈ s.effectsAt timing) :
    (s.duelist? s.acting).isSome := by
  unfold duelist?
  unfold effectsAt inOrder rivalId? at h
  split
  · rfl
  · rename_i hown
    split
    · rfl
    · rename_i hopposing
      rw [if_neg hown, if_neg hopposing] at h
      cases h

theorem isSome_duelist?_of_mem_inOrder {d : Duelist} (h : d ∈ s.inOrder) :
    (s.duelist? d.id).isSome := by
  unfold inOrder at h
  split at h
  · cases h
  · obtain ⟨id, _, hd⟩ := List.mem_filterMap.mp h
    rw [id_of_duelist? hd, hd]
    rfl

/-- Every effect that is collected acts for one of the two duelists. -/
theorem invoker_of_mem_effectsAt {timing : Timing} {e : Effect} (h : e ∈ s.effectsAt timing) :
    ∃ id, e.invoker = some id ∧ (s.duelist? id).isSome := by
  unfold effectsAt at h
  rcases List.mem_append.mp h with hskill | hbuff
  · obtain ⟨d, hd, he⟩ := List.mem_flatMap.mp hskill
    obtain ⟨e', _, rfl⟩ := List.mem_map.mp he
    exact ⟨d.id, rfl, isSome_duelist?_of_mem_inOrder hd⟩
  · obtain ⟨d, hd, he⟩ := List.mem_flatMap.mp hbuff
    unfold buffEffects at he
    split at he
    · cases he
    · obtain ⟨x, _, hx⟩ := List.mem_flatMap.mp he
      obtain ⟨e', _, rfl⟩ := List.mem_map.mp hx
      exact ⟨d.id, rfl, isSome_duelist?_of_mem_inOrder hd⟩

end Scene

namespace Context

variable {ctx : Context}

def dispatchAll (ctx : Context) (es : List Effect) (b : Battle) : Battle :=
  es.foldl (fun b e => (ctx.dispatch e b).2) b

/-- Effects do not change the numbers of the duelists or which one is acting. -/
theorem dispatchAll_ids (es : List Effect) (b : Battle) :
    (ctx.dispatchAll es b).scene.ids = b.scene.ids := by
  -- The induction is on the effects; the numbers are an invariant of each dispatch.
  induction es generalizing b with
  | nil => rfl
  | cons e es ih =>
    have hfirst : (ctx.dispatch e b).2.scene.ids = b.scene.ids :=
      (invariant_ids ctx _).dispatch trivial rfl
    exact (ih _).trans hfirst

/-- An escape always succeeds, and the duelist that is acting is credited with it. -/
theorem dispatch_escape (ctx : Context) {e : Effect} (he : e.ability = .escape) (b : Battle) :
    ctx.dispatch e b = (true, b.onScene fun s => s.finish (b.scene.escapeOf b.scene.acting)) := by
  have hdecide : e.decide? ctx b.now = some (.finish (b.scene.escapeOf b.scene.acting)) := by
    simp only [Effect.decide?, he]
    rfl
  exact dispatch_of_decide?_eq_some hdecide

/-- In a duel that has ended no further effect of the phase is dispatched. -/
theorem dispatched_of_ended {timing : Timing} (ht : timing ≠ .battleEnd) (es : List Effect)
    {b : Battle} (hb : b.scene.phase = .battleEnd) : ctx.dispatched timing es b = [] := by
  cases es with
  | nil => rfl
  | cons e es =>
    have hstop : (timing != .battleEnd && b.scene.phase == .battleEnd) = true := by simp [ht, hb]
    rw [dispatched, hstop]
    rfl

/-- Where a pass has come to when it dispatches an effect: what was dispatched before are the
effects in front of it, and what follows is dispatched from the battle that they all leave. -/
theorem dispatched_split {timing : Timing} {es before after : List Effect} {e : Effect} {b : Battle}
    (h : ctx.dispatched timing es b = before ++ e :: after) :
    ∃ rest, es = before ++ e :: rest ∧
      after = ctx.dispatched timing rest (ctx.dispatch e (ctx.dispatchAll before b)).2 := by
  induction es generalizing before b with
  | nil => simp [dispatched] at h
  | cons e' es ih =>
    rw [dispatched] at h
    split at h
    · simp at h
    · cases before with
      | nil =>
        obtain ⟨rfl, rfl⟩ := List.cons.inj h
        exact ⟨es, rfl, rfl⟩
      | cons e'' before =>
        obtain ⟨rfl, htail⟩ := List.cons.inj h
        obtain ⟨rest, rfl, hafter⟩ := ih htail
        exact ⟨rest, rfl, hafter⟩

theorem resolve_snd (timing : Timing) (b : Battle) :
    (ctx.resolve timing b).2 =
      ctx.dispatchAll (ctx.dispatched timing (b.scene.effectsAt timing) (b.advance timing))
        (b.advance timing) :=
  ctx.dispatchEach_snd timing _ _

end Context

/-- An escape that a phase dispatches is handled, and it is recorded as the escape of the duelist
that is acting. That is the one the effect acts for only when this one is acting itself. Nothing is
dispatched after it, unless the phase is that of the end of the duel, and so its record stays. -/
theorem escape_credited_to_acting (ctx : Context) (timing : Timing) (b : Battle) (e : Effect)
    (before after : List Effect)
    (hdispatched :
      ctx.dispatched timing (b.scene.effectsAt timing) (b.advance timing) = before ++ e :: after)
    (hescape : e.ability = .escape) :
    let reached := ctx.dispatchAll before (b.advance timing)
    let credited := b.scene.escapeOf b.scene.acting
    (ctx.dispatch e reached).1 = true ∧
      (ctx.dispatch e reached).2.scene.outcome = credited ∧
      (timing ≠ .battleEnd → after = []) ∧
      (after = [] → (ctx.resolve timing b).2.scene.outcome = credited) ∧
      ∃ id, e.invoker = some id ∧
        (credited = b.scene.escapeOf id ↔ id = b.scene.acting) := by
  intro reached credited
  have hdispatch := ctx.dispatch_escape hescape reached
  -- Who is who stays the same up to the escape.
  have hids : reached.scene.ids = b.scene.ids := Context.dispatchAll_ids before (b.advance timing)
  have hacting : reached.scene.acting = b.scene.acting := congrArg (fun ids => ids.2.2) hids
  have hcredited : reached.scene.escapeOf reached.scene.acting = credited := by
    rw [hacting, Scene.escapeOf_congr hids]
  have houtcome : (ctx.dispatch e reached).2.scene.outcome = credited := by
    rw [hdispatch, ← hcredited]
    rfl
  have hended : (ctx.dispatch e reached).2.scene.phase = .battleEnd := by
    rw [hdispatch]
    rfl
  obtain ⟨rest, heffects, hafter⟩ := Context.dispatched_split hdispatched
  have hmem : e ∈ b.scene.effectsAt timing := by
    rw [heffects]
    exact List.mem_append_right before List.mem_cons_self
  refine ⟨congrArg Prod.fst hdispatch, houtcome, ?_, ?_, ?_⟩
  · intro ht
    exact hafter.trans (Context.dispatched_of_ended ht rest hended)
  · rintro rfl
    rw [Context.resolve_snd, hdispatched, Context.dispatchAll, List.foldl_append]
    exact houtcome
  · obtain ⟨id, hid, hfound⟩ := Scene.invoker_of_mem_effectsAt hmem
    exact ⟨id, hid, Scene.escapeOf_inj (Scene.isSome_duelist?_acting hmem) hfound⟩

/-- The opposing duelist is acting and escapes by its skill. -/
theorem escape_credited_to_opposing :
    let ctx : Context := ⟨.empty, {}⟩
    let e := Effect.new .attack .escape .empty
    let opposing := (Duelist.new ⟨2⟩ [] 0).choose { Skill.pass with effects := [e] }
    let b := (Battle.new (.new ⟨1⟩ [] 0) opposing).onScene fun s => { s with acting := ⟨2⟩ }
    let es := ctx.dispatched .attack (b.scene.effectsAt .attack) (b.advance .attack)
    es = [] ++ e.actingFor ⟨2⟩ :: [] ∧ e.ability = .escape ∧
      (ctx.resolve .attack b).2.scene.outcome = .opposingEscape := by
  intro ctx e opposing b es
  have hdispatched : es = [] ++ e.actingFor ⟨2⟩ :: [] := by decide
  have hall := escape_credited_to_acting ctx .attack b (e.actingFor ⟨2⟩) [] [] hdispatched rfl
  exact ⟨hdispatched, rfl, hall.2.2.2.1 rfl⟩

/-- An escape that the skill of the opposing duelist holds is dispatched while the player's own
duelist is acting, and it is recorded that the latter has escaped. -/
theorem escape_of_bystander :
    let ctx : Context := ⟨.empty, {}⟩
    let e := Effect.new .attack .escape .empty
    let opposing := (Duelist.new ⟨2⟩ [] 0).choose { Skill.pass with effects := [e] }
    let b := Battle.new (.new ⟨1⟩ [] 0) opposing
    ctx.dispatched .attack (b.scene.effectsAt .attack) (b.advance .attack) = [e.actingFor ⟨2⟩] ∧
      (ctx.resolve .attack b).2.scene.outcome = .ownEscape ∧
      (ctx.resolve .attack b).2.scene.outcome ≠ b.scene.escapeOf ⟨2⟩ := by
  decide

end PetDuel
