import PetDuel.Proofs.Mirror
import PetDuel.Proofs.Quiet

/-!
The end of a turn. The buffs of the own side are counted down first, and what expires there is
answered before the opposing side is counted down. Seen from the other side the order is the other
one; the end of a turn treats both sides alike exactly where this makes no difference.
-/

namespace PetDuel

def Context.endTurnBackwards (ctx : Context) (b : Battle) : Battle :=
  (ctx.tickBuffs (ctx.tickBuffs b b.scene.opposing.id) b.scene.own.id).onScene Scene.nextTurn

/-- Two scenes with the same duelists in the same phase and weather of the same turn. -/
structure Scene.Agrees (s t : Scene) : Prop where
  own : t.own = s.own
  opposing : t.opposing = s.opposing
  phase : t.phase = s.phase
  turn : t.turn = s.turn
  acting : t.acting = s.acting
  weather : t.weather = s.weather

/-- No buff that the end of the turn takes from the fighter that is out has an effect that answers
this. -/
def Duelist.ExpiresQuietly (d : Duelist) : Prop :=
  ∀ f ∈ d.active?, ∀ x ∈ f.board.tick.2.removed, ∀ e ∈ x.template.effects,
    e.timing ≠ .buffRemoved

instance (d : Duelist) : Decidable d.ExpiresQuietly :=
  inferInstanceAs (Decidable (∀ f ∈ d.active?, ∀ x ∈ f.board.tick.2.removed,
    ∀ e ∈ x.template.effects, e.timing ≠ .buffRemoved))

def Duelist.tick (d : Duelist) : Duelist := (d.onFighter (Fighter.onBoard BuffBoard.tick)).1

variable {ctx : Context} {b : Battle} {s t u : Scene}

namespace Scene

theorem Mirrors.agrees_iff (h : t.Mirrors u) : s.Agrees t ↔ s.Mirrors u := by
  constructor
  · intro ha
    exact
      { own := h.own.trans ha.opposing
        opposing := h.opposing.trans ha.own
        phase := h.phase.trans ha.phase
        turn := h.turn.trans ha.turn
        acting := h.acting.trans ha.acting
        weather := h.weather.trans ha.weather }
  · intro hs
    exact
      { own := h.opposing.symm.trans hs.opposing
        opposing := h.own.symm.trans hs.own
        phase := h.phase.symm.trans hs.phase
        turn := h.turn.symm.trans hs.turn
        acting := h.acting.symm.trans hs.acting
        weather := h.weather.symm.trans hs.weather }

theorem alike_nextTurn (certain : Prop) :
    Step.Mirrored certain (.scene nextTurn) (.scene nextTurn) := by
  refine Battle.alike_scene (fun _ => rfl) (fun s t _ h => ?_) fun _ _ _ _ _ ho => ho
  unfold nextTurn
  rw [h.own, h.opposing, h.turn]
  exact ⟨rfl, rfl, h.phase, rfl, h.acting, h.weather⟩

end Scene

theorem Battle.alike_tick (certain : Prop) (id : DuelistId) :
    Step.Mirrored certain (.board id BuffBoard.tick) (.board id BuffBoard.tick) :=
  Battle.alike_duelist id (Duelist.onFighter_id _)

namespace Context

theorem endTurnBackwards_eq_play (b : Battle) :
    ctx.endTurnBackwards b = b.play ctx.answer [.board b.scene.opposing.id BuffBoard.tick,
      .board b.scene.own.id BuffBoard.tick, .scene Scene.nextTurn] := by
  unfold endTurnBackwards tickBuffs
  rw [Battle.play_cons, Battle.play_cons, Step.play_board ctx.answer_idle,
    Step.play_board ctx.answer_idle]
  rfl

/-- The end of a turn on the other side is the end of the turn backwards. -/
theorem endTurnBackwards_mirrors (h : b.Apart) :
    (ctx.endTurnBackwards b).Mirrors b.scene.HasActor (ctx.endTurn b.mirror) := by
  have sim := Battle.mirrors_simulation ctx b.scene.HasActor
  rw [endTurnBackwards_eq_play, endTurn_eq_play]
  refine Battle.play_alike ?_ sim.answer (Battle.mirrors_mirror h)
  exact .cons (Battle.alike_tick _ _)
    (.cons (Battle.alike_tick _ _) (.cons (Scene.alike_nextTurn _) .nil))

end Context

/-- Nothing answers what runs out quietly. -/
theorem Duelist.ExpiresQuietly.answers_eq_nil {d : Duelist} (h : d.ExpiresQuietly)
    (id : DuelistId) : (d.onFighter (Fighter.onBoard BuffBoard.tick)).2.answers id = [] := by
  unfold Duelist.onFighter
  cases hf : d.active? with
  | none => rfl
  | some f =>
    -- Counting down only takes buffs away.
    refine List.append_eq_nil_iff.mpr ⟨List.flatMap_eq_nil_iff.mpr fun x hx => ?_, rfl⟩
    refine List.map_eq_nil_iff.mpr (List.filter_eq_nil_iff.mpr fun e he htiming => ?_)
    exact h f hf x hx e he (beq_iff_eq.mp htiming)

/-- A tick that is not answered changes its duelist only. -/
theorem Step.play_tick {id : DuelistId}
    (h : ∀ d, b.scene.duelist? id = some d → d.ExpiresQuietly) :
    (Step.board id BuffBoard.tick).play ctx.answer b = b.update id Duelist.tick := by
  refine Step.play_eq_move fun id' change hasked => ?_
  unfold Step.board Step.fighter at hasked
  rw [Step.act_duelist_snd, Option.map_eq_some_iff] at hasked
  obtain ⟨d, hd, hchange⟩ := hasked
  cases hchange
  exact (h d hd).answers_eq_nil id

namespace Battle

variable (hown : b.scene.own.ExpiresQuietly) (hopposing : b.scene.opposing.ExpiresQuietly)

include hown in
theorem play_tick_own : (Step.board b.scene.own.id BuffBoard.tick).play ctx.answer b =
    b.onScene fun s => { s with own := s.own.tick } := by
  have hupdate : b.scene.update b.scene.own.id Duelist.tick =
      { b.scene with own := b.scene.own.tick } := if_pos rfl
  rw [Step.play_tick, update, onScene, hupdate]
  · rfl
  · intro d hd
    obtain rfl : b.scene.own = d := Option.some.inj ((if_pos rfl).symm.trans hd)
    exact hown

include hopposing in
/-- The tick of the opposing side finds it by number, so the two have to be apart. -/
theorem play_tick_opposing (h : b.scene.Apart) :
    (Step.board b.scene.opposing.id BuffBoard.tick).play ctx.answer b =
      b.onScene fun s => { s with opposing := s.opposing.tick } := by
  have hupdate : b.scene.update b.scene.opposing.id Duelist.tick =
      { b.scene with opposing := b.scene.opposing.tick } := (if_neg h).trans (if_pos rfl)
  rw [Step.play_tick, update, onScene, hupdate]
  · rfl
  · intro d hd
    have hfound : b.scene.duelist? b.scene.opposing.id = some b.scene.opposing :=
      (if_neg h).trans (if_pos rfl)
    obtain rfl : b.scene.opposing = d := Option.some.inj (hfound.symm.trans hd)
    exact hopposing

include hown hopposing in
/-- Where nothing answers what expires, the end of a turn changes the two duelists alone. -/
theorem endTurn_eq_ticks (h : b.scene.Apart) :
    ctx.endTurn b = b.onScene fun s =>
      Scene.nextTurn { s with own := s.own.tick, opposing := s.opposing.tick } := by
  have hid : b.scene.own.tick.id = b.scene.own.id := Duelist.onFighter_id _ _
  -- After the own side is counted down, the opposing one is found as it was before.
  let b₁ := b.onScene fun s => { s with own := s.own.tick }
  have hapart : b₁.scene.Apart := fun hsame => h (hid.symm.trans hsame)
  let next : Battle → Battle := fun b => b.onScene Scene.nextTurn
  rw [ctx.endTurn_eq_play]
  calc b.play ctx.answer b.scene.endTurnSteps
      = next ((Step.board b.scene.opposing.id BuffBoard.tick).play ctx.answer b₁) :=
        congrArg (fun c => next (Step.play ctx.answer c _)) (play_tick_own hown)
    _ = next (b₁.onScene fun s => { s with opposing := s.opposing.tick }) :=
        congrArg next (play_tick_opposing (b := b₁) hopposing hapart)

include hown hopposing in
/-- Where nothing answers what expires, the two sides are counted down in any order. -/
theorem endTurn_eq_backwards (h : b.scene.Apart) : ctx.endTurn b = ctx.endTurnBackwards b := by
  let b₂ := b.onScene fun s => { s with opposing := s.opposing.tick }
  let next : Battle → Battle := fun b => b.onScene Scene.nextTurn
  rw [endTurn_eq_ticks hown hopposing h, ctx.endTurnBackwards_eq_play]
  calc (b.onScene fun s =>
        Scene.nextTurn { s with own := s.own.tick, opposing := s.opposing.tick })
      = next (b₂.onScene fun s => { s with own := s.own.tick }) := rfl
    _ = next ((Step.board b.scene.own.id BuffBoard.tick).play ctx.answer b₂) :=
        congrArg next (play_tick_own (b := b₂) hown).symm
    _ = b.play ctx.answer [.board b.scene.opposing.id BuffBoard.tick,
          .board b.scene.own.id BuffBoard.tick, .scene Scene.nextTurn] :=
        congrArg (fun c => next (Step.play ctx.answer c _)) (play_tick_opposing hopposing h).symm

end Battle

/-- The end of a turn on the other side is the end of the turn in which the sides are counted down
in the other order. It is that of the turn itself exactly where the order makes no difference, and
so wherever nothing answers what expires. -/
theorem endTurn_mirrored_iff (ctx : Context) (h : b.Apart) :
    (ctx.endTurnBackwards b).scene.Mirrors (ctx.endTurn b.mirror).scene ∧
    ((ctx.endTurn b).scene.Mirrors (ctx.endTurn b.mirror).scene ↔
      (ctx.endTurn b).scene.Agrees (ctx.endTurnBackwards b).scene) ∧
    (b.scene.own.ExpiresQuietly → b.scene.opposing.ExpiresQuietly →
      (ctx.endTurn b).scene.Mirrors (ctx.endTurn b.mirror).scene) := by
  have hmirrors := (ctx.endTurnBackwards_mirrors h).scene
  refine ⟨hmirrors, hmirrors.agrees_iff.symm, fun hown hopposing => ?_⟩
  rw [Battle.endTurn_eq_backwards hown hopposing h.scene]
  exact hmirrors

/-- A buff that expires on either side and calls nothing leaves the two sides alike. -/
theorem endTurn_mirrored_of_plain :
    let plain : BuffTemplate := { (default : BuffTemplate) with id := 8 }
    let ctx : Context := ⟨⟨[plain], [], []⟩, {}⟩
    let f := { (default : Fighter) with board := (BuffBoard.empty.push (.new plain 1 0)).1 }
    let g := { (default : Fighter) with board := (BuffBoard.empty.push (.new plain 2 0)).1 }
    let b := Battle.new (.new ⟨1⟩ [f] 0) (.new ⟨2⟩ [g] 0)
    b.Apart ∧ b.scene.own.ExpiresQuietly ∧ b.scene.opposing.ExpiresQuietly ∧
      (ctx.endTurn b).scene.Mirrors (ctx.endTurn b.mirror).scene := by
  intro plain ctx f g b
  have hapart : b.Apart := ⟨by decide, List.forall_mem_nil _⟩
  have hown : b.scene.own.ExpiresQuietly := by decide
  have hopposing : b.scene.opposing.ExpiresQuietly := by decide
  exact ⟨hapart, hown, hopposing, (endTurn_mirrored_iff ctx hapart).2.2 hown hopposing⟩

/-- A buff that calls another one to the opponent when it expires: the called one is counted down in
the same turn when it comes to the opposing side, and not when it comes to the own side. -/
theorem endTurn_not_mirrored :
    let call := Effect.new .buffRemoved .addBuff ⟨[("who", "op"), ("id", "8"), ("turn", "1")]⟩
    let leaving : BuffTemplate := { (default : BuffTemplate) with id := 7, effects := [call] }
    let called : BuffTemplate := { (default : BuffTemplate) with id := 8 }
    let ctx : Context := ⟨⟨[leaving, called], [], []⟩, {}⟩
    let f := { (default : Fighter) with board := (BuffBoard.empty.push (.new leaving 1 0)).1 }
    let b := Battle.new (.new ⟨1⟩ [f] 0) (.new ⟨2⟩ [default] 0)
    b.Apart ∧ ¬(ctx.endTurn b).scene.Mirrors (ctx.endTurn b.mirror).scene := by
  intro call leaving called ctx f b
  refine ⟨⟨by decide, List.forall_mem_nil _⟩, fun h => ?_⟩
  let called? (d : Duelist) : Option (List Int32) :=
    d.active?.map fun f => f.board.active.map Buff.id
  have hgone : called? (ctx.endTurn b).scene.opposing = some [] := by decide +kernel
  have hthere : called? (ctx.endTurn b.mirror).scene.own = some [8] := by decide +kernel
  rw [h.own, hgone] at hthere
  cases hthere

end PetDuel
