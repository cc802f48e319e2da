import PetDuel.Deed.CarryOut

/-!
Resolution: what happens when an effect is dispatched, when a phase is entered and when a turn
ends.

A deed may bring buffs to a fighter or take them away, and such buffs can have effects of their own
that answer the change. The answers nest, and the rules set how deep; the depth is kept in the
battle, and the recursion here is on what is left of it.
-/

namespace PetDuel

def Buff.effectsAt (b : Buff) (timing : Timing) (id : DuelistId) : List Effect :=
  (b.template.effects.filter fun e => e.timing == timing).map fun e =>
    (e.actingFor id).carriedBy (.buff b.id)

/-- The effects that answer a change: first those of the buffs that left, then those of the buffs
that came. -/
def BuffChange.answers (change : BuffChange) (id : DuelistId) : List Effect :=
  (change.removed.flatMap fun b => b.effectsAt .buffRemoved id) ++
    change.added.flatMap fun b => b.effectsAt .buffAdded id

namespace Context

/-- Reads an effect and carries out its deed. The result says whether the effect was handled. -/
def dispatchWith (ctx : Context) (answer : Answer) (e : Effect) (b : Battle) : Bool × Battle :=
  match e.decide? ctx b.now with
  | none => (false, b)
  | some deed => deed.carryOut answer ctx b

/-- Answers a change of buffs with at most so many levels of further answers. -/
def answerWithin (ctx : Context) : Nat → Answer
  | 0, _, _, b => b
  | levels + 1, id, change, b =>
    if ctx.rules.hookLimit.toNat ≤ b.depth then b
    else
      match change.answers id with
      | [] => b
      | effects =>
        let inner := effects.foldl
          (fun b e => (ctx.dispatchWith (ctx.answerWithin levels) e b).2)
          { b with depth := b.depth + 1 }
        { inner with depth := b.depth }

def answer (ctx : Context) : Answer := fun id change b =>
  ctx.answerWithin (ctx.rules.hookLimit.toNat - b.depth) id change b

def dispatch (ctx : Context) (e : Effect) (b : Battle) : Bool × Battle :=
  ctx.dispatchWith ctx.answer e b

end Context

namespace Scene

/-- The two duelists in the order in which they act; nobody when nobody is acting. -/
def inOrder (s : Scene) : List Duelist :=
  match s.rivalId? s.acting with
  | none => []
  | some rival => [s.acting, rival].filterMap s.duelist?

def skillEffects (timing : Timing) (d : Duelist) : List Effect :=
  (d.skill.effects.filter fun e => e.timing == timing).map fun e => e.actingFor d.id

def buffEffects (timing : Timing) (d : Duelist) : List Effect :=
  match d.active? with
  | none => []
  | some f => f.board.active.flatMap fun b => b.effectsAt timing d.id

/-- The effects that fire at a timing: the skill of the acting duelist, the skill of the other,
then the buffs in the same order. -/
def effectsAt (s : Scene) (timing : Timing) : List Effect :=
  s.inOrder.flatMap (skillEffects timing) ++ s.inOrder.flatMap (buffEffects timing)

end Scene

namespace Context

/-- Dispatches effects one after the other and counts those that were handled. Once the duel has
ended, only the effects of its end still run. -/
def dispatchEach (ctx : Context) (timing : Timing) : List Effect → Battle → Nat × Battle
  | [], b => (0, b)
  | e :: es, b =>
    if timing != .battleEnd && b.scene.phase == .battleEnd then (0, b)
    else
      let (handled, b) := ctx.dispatch e b
      let (n, b) := ctx.dispatchEach timing es b
      (if handled then n + 1 else n, b)

def resolve (ctx : Context) (timing : Timing) (b : Battle) : Nat × Battle :=
  let b := b.advance timing
  ctx.dispatchEach timing (b.scene.effectsAt timing) b

def tickBuffs (ctx : Context) (b : Battle) (id : DuelistId) : Battle :=
  (b.changeBoard ctx.answer id BuffBoard.tick).2

/-- Ends a turn: the buffs on both sides are counted down, the records of the turn start again, and
the turn number grows. -/
def endTurn (ctx : Context) (b : Battle) : Battle :=
  let b := ctx.tickBuffs (ctx.tickBuffs b b.scene.own.id) b.scene.opposing.id
  b.onScene fun s =>
    { s with
      own := { s.own with turn := s.own.turn.reset }
      opposing := { s.opposing with turn := s.opposing.turn.reset }
      turn := s.turn + 1 }

end Context

end PetDuel
