import PetDuel.Proofs.Escapes
import PetDuel.Proofs.Instances

/-!
What an effect reads of the buff that carries it. An effect knows its buff by number only, and a
number is looked up among the active buffs in the order in which they came. Under the policy that
lets a second buff with the same number join, the effects of both read the first.
-/

namespace PetDuel

namespace Operand.Scope

/-- The name of an attribute of a buff is one token after `source.`, and is looked up at the
carrier. -/
theorem value?_source (c : Scope) {name : String} {a : BuffAttribute}
    (h : BuffAttribute.ofName? name = some a) :
    c.value? ("source." ++ name) = c.carrierPath? name := by
  have hname {s : String} (htokens : (tokens? ("source." ++ s)).bind ofTokens? =
      some (.name ("source." ++ s))) (hlast : Text.after? "last." ("source." ++ s) = none)
      (hstate : Text.after? "state." ("source." ++ s) = none)
      (hsource : Text.after? "source." ("source." ++ s) = some s) :
      c.value? ("source." ++ s) = c.carrierPath? s := by
    rw [value?, htokens, Option.bind_some, Expr.value?, resolve?, hlast, hstate, hsource]
  unfold BuffAttribute.ofName? at h
  -- Each of the nine names is read on its own.
  split at h
  case h_10 => cases h
  all_goals
    exact hname (by decide +kernel) (by decide +kernel) (by decide +kernel) (by decide +kernel)

/-- The two sides of a scope are found by their numbers, the first one first. -/
theorem invoker?_of_side {c : Scope} {d : Duelist} (hinvoker : c.effect.invoker = some d.id)
    (hside : c.own = d ∨ c.own.id ≠ d.id ∧ c.rival = d) : c.invoker? = some d := by
  rw [invoker?, hinvoker, Option.bind_some]
  obtain rfl | ⟨hne, rfl⟩ := hside
  · exact List.find?_cons_of_pos (beq_self_eq_true _)
  · rw [List.find?_cons_of_neg (by rw [beq_iff_eq]; exact hne)]
    exact List.find?_cons_of_pos (beq_self_eq_true _)

end Operand.Scope

/-- An effect knows the number of the buff it comes from, but not which buff with that number it is.
-/
theorem Buff.of_mem_effectsAt {x : Buff} {timing : Timing} {id : DuelistId} {e : Effect}
    (h : e ∈ x.effectsAt timing id) : e.invoker = some id ∧ e.carrier = .buff x.id := by
  obtain ⟨e', _, rfl⟩ := List.mem_map.mp h
  exact ⟨rfl, rfl⟩

namespace BuffBoard

variable {board : BuffBoard} {x : Buff}

/-- The number of an active buff always leads to some active buff. -/
theorem exists_find?_of_mem (h : x ∈ board.active) : ∃ first, board.find? x.id = some first :=
  Option.isSome_iff_exists.mp
    (List.find?_isSome.mpr ⟨x, h, beq_self_eq_true x.id⟩)

/-- A buff that has its number to itself is found by it. -/
theorem find?_of_instances_eq_one (h : x ∈ board.active) (hone : board.instances x.id = 1) :
    board.find? x.id = some x := by
  obtain ⟨first, hfind⟩ := exists_find?_of_mem h
  rw [instances, List.countP_eq_length_filter, List.length_eq_one_iff] at hone
  obtain ⟨y, hy⟩ := hone
  have hx : x ∈ board.active.filter fun z => z.id == x.id :=
    List.mem_filter.mpr ⟨h, beq_self_eq_true x.id⟩
  have hid := List.find?_some hfind
  have hfirst : first ∈ board.active.filter fun z => z.id == x.id :=
    List.mem_filter.mpr ⟨List.mem_of_find?_eq_some hfind, hid⟩
  -- Both the buff and the first one found are among the buffs with the number, of which one exists.
  rw [hy, List.mem_singleton] at hx hfirst
  rw [hfind, hfirst, hx]

end BuffBoard

theorem Scene.mem_effectsAt_of_carried {s : Scene} {timing : Timing} {d : Duelist} {f : Fighter}
    {x : Buff} {e : Effect} (hd : d ∈ s.inOrder) (hf : d.active? = some f)
    (hx : x ∈ f.board.active) (he : e ∈ x.effectsAt timing d.id) : e ∈ s.effectsAt timing := by
  refine List.mem_append_right _ (List.mem_flatMap.mpr ⟨d, hd, ?_⟩)
  rw [buffEffects, hf]
  exact List.mem_flatMap.mpr ⟨x, hx, he⟩

/-- An effect of an active buff that is collected at a timing reads the attributes of the first
active buff with the number of its own: these are its own just when the two have the attribute in
common, as when no other active buff has the number. -/
theorem carried_reads_first {s : Scene} {timing : Timing} {d : Duelist} {f : Fighter} {x : Buff}
    {e : Effect} (hd : d ∈ s.inOrder) (hf : d.active? = some f) (hx : x ∈ f.board.active)
    (he : e ∈ x.effectsAt timing d.id) :
    e ∈ s.effectsAt timing ∧ ∃ first, f.board.find? x.id = some first ∧
      (f.board.instances x.id = 1 → first = x) ∧
      ∀ c : Operand.Scope, c.effect = e → (c.own = d ∨ c.own.id ≠ d.id ∧ c.rival = d) →
        ∀ name a, BuffAttribute.ofName? name = some a →
          c.value? ("source." ++ name) = some (first.read a) ∧
          (c.value? ("source." ++ name) = some (x.read a) ↔ first.read a = x.read a) := by
  obtain ⟨hinvoker, hcarrier⟩ := Buff.of_mem_effectsAt he
  obtain ⟨first, hfind⟩ := BuffBoard.exists_find?_of_mem hx
  refine ⟨s.mem_effectsAt_of_carried hd hf hx he, first, hfind, fun hone => ?_,
    fun c hc hside name a hname => ?_⟩
  · rw [BuffBoard.find?_of_instances_eq_one hx hone] at hfind
    exact (Option.some.inj hfind).symm
  · -- The path leads from the scope to the fighter, and there on by the number alone.
    have hread : c.value? ("source." ++ name) = some (first.read a) := by
      rw [← hc] at hinvoker hcarrier
      rw [c.value?_source hname, Operand.Scope.carrierPath?,
        Operand.Scope.invoker?_of_side hinvoker hside, Option.bind_some, hcarrier, hf]
      dsimp only
      rw [Option.bind_some, hfind, Option.bind_some, Buff.readName?, hname, Option.map_some]
    refine ⟨hread, ?_⟩
    rw [hread, Option.some_inj]

def Buff.twin (id value : Int32) : Buff :=
  .new { (default : BuffTemplate) with
    id, policy := .append, maxValue := 9
    effects := [.new .attack .heal ⟨[("set", "source.value")]⟩] } 3 value

/-- Of three buffs the one that has its number to itself is read as it is. -/
theorem lone_buff_reads_itself :
    let f := Fighter.new { Pet.ofTenHp with entryBuffs := [.twin 7 1, .twin 7 2, .twin 8 3] } {}
    let d := Duelist.new ⟨1⟩ [f] 0
    let s := Scene.opening d (.new ⟨2⟩ [] 0)
    let x := Buff.twin 8 3
    let e := ((Effect.new .attack .heal ⟨[("set", "source.value")]⟩).actingFor ⟨1⟩).carriedBy
      (.buff 8)
    d ∈ s.inOrder ∧ d.active? = some f ∧ x ∈ f.board.active ∧ e ∈ x.effectsAt .attack d.id ∧
      f.board.instances 8 = 1 ∧ e ∈ s.effectsAt .attack ∧
      (Operand.Scope.mk e d s.opposing none).value? "source.value" = some (Double.ofInt 3) := by
  intro f d s x e
  have hd : d ∈ s.inOrder := by decide +kernel
  have hf : d.active? = some f := rfl
  have hx : x ∈ f.board.active := by decide +kernel
  have he : e ∈ x.effectsAt .attack d.id := by decide +kernel
  have hone : f.board.instances 8 = 1 := by decide +kernel
  obtain ⟨hcollected, first, _, halone, hread⟩ := carried_reads_first hd hf hx he
  obtain rfl : first = x := halone hone
  have hvalue := (hread ⟨e, d, s.opposing, none⟩ rfl (.inl rfl) "value" .value rfl).1
  exact ⟨hd, hf, hx, he, hone, hcollected, hvalue⟩

/-- The second of two buffs with one number carries an effect that is collected and reads the value
of the first. -/
theorem second_twin_reads_first :
    let f := Fighter.new { Pet.ofTenHp with entryBuffs := [.twin 7 1, .twin 7 2] } {}
    let d := Duelist.new ⟨1⟩ [f] 0
    let s := Scene.opening d (.new ⟨2⟩ [] 0)
    let x := Buff.twin 7 2
    let e := ((Effect.new .attack .heal ⟨[("set", "source.value")]⟩).actingFor ⟨1⟩).carriedBy
      (.buff 7)
    d ∈ s.inOrder ∧ d.active? = some f ∧ x ∈ f.board.active ∧ e ∈ x.effectsAt .attack d.id ∧
      x.read .value = Double.ofInt 2 ∧
      (Operand.Scope.mk e d s.opposing none).value? "source.value" = some (Double.ofInt 1) ∧
      (Operand.Scope.mk e s.opposing d none).value? "source.value" = some (Double.ofInt 1) := by
  decide +kernel

end PetDuel
