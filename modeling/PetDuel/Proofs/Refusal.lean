import PetDuel.Deed.Outside
import PetDuel.Proofs.Handled
import PetDuel.Proofs.Readings

/-!
Refused effects leave no trace. The deed that an effect is read as does not stop half-way, because
it names only duelists that are there; the one exception, a buff for a duelist without a fighter,
stops before anything is changed.
-/

namespace PetDuel

namespace Deed

theorem isSome_duelist?_of_active? {s : Scene} {id : DuelistId} (h : (s.active? id).isSome) :
    (s.duelist? id).isSome := by
  cases hd : s.duelist? id with
  | none =>
    rw [Scene.active?, hd] at h
    cases h
  | some d => rfl

/-- Only the adding of a buff can still find nobody to carry it out on. -/
theorem possible_of_aimed {a : Ability} {s : Scene} {deed : Deed} (h : deed.Aimed a s) :
    deed.possible s = true ∨ ∃ id x, deed = .addBuff id x := by
  cases deed with
  | addBuff id x => exact Or.inr ⟨id, x, rfl⟩
  | switchPet id => exact Or.inl (isSome_duelist?_of_active? h)
  | capture | raiseStages | setBuff | setPet => exact Or.inl h
  | _ => exact Or.inl rfl

end Deed

/-- An effect that is not handled leaves everything as it was, in a duel with all its nested
answers as well as on a pet outside one. -/
theorem refused_changes_nothing (ctx : Context) (e : Effect) :
    (∀ b, (ctx.dispatch e b).1 = false → (ctx.dispatch e b).2 = b) ∧
      ∀ p, (e.dispatchOutside p).1 = false → (e.dispatchOutside p).2 = p := by
  refine ⟨fun b h => ?_, fun p h => ?_⟩
  · cases hdecide : e.decide? ctx b.now with
    | none => rw [Context.dispatch_of_decide?_eq_none hdecide]
    | some deed =>
      -- What was decided on was impossible, and only one kind of deed can be.
      have hfst := ctx.dispatch_fst e b
      rw [h, hdecide] at hfst
      rcases Deed.possible_of_aimed (Effect.aimed_of_decide? hdecide) with hpossible | ⟨id, x, rfl⟩
      · cases hfst.trans hpossible
      · -- Nobody is out to take the buff.
        have hactive : b.scene.active? id = none :=
          Option.isNone_iff_eq_none.mp (Option.isSome_eq_false_iff.mp hfst.symm)
        rw [Context.dispatch_of_decide?_eq_some hdecide]
        exact congrArg Prod.snd (Battle.changeActive_of_active?_eq_none hactive _)
  · unfold Effect.dispatchOutside at h ⊢
    dsimp only at h ⊢
    split at h
    · cases h
    · rfl

/-- A raise of the attack by the word `x` is refused, with a fighter out on either side as well as
outside a duel. -/
theorem unreadable_raise_changes_nothing :
    let ctx : Context := ⟨.empty, {}⟩
    let e := (Effect.new .attack .raiseStages ⟨[(StageChannel.attack.name, "x")]⟩).actingFor ⟨1⟩
    let b := Battle.new (.new ⟨1⟩ [default] 0) (.new ⟨2⟩ [default] 0)
    ((ctx.dispatch e b).1 = false ∧ (ctx.dispatch e b).2 = b) ∧
      (e.dispatchOutside default).1 = false ∧ (e.dispatchOutside default).2 = default := by
  intro ctx e b
  have hbattle : (ctx.dispatch e b).1 = false := by decide
  have houtside : (e.dispatchOutside default).1 = false := by decide
  exact ⟨⟨hbattle, (refused_changes_nothing ctx e).1 b hbattle⟩, houtside,
    (refused_changes_nothing ctx e).2 default houtside⟩

end PetDuel
