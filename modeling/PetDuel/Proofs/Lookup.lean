import PetDuel.Deed.CarryOut

/-!
Duelists found by their numbers: what a look-up gives, and what an update of one duelist leaves of
the other. The same for the fighter that is out for a duelist.
-/

namespace PetDuel

namespace Scene

/-- The numbers of the two duelists, the player's own first, and of the one that is acting. -/
def ids (s : Scene) : DuelistId × DuelistId × DuelistId := (s.own.id, s.opposing.id, s.acting)

variable {s : Scene} {id : DuelistId} {d : Duelist}

/-- A number is that of the player's own duelist, or else that of the opposing one, or else of
nobody. Everything that goes by a number follows these three cases. -/
theorem duelist?_cases (s : Scene) (id : DuelistId) :
    (s.own.id = id ∧ s.duelist? id = some s.own ∧
      ∀ f, s.update id f = { s with own := f s.own }) ∨
    (s.own.id ≠ id ∧ s.opposing.id = id ∧ s.duelist? id = some s.opposing ∧
      ∀ f, s.update id f = { s with opposing := f s.opposing }) ∨
    (s.own.id ≠ id ∧ s.opposing.id ≠ id ∧ s.duelist? id = none ∧ ∀ f, s.update id f = s) := by
  by_cases hown : s.own.id = id
  · exact Or.inl ⟨hown, if_pos hown, fun f => if_pos hown⟩
  · by_cases hopposing : s.opposing.id = id
    · refine Or.inr (Or.inl ⟨hown, hopposing, ?_, fun f => ?_⟩)
      · rw [duelist?, if_neg hown, if_pos hopposing]
      · rw [update, if_neg hown, if_pos hopposing]
    · refine Or.inr (Or.inr ⟨hown, hopposing, ?_, fun f => ?_⟩)
      · rw [duelist?, if_neg hown, if_neg hopposing]
      · rw [update, if_neg hown, if_neg hopposing]

/-- A duelist that is found is one of the two, and an update of it sees nobody else. -/
theorem duelist?_eq_some_cases (h : s.duelist? id = some d) : d.id = id ∧
    ((s.own = d ∧ ∀ f, s.update id f = { s with own := f d }) ∨
      (s.own.id ≠ id ∧ s.opposing = d ∧ ∀ f, s.update id f = { s with opposing := f d })) := by
  rcases s.duelist?_cases id with ⟨hid, hd, hu⟩ | ⟨hne, hid, hd, hu⟩ | ⟨_, _, hd, _⟩
  · obtain rfl : s.own = d := Option.some.inj (hd.symm.trans h)
    exact ⟨hid, Or.inl ⟨rfl, hu⟩⟩
  · obtain rfl : s.opposing = d := Option.some.inj (hd.symm.trans h)
    exact ⟨hid, Or.inr ⟨hne, rfl, hu⟩⟩
  · cases hd.symm.trans h

theorem id_of_duelist? (h : s.duelist? id = some d) : d.id = id := (duelist?_eq_some_cases h).1

theorem update_of_duelist?_eq_none (h : s.duelist? id = none) (f : Duelist → Duelist) :
    s.update id f = s := by
  rcases s.duelist?_cases id with ⟨_, hd, _⟩ | ⟨_, _, hd, _⟩ | ⟨_, _, _, hu⟩
  · cases hd.symm.trans h
  · cases hd.symm.trans h
  · exact hu f

theorem update_of_duelist?_eq_some (h : s.duelist? id = some d) (f : Duelist → Duelist) :
    s.update id f = s.update id fun _ => f d := by
  rcases duelist?_eq_some_cases h with ⟨_, ⟨_, hu⟩ | ⟨_, _, hu⟩⟩
  · rw [hu, hu]
  · rw [hu, hu]

theorem update_self (h : s.duelist? id = some d) : (s.update id fun _ => d) = s := by
  rcases duelist?_eq_some_cases h with ⟨_, ⟨hown, hu⟩ | ⟨_, hopposing, hu⟩⟩
  · rw [hu, ← hown]
  · rw [hu, ← hopposing]

/-- A changed duelist is found under its number, if it keeps it. -/
theorem duelist?_update (h : s.duelist? id = some d) {f : Duelist → Duelist}
    (hf : (f d).id = d.id) : (s.update id f).duelist? id = some (f d) := by
  rcases duelist?_eq_some_cases h with ⟨hid, ⟨_, hu⟩ | ⟨hne, _, hu⟩⟩
  · rw [hu, duelist?]
    exact if_pos (hf.trans hid)
  · rw [hu, duelist?, if_neg hne]
    exact if_pos (hf.trans hid)

/-- A change of one number is not seen under another one. -/
theorem duelist?_update_of_ne {id' : DuelistId} (hne : id' ≠ id) {g : Duelist → Duelist}
    (hg : ∀ d, (g d).id = d.id) : (s.update id g).duelist? id' = s.duelist? id' := by
  rcases s.duelist?_cases id with ⟨hown, _, hu⟩ | ⟨hown, hopposing, _, hu⟩ | ⟨_, _, _, hu⟩
  · have hold : s.own.id ≠ id' := fun h => hne (h.symm.trans hown)
    have hnew : (g s.own).id ≠ id' := fun h => hold ((hg s.own).symm.trans h)
    rw [hu, duelist?, duelist?, if_neg hnew, if_neg hold]
  · have hold : s.opposing.id ≠ id' := fun h => hne (h.symm.trans hopposing)
    have hnew : (g s.opposing).id ≠ id' := fun h => hold ((hg s.opposing).symm.trans h)
    rw [hu, duelist?, duelist?, if_neg hnew, if_neg hold]
  · rw [hu]

/-- Two changes of one duelist are one. -/
theorem update_update (h : s.duelist? id = some d) {f : Duelist → Duelist}
    (hf : (f d).id = d.id) (g : Duelist → Duelist) :
    (s.update id f).update id g = s.update id fun _ => g (f d) := by
  rw [update_of_duelist?_eq_some (duelist?_update h hf)]
  rcases duelist?_eq_some_cases h with ⟨hid, ⟨_, hu⟩ | ⟨hne, _, hu⟩⟩
  · rw [hu, hu, update]
    exact if_pos (hf.trans hid)
  · rw [hu, hu, update, if_neg hne]
    exact if_pos (hf.trans hid)

theorem update_ids (h : s.duelist? id = some d) {e : Duelist} (he : e.id = d.id) :
    (s.update id fun _ => e).ids = s.ids := by
  rcases duelist?_eq_some_cases h with ⟨_, ⟨hown, hu⟩ | ⟨_, hopposing, hu⟩⟩
  · rw [hu, ids, ids, he, hown]
  · rw [hu, ids, ids, he, hopposing]

/-- Who is there depends on the numbers alone. -/
theorem isSome_duelist?_congr {t : Scene} (h : t.ids = s.ids) (id : DuelistId) :
    (t.duelist? id).isSome = (s.duelist? id).isSome := by
  have hown : t.own.id = s.own.id := congrArg Prod.fst h
  have hopposing : t.opposing.id = s.opposing.id := congrArg (fun ids => ids.2.1) h
  unfold duelist?
  rw [hown, hopposing]
  split
  · rfl
  · split <;> rfl

/-- A duelist has a rival exactly when it is one of the two. -/
theorem isSome_rival? (s : Scene) (id : DuelistId) :
    (s.rival? id).isSome = (s.duelist? id).isSome := by
  unfold rival? rivalId? duelist?
  split
  · by_cases h : s.own.id = s.opposing.id <;> simp [h]
  · split
    · simp
    · rfl

theorem active?_of_duelist? (h : s.duelist? id = some d) : s.active? id = d.active? := by
  simp only [active?, h, Option.bind_some]

end Scene

namespace Duelist

theorem active?_setActive {d : Duelist} {f : Fighter} (h : d.active? = some f) (g : Fighter) :
    (d.setActive g).active? = some g := by
  obtain ⟨hslot, _⟩ := List.getElem?_eq_some_iff.mp h
  exact List.getElem?_set_self hslot

theorem setActive_setActive (d : Duelist) (f g : Fighter) :
    (d.setActive f).setActive g = d.setActive g := by
  have hset : (d.team.fighters.set d.team.cursor f).set d.team.cursor g =
      d.team.fighters.set d.team.cursor g := List.set_set f
  simp only [setActive, Team.setActive, hset]

theorem setActive_self {d : Duelist} {f : Fighter} (h : d.active? = some f) :
    d.setActive f = d := by
  obtain ⟨hslot, hget⟩ := List.getElem?_eq_some_iff.mp h
  have hset : d.team.fighters.set d.team.cursor f = d.team.fighters := by
    rw [← hget]
    exact List.set_getElem_self hslot
  simp only [setActive, Team.setActive, hset]

end Duelist

end PetDuel
