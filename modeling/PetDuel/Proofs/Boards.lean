import PetDuel.Proofs.BoardChanges

/-!
What an operation on a board keeps. No change gives a buff another number or another template, and
so a property of these two holds of all buffs on the board and in the report of the operation; and
an operation that is about one number leaves the values of all other numbers alone.
-/

namespace PetDuel

variable {K : Int32 → BuffTemplate → Prop} {board : BuffBoard} {b : Buff} {id : Int32}

def BuffBoard.Of (K : Int32 → BuffTemplate → Prop) (board : BuffBoard) : Prop :=
  ∀ x ∈ board.active, K x.id x.template

def BuffChange.Of (K : Int32 → BuffTemplate → Prop) (change : BuffChange) : Prop :=
  (∀ x ∈ change.added, K x.id x.template) ∧ ∀ x ∈ change.removed, K x.id x.template

theorem BuffChange.none_of : BuffChange.none.Of K :=
  ⟨List.forall_mem_nil _, List.forall_mem_nil _⟩

theorem BuffChange.Of.append {change rest : BuffChange} (h : change.Of K) (h' : rest.Of K) :
    (change ++ rest).Of K :=
  ⟨List.forall_mem_append.mpr ⟨h.1, h'.1⟩, List.forall_mem_append.mpr ⟨h.2, h'.2⟩⟩

/-- The result of a change whose buffs are all of a kind, and which leaves the blocks alone. -/
structure BuffBoard.Kept (K : Int32 → BuffTemplate → Prop) (board : BuffBoard)
    (result : BuffBoard × BuffChange) : Prop where
  active : result.1.Of K
  change : result.2.Of K
  blocked : ∀ id, result.1.isBlocked id = board.isBlocked id

namespace BuffBoard

/-- Rewriting leaves a buff its number and its template, so every kind that speaks of these alone is
stable. -/
theorem stable_kind (K : Int32 → BuffTemplate → Prop) : Buff.Stable fun x => K x.id x.template := by
  intro x y h hx
  rw [h.id, h.template]
  exact hx

/-- The changes of a board to which only buffs of a kind come keep that kind. -/
theorem Outcome.kept {result : BuffBoard × BuffChange}
    (hresult : board.Outcome (fun x => K x.id x.template) result) (h : board.Of K) :
    board.Kept K result :=
  ⟨hresult.changes.bears (stable_kind K) h, hresult.bears, hresult.changes.isBlocked⟩

theorem Of.removeWhere (h : board.Of K) (p : Buff → Bool) : board.Kept K (board.removeWhere p) :=
  (Bears.removeWhere (B := fun x => K x.id x.template) h p).kept h

theorem Of.add (h : board.Of K) (hb : K b.id b.template) : board.Kept K (board.add b) :=
  (Bears.add (stable_kind K) h hb).kept h

def valuesIn (id : Int32) (bs : List Buff) : List Int :=
  (bs.filter fun x => x.id == id).map fun x => x.value.toInt

def valuesOf (board : BuffBoard) (id : Int32) : List Int := valuesIn id board.active

theorem valuesIn_cons_self (h : b.id = id) (bs : List Buff) :
    valuesIn id (b :: bs) = b.value.toInt :: valuesIn id bs := by
  have hself : (b.id == id) = true := beq_iff_eq.mpr h
  simp only [valuesIn, List.filter_cons, hself, if_true, List.map_cons]

theorem valuesIn_cons_of_ne (h : b.id ≠ id) (bs : List Buff) :
    valuesIn id (b :: bs) = valuesIn id bs := by
  have hother : (b.id == id) = false := beq_eq_false_iff_ne.mpr h
  simp only [valuesIn, List.filter_cons, hother, Bool.false_eq_true, if_false]

theorem valuesIn_append (id : Int32) (bs cs : List Buff) :
    valuesIn id (bs ++ cs) = valuesIn id bs ++ valuesIn id cs := by
  rw [valuesIn, List.filter_append, List.map_append, valuesIn, valuesIn]

theorem valuesIn_eq_nil_iff {bs : List Buff} : valuesIn id bs = [] ↔ ∀ x ∈ bs, x.id ≠ id := by
  simp only [valuesIn, List.map_eq_nil_iff, List.filter_eq_nil_iff, beq_iff_eq, ne_eq]

theorem valuesOf_push_of_ne (h : b.id ≠ id) : (board.push b).1.valuesOf id = board.valuesOf id := by
  change valuesIn id (board.active ++ [b]) = valuesIn id board.active
  rw [valuesIn_append, valuesIn_cons_of_ne h]
  exact List.append_nil _

theorem valuesOf_push_self (board : BuffBoard) (b : Buff) :
    (board.push b).1.valuesOf b.id = board.valuesOf b.id ++ [b.value.toInt] := by
  change valuesIn b.id (board.active ++ [b]) = _
  rw [valuesIn_append, valuesIn_cons_self rfl]
  rfl

/-- A removal that spares the buffs with a number leaves their values. -/
theorem valuesOf_removeWhere_of_spared {p : Buff → Bool}
    (h : ∀ x ∈ board.active, x.id = id → p x = false) :
    (board.removeWhere p).1.valuesOf id = board.valuesOf id := by
  have hfilter : (board.active.filter fun x => !p x).filter (fun x => x.id == id) =
      board.active.filter fun x => x.id == id := by
    rw [List.filter_filter]
    refine List.filter_congr fun x hx => ?_
    by_cases hid : x.id = id
    · rw [h x hx hid, Bool.not_false, Bool.and_true]
    · rw [beq_eq_false_iff_ne.mpr hid, Bool.false_and]
  exact congrArg (List.map fun x => x.value.toInt) hfilter

/-- A removal of all buffs with a number leaves no values of it. -/
theorem valuesOf_removeWhere_of_swept {p : Buff → Bool}
    (h : ∀ x ∈ board.active, x.id = id → p x = true) :
    (board.removeWhere p).1.valuesOf id = [] := by
  refine valuesIn_eq_nil_iff.mpr fun x hx hid => ?_
  obtain ⟨hactive, hspared⟩ := List.mem_filter.mp hx
  rw [h x hactive hid] at hspared
  cases hspared

theorem valuesOf_removeId (board : BuffBoard) (id id' : Int32) :
    (board.removeId id').1.valuesOf id = if id = id' then [] else board.valuesOf id := by
  split
  · rename_i h
    exact valuesOf_removeWhere_of_swept fun x _ hx => beq_iff_eq.mpr (hx.trans h)
  · rename_i h
    exact valuesOf_removeWhere_of_spared fun x _ hx => beq_eq_false_iff_ne.mpr (hx ▸ h)

/-- Removing several numbers takes their values, in whatever order they are listed. -/
theorem valuesOf_each_removeId (board : BuffBoard) (ids : List Int32) (id : Int32) :
    (each removeId board ids).1.valuesOf id = if id ∈ ids then [] else board.valuesOf id := by
  induction ids generalizing board with
  | nil => rfl
  | cons n ids ih =>
    change (each removeId (board.removeId n).1 ids).1.valuesOf id = _
    rw [ih, valuesOf_removeId]
    by_cases hn : id = n
    · rw [if_pos hn, if_pos (List.mem_cons.mpr (Or.inl hn)), ite_self]
    · rw [if_neg hn]
      simp only [List.mem_cons, hn, false_or]

/-- Removing one buff leaves the values of the other numbers. -/
theorem valuesOf_remove_of_ne (h : b.id ≠ id) :
    (board.remove b).1.valuesOf id = board.valuesOf id := by
  unfold remove
  split
  -- The buff is none of those with the number, so that these are the same without it.
  · have hout : b ∉ board.active.filter fun x => x.id == id := fun hb =>
      h (beq_iff_eq.mp (List.mem_filter.mp hb).2)
    have hfilter : (board.active.erase b).filter (fun x => x.id == id) =
        board.active.filter fun x => x.id == id := by
      rw [← List.erase_filter, List.erase_of_not_mem hout]
    exact congrArg (List.map fun x => x.value.toInt) hfilter
  · rfl

theorem valuesOf_removeEach_of_ne {bs : List Buff} (h : ∀ x ∈ bs, x.id ≠ id) :
    (board.removeEach bs).1.valuesOf id = board.valuesOf id := by
  induction bs generalizing board with
  | nil => rfl
  | cons b bs ih =>
    obtain ⟨hb, hbs⟩ := List.forall_mem_cons.mp h
    exact (ih hbs).trans (valuesOf_remove_of_ne hb)

/-- A change of the first buff with a number leaves the values of the other numbers, also when that
buff leaves. -/
theorem valuesIn_changeFirst_of_ne {n : Int32} {f : Buff → Buff} (hf : ∀ x, (f x).id = x.id)
    (h : n ≠ id) {bs bs' out : List Buff} (hchange : changeFirst n f bs = some (bs', out)) :
    valuesIn id bs' = valuesIn id bs := by
  induction bs generalizing bs' with
  | nil => cases hchange
  | cons b bs ih =>
    unfold changeFirst at hchange
    split at hchange
    · rename_i hb
      have hother : b.id ≠ id := hb ▸ h
      split at hchange
      · cases hchange
        rw [valuesIn_cons_of_ne hother]
      · cases hchange
        rw [valuesIn_cons_of_ne hother, valuesIn_cons_of_ne ((hf b).symm ▸ hother)]
    · obtain ⟨⟨cs, out'⟩, hrest, hpair⟩ := Option.map_eq_some_iff.mp hchange
      cases hpair
      -- The buff in front is not the one that changes, whether its value counts or not.
      by_cases hid : b.id = id
      · rw [valuesIn_cons_self hid, valuesIn_cons_self hid, ih hrest]
      · rw [valuesIn_cons_of_ne hid, valuesIn_cons_of_ne hid, ih hrest]

theorem valuesOf_update?_of_ne {n : Int32} {f : Buff → Buff} (hf : ∀ x, (f x).id = x.id)
    (h : n ≠ id) {result : BuffBoard × BuffChange} (hupdate : board.update? n f = some result) :
    result.1.valuesOf id = board.valuesOf id := by
  obtain ⟨⟨bs, out⟩, hchange, hpair⟩ := Option.map_eq_some_iff.mp hupdate
  cases hpair
  exact valuesIn_changeFirst_of_ne hf h hchange

theorem valuesOf_add_of_ne (h : b.id ≠ id) : (board.add b).1.valuesOf id = board.valuesOf id := by
  rcases board.add_cases b with hsame | ⟨hpush, _⟩ | ⟨p, hupdate⟩
  · rw [hsame]
  · rw [hpush]
    exact valuesOf_push_of_ne h
  · exact valuesOf_update?_of_ne (fun x => (p.rewritten_meet b x).id) h hupdate

/-- A number that no active buff has cannot be updated. -/
theorem update?_of_valuesOf_nil (h : board.valuesOf id = []) (f : Buff → Buff) :
    board.update? id f = none ∧ board.contains id = false := by
  have hnone := valuesIn_eq_nil_iff.mp h
  have hchange (bs : List Buff) (hbs : ∀ x ∈ bs, x.id ≠ id) : changeFirst id f bs = none := by
    induction bs with
    | nil => rfl
    | cons b bs ih =>
      obtain ⟨hb, hbs⟩ := List.forall_mem_cons.mp hbs
      rw [changeFirst, if_neg hb, ih hbs, Option.map_none]
  constructor
  · rw [update?, hchange _ hnone, Option.map_none]
  · exact List.any_eq_false.mpr fun x hx hid => hnone x hx (beq_iff_eq.mp hid)

/-- The update of the only buff with a number shows in the value of that number. -/
theorem valuesOf_update?_of_single {f : Buff → Buff} (hf : ∀ x, (f x).id = x.id) {w v : Int}
    (h : board.valuesOf id = [w])
    (hvalue : ∀ x ∈ board.active, x.id = id → (f x).value.toInt = v ∧ (f x).isSpent = false) :
    ∃ result, board.update? id f = some result ∧ result.1.valuesOf id = [v] := by
  -- By induction on the buffs: those before the one with the number stay as they are.
  have hchange (bs : List Buff)
      (hvalue : ∀ x ∈ bs, x.id = id → (f x).value.toInt = v ∧ (f x).isSpent = false)
      (h : valuesIn id bs = [w]) :
      ∃ bs', changeFirst id f bs = some (bs', []) ∧ valuesIn id bs' = [v] := by
    induction bs with
    | nil => cases h
    | cons b bs ih =>
      obtain ⟨hb, hbs⟩ := List.forall_mem_cons.mp hvalue
      by_cases hid : b.id = id
      · obtain ⟨hv, hstays⟩ := hb hid
        rw [valuesIn_cons_self hid] at h
        refine ⟨f b :: bs, ?_, ?_⟩
        · rw [changeFirst, if_pos hid, hstays]
          rfl
        · rw [valuesIn_cons_self ((hf b).trans hid), hv, (List.cons.inj h).2]
      · rw [valuesIn_cons_of_ne hid] at h
        obtain ⟨cs, hcs, hvalues⟩ := ih hbs h
        refine ⟨b :: cs, ?_, ?_⟩
        · rw [changeFirst, if_neg hid, hcs, Option.map_some]
        · rw [valuesIn_cons_of_ne hid, hvalues]
  obtain ⟨bs, hbs, hvalues⟩ := hchange board.active hvalue h
  refine ⟨({ board with active := bs }, { removed := [] }), ?_, hvalues⟩
  rw [update?, hbs, Option.map_some]

end BuffBoard

end PetDuel
