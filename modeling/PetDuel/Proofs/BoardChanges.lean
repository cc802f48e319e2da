import Mathlib.Data.List.Forall2
import Mathlib.Logic.Relation
import PetDuel.Buff.Attribute

/-!
Boards change in three ways only. Buffs leave; buffs are written again where they stand, with the
same number and template and a value that the template admits; and a buff joins the others, past the
blocks and past the policy of its template. Every operation on a board is a chain of such changes,
and a buff that comes, or that the report of the operation names, is of a kind that is on the board
or on offer.
-/

namespace PetDuel

theorem forall₂_set {α : Type} {R : α → α → Prop} (hrefl : ∀ x, R x x) {xs : List α} {i : Nat}
    {x y : α} (hx : xs[i]? = some x) (hxy : R x y) : List.Forall₂ R xs (xs.set i y) := by
  induction xs generalizing i with
  | nil => cases hx
  | cons z zs ih =>
    cases i with
    | zero =>
      obtain rfl : z = x := Option.some.inj hx
      exact .cons hxy (List.forall₂_same.mpr fun z _ => hrefl z)
    | succ i => exact .cons (hrefl z) (ih hx)

theorem forall₂_trans {α : Type} {R : α → α → Prop} (htrans : ∀ x y z, R x y → R y z → R x z)
    {xs ys zs : List α} (h : List.Forall₂ R xs ys) (h' : List.Forall₂ R ys zs) :
    List.Forall₂ R xs zs := by
  induction h generalizing zs with
  | nil => exact h'
  | cons hxy _ ih =>
    cases h' with
    | cons hyz hrest => exact .cons (htrans _ _ _ hxy hyz) (ih hrest)

theorem forall₂_exists_of_mem {α β : Type} {R : α → β → Prop} {xs : List α} {ys : List β}
    (h : List.Forall₂ R xs ys) {y : β} (hy : y ∈ ys) : ∃ x ∈ xs, R x y := by
  induction h with
  | nil => cases hy
  | cons hxy _ ih =>
    rcases List.mem_cons.mp hy with rfl | hrest
    · exact ⟨_, List.mem_cons_self, hxy⟩
    · obtain ⟨x, hx, hxy'⟩ := ih hrest
      exact ⟨x, List.mem_cons_of_mem _ hx, hxy'⟩

structure Buff.Rewritten (x y : Buff) : Prop where
  id : y.id = x.id
  template : y.template = x.template
  value : y.value = x.value ∨ ∃ n, y.value = x.template.limit n

/-- A kind of buffs that writing a buff again does not leave. -/
def Buff.Stable (B : Buff → Prop) : Prop := ∀ x y, x.Rewritten y → B x → B y

def BuffBoard.Bears (B : Buff → Prop) (board : BuffBoard) : Prop := ∀ x ∈ board.active, B x

def BuffChange.Bears (B : Buff → Prop) (change : BuffChange) : Prop :=
  (∀ x ∈ change.added, B x) ∧ ∀ x ∈ change.removed, B x

inductive BuffBoard.Change (B : Buff → Prop) (board : BuffBoard) : BuffBoard → Prop
  | leave (bs : List Buff) (h : bs.Sublist board.active) :
    Change B board { board with active := bs }
  | rewrite (bs : List Buff) (h : List.Forall₂ Buff.Rewritten board.active bs) :
    Change B board { board with active := bs }
  | join (x : Buff) (hx : B x) (hfree : board.isBlocked x.id = false)
    (hpolicy : board.contains x.id = true → x.template.policy = .append) :
    Change B board { board with active := board.active ++ [x] }

abbrev BuffBoard.Changes (B : Buff → Prop) : BuffBoard → BuffBoard → Prop :=
  Relation.ReflTransGen (BuffBoard.Change B)

/-- What an operation on a board gives: the board after some changes, and a report of buffs of the
kind that may come. -/
structure BuffBoard.Outcome (B : Buff → Prop) (board : BuffBoard)
    (result : BuffBoard × BuffChange) : Prop where
  changes : board.Changes B result.1
  bears : result.2.Bears B

namespace Buff

theorem Rewritten.refl (x : Buff) : x.Rewritten x := ⟨rfl, rfl, Or.inl rfl⟩

theorem rewritten_setValue (x : Buff) (n : Int32) : x.Rewritten (x.setValue n) :=
  ⟨rfl, rfl, Or.inr ⟨n, rfl⟩⟩

theorem rewritten_tick (x : Buff) : x.Rewritten x.tick := by
  unfold tick
  split
  · exact ⟨rfl, rfl, Or.inl rfl⟩
  · exact .refl x

theorem rewritten_write? (x : Buff) (a : BuffAttribute) (v : Double) :
    x.Rewritten ((x.write? a v).getD x) := by
  cases a with
  | turn => exact ⟨rfl, rfl, Or.inl rfl⟩
  | value => exact x.rewritten_setValue _
  | _ => exact .refl x

end Buff

theorem CopyPolicy.rewritten_meet (p : CopyPolicy) (incoming active : Buff) :
    active.Rewritten (p.meet incoming active) := by
  cases p with
  | replace | stack => exact ⟨rfl, rfl, Or.inr ⟨_, rfl⟩⟩
  | refresh => exact ⟨rfl, rfl, Or.inl rfl⟩
  | append | refuse => exact .refl active

variable {B : Buff → Prop} {board board' : BuffBoard} {id : Int32}

theorem BuffChange.none_bears : BuffChange.none.Bears B :=
  ⟨List.forall_mem_nil _, List.forall_mem_nil _⟩

theorem BuffChange.Bears.append {change rest : BuffChange} (h : change.Bears B)
    (h' : rest.Bears B) : (change ++ rest).Bears B :=
  ⟨List.forall_mem_append.mpr ⟨h.1, h'.1⟩, List.forall_mem_append.mpr ⟨h.2, h'.2⟩⟩

namespace BuffBoard

/-- One change of a board leaves buffs of the kind. -/
theorem Change.bears (hB : Buff.Stable B) (h : board.Change B board') (hb : board.Bears B) :
    board'.Bears B := by
  cases h with
  | leave bs hsub => exact fun x hx => hb x (hsub.subset hx)
  | rewrite bs hbs =>
    intro y hy
    obtain ⟨x, hx, hrewritten⟩ := forall₂_exists_of_mem hbs hy
    exact hB x y hrewritten (hb x hx)
  | join x hx => exact List.forall_mem_append.mpr ⟨hb, List.forall_mem_singleton.mpr hx⟩

theorem Change.isBlocked (h : board.Change B board') (id : Int32) :
    board'.isBlocked id = board.isBlocked id := by
  cases h <;> rfl

theorem Changes.bears (hB : Buff.Stable B) (h : board.Changes B board') (hb : board.Bears B) :
    board'.Bears B := by
  induction h with
  | refl => exact hb
  | tail _ hlast ih => exact hlast.bears hB ih

theorem Changes.isBlocked (h : board.Changes B board') (id : Int32) :
    board'.isBlocked id = board.isBlocked id := by
  induction h with
  | refl => rfl
  | tail _ hlast ih => exact (hlast.isBlocked id).trans ih

theorem Outcome.none (B : Buff → Prop) (board : BuffBoard) : board.Outcome B (board, .none) :=
  ⟨.refl, BuffChange.none_bears⟩

theorem Outcome.append {result result' : BuffBoard × BuffChange} (h : board.Outcome B result)
    (h' : result.1.Outcome B result') : board.Outcome B (result'.1, result.2 ++ result'.2) :=
  ⟨h.changes.trans h'.changes, h.bears.append h'.bears⟩

theorem Bears.removeWhere (h : board.Bears B) (p : Buff → Bool) :
    board.Outcome B (board.removeWhere p) := by
  have hstays : (board.active.filter fun b => !p b).Sublist board.active := List.filter_sublist
  refine ⟨.single (.leave _ hstays), List.forall_mem_nil _, ?_⟩
  exact fun x hx => h x (List.mem_filter.mp hx).1

theorem Bears.remove (h : board.Bears B) (b : Buff) : board.Outcome B (board.remove b) := by
  unfold BuffBoard.remove
  split
  · rename_i hactive
    have hb : B b := h b (List.contains_iff_mem.mp hactive)
    refine ⟨.single (.leave _ List.erase_sublist), List.forall_mem_nil _, ?_⟩
    exact List.forall_mem_singleton.mpr hb
  · exact .none B board

/-- The first buff with a number either leaves, as its change has left it, or stays where it is. -/
theorem changeFirst_cases {f : Buff → Buff} (hf : ∀ x : Buff, x.Rewritten (f x))
    {bs bs' out : List Buff} (h : changeFirst id f bs = some (bs', out)) :
    (bs'.Sublist bs ∧ ∃ x ∈ bs, out = [f x]) ∨ (List.Forall₂ Buff.Rewritten bs bs' ∧ out = []) := by
  induction bs generalizing bs' with
  | nil => cases h
  | cons b bs ih =>
    unfold changeFirst at h
    split at h
    · split at h
      · cases h
        exact Or.inl ⟨List.sublist_cons_self b bs, b, List.mem_cons_self, rfl⟩
      · cases h
        exact Or.inr ⟨.cons (hf b) (List.forall₂_same.mpr fun x _ => .refl x), rfl⟩
    · obtain ⟨⟨cs, out'⟩, hrest, hpair⟩ := Option.map_eq_some_iff.mp h
      cases hpair
      rcases ih hrest with ⟨hsub, x, hx, hout⟩ | ⟨hbs, hout⟩
      · exact Or.inl ⟨hsub.cons_cons b, x, List.mem_cons_of_mem b hx, hout⟩
      · exact Or.inr ⟨.cons (.refl b) hbs, hout⟩

/-- The buff that is put through a change is written again or leaves. -/
theorem Bears.update? (hB : Buff.Stable B) (h : board.Bears B) {f : Buff → Buff}
    (hf : ∀ x : Buff, x.Rewritten (f x)) {result : BuffBoard × BuffChange}
    (hupdate : board.update? id f = some result) : board.Outcome B result := by
  obtain ⟨⟨bs, out⟩, hchange, hpair⟩ := Option.map_eq_some_iff.mp hupdate
  cases hpair
  rcases changeFirst_cases hf hchange with ⟨hsub, x, hx, rfl⟩ | ⟨hbs, rfl⟩
  · have hleft : B (f x) := hB _ _ (hf x) (h x hx)
    refine ⟨.single (.leave _ hsub), List.forall_mem_nil _, ?_⟩
    exact List.forall_mem_singleton.mpr hleft
  · exact ⟨.single (.rewrite _ hbs), BuffChange.none_bears⟩

/-- What the adding of a buff comes to: nothing, another active buff that neither a block nor its
policy turns away, or a meeting of the buff with one that is active. -/
theorem add_cases (board : BuffBoard) (b : Buff) :
    board.add b = (board, .none) ∨
      (board.add b = board.push b ∧ board.isBlocked b.id = false ∧
        (board.contains b.id = true → b.template.policy = .append)) ∨
      ∃ p : CopyPolicy, board.update? b.id (p.meet b) = some (board.add b) := by
  -- Where there is no buff to meet, a meeting does nothing.
  have hmeet (p : CopyPolicy) :
      (board.update? b.id (p.meet b)).getD (board, .none) = (board, .none) ∨
        board.update? b.id (p.meet b) =
          some ((board.update? b.id (p.meet b)).getD (board, .none)) := by
    cases board.update? b.id (p.meet b) with
    | none => exact Or.inl rfl
    | some result => exact Or.inr rfl
  unfold add
  split
  · exact Or.inl rfl
  · rename_i hblocked
    have hfree : board.isBlocked b.id = false := Bool.eq_false_iff.mpr hblocked
    split
    · rename_i hnew
      refine Or.inr (Or.inl ⟨rfl, hfree, fun hcontains => ?_⟩)
      rw [hcontains] at hnew
      cases hnew
    · split
      · rename_i hpolicy
        exact Or.inr (Or.inl ⟨rfl, hfree, fun _ => hpolicy⟩)
      · exact Or.inl rfl
      · exact (hmeet b.template.policy).imp_right fun h => Or.inr ⟨b.template.policy, h⟩

/-- Adding a buff of the kind is an append, a rewriting or nothing, by the policy of its template.
-/
theorem Bears.add (hB : Buff.Stable B) (h : board.Bears B) {b : Buff} (hb : B b) :
    board.Outcome B (board.add b) := by
  rcases board.add_cases b with hsame | ⟨hpush, hfree, hpolicy⟩ | ⟨p, hupdate⟩
  · rw [hsame]
    exact .none B board
  · rw [hpush]
    refine ⟨.single (.join b hb hfree hpolicy), ?_, List.forall_mem_nil _⟩
    exact List.forall_mem_singleton.mpr hb
  · exact h.update? hB (p.rewritten_meet b) hupdate

/-- Operations done for each item give an outcome together when each gives one. -/
theorem Bears.each {α : Type} (hB : Buff.Stable B) {step : BuffBoard → α → BuffBoard × BuffChange}
    {xs : List α}
    (hstep : ∀ x ∈ xs, ∀ board : BuffBoard, board.Bears B → board.Outcome B (step board x))
    (h : board.Bears B) : board.Outcome B (each step board xs) := by
  induction xs generalizing board with
  | nil => exact .none B board
  | cons x xs ih =>
    obtain ⟨hx, hxs⟩ := List.forall_mem_cons.mp hstep
    have hfirst := hx board h
    have hnext : (step board x).1.Bears B := hfirst.changes.bears hB h
    exact hfirst.append (ih hxs hnext)

theorem Bears.addEach (hB : Buff.Stable B) (h : board.Bears B) {bs : List Buff}
    (hbs : ∀ x ∈ bs, B x) : board.Outcome B (board.addEach bs) :=
  h.each hB fun x hx _ h => h.add hB (hbs x hx)

theorem Bears.removeEach (hB : Buff.Stable B) (h : board.Bears B) (bs : List Buff) :
    board.Outcome B (board.removeEach bs) :=
  h.each hB fun x _ _ h => h.remove x

theorem Bears.tick (hB : Buff.Stable B) (h : board.Bears B) : board.Outcome B board.tick := by
  have hcount : List.Forall₂ Buff.Rewritten board.active (board.active.map Buff.tick) := by
    refine List.forall₂_map_right_iff.mpr ?_
    exact List.forall₂_same.mpr fun x _ => x.rewritten_tick
  have hcounted : board.Change B { board with active := board.active.map Buff.tick } :=
    .rewrite _ hcount
  have hexpired := (hcounted.bears hB h).removeWhere Buff.isExpired
  exact ⟨hexpired.changes.head hcounted, hexpired.bears⟩

end BuffBoard

end PetDuel
