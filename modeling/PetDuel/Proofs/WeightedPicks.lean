import Mathlib.Algebra.Order.BigOperators.Group.List
import Mathlib.Algebra.Order.Field.Rat
import PetDuel.Random.Weighted

/-!
Choices by weight, computed exactly. The weights divide the numbers up to their sum into pieces, and
the entry is chosen whose piece the threshold falls into. The end of a piece belongs to it and its
start does not; so the threshold 0 falls before all pieces, and the first entry takes it whatever
its weight is.
-/

namespace PetDuel.Random

open Number

def choice? {α : Type} [Arithmetic α] (weights : List α) (draw : α → α) : Option Nat :=
  (drawableTotal? weights).map fun total => pickAt weights (draw total)

/-- A stream draws the threshold and leaves the rest to the weights. -/
theorem Stream.weighted_fst (r : Stream) (weights : List Double) :
    (r.weighted weights).1 = choice? weights fun total => (r.below total).1 := by
  unfold weighted choice?
  cases drawableTotal? weights with
  | none => rfl
  | some total => rfl

section Exact

variable {K : Type} [Field K] [LinearOrder K]

/-- Exact arithmetic, in any ordered field. -/
@[reducible] def exactly (K : Type) [Field K] [LinearOrder K] : Arithmetic K where
  whole n := n
  atMost x y := decide (x ≤ y)
  finite _ := true

attribute [local instance] exactly

variable {weights : List K} {w t : K} {i : Nat}

theorem atMost_eq_true_iff {x y : K} : Arithmetic.atMost x y = true ↔ x ≤ y := decide_eq_true_iff

theorem sum_eq_list_sum (xs : List K) : sum xs = xs.sum := by
  have hzero : (Arithmetic.whole 0 : K) = 0 := Int.cast_zero
  rw [sum, hzero, List.sum_eq_foldl]

/-- Such an entry is the first one up to which the weights add up to the threshold. -/
structure FirstCovering (weights : List K) (t : K) (i : Nat) : Prop where
  inside : i < weights.length
  covers : t ≤ (weights.take (i + 1)).sum
  first : ∀ j < i, (weights.take (j + 1)).sum < t

/-- A threshold is covered by the first weight or, what is left of it, by one further on. -/
theorem covering?_cons (w : K) (weights : List K) (t : K) : covering? (w :: weights) t =
    if t ≤ w then some 0 else (covering? weights (t - w)).map (· + 1) := by
  simp only [covering?, atMost_eq_true_iff]

theorem sum_take_succ_cons (w : K) (weights : List K) (n : Nat) :
    ((w :: weights).take (n + 1)).sum = w + (weights.take n).sum := by
  rw [List.take_succ_cons, List.sum_cons]

/-- Weights with a positive sum can be drawn from. -/
theorem drawableTotal?_of_pos (hweights : ∀ w ∈ weights, 0 ≤ w) (hsum : 0 < weights.sum) :
    drawableTotal? weights = some weights.sum := by
  have hzero : (Arithmetic.whole 0 : K) = 0 := Int.cast_zero
  have hallowed : weightsAllowed weights = true := by
    apply List.all_eq_true.mpr
    intro w hw
    rw [hzero, Bool.and_eq_true, atMost_eq_true_iff]
    exact ⟨rfl, hweights w hw⟩
  have hsome : weights.isEmpty = false := by
    apply List.isEmpty_eq_false_iff.mpr
    rintro rfl
    exact lt_irrefl 0 hsum
  have hpositive : Arithmetic.atMost weights.sum 0 = false := decide_eq_false (not_le.mpr hsum)
  unfold drawableTotal?
  dsimp only
  rw [sum_eq_list_sum, hallowed, hsome, hzero, hpositive]
  rfl

variable [IsStrictOrderedRing K]

/-- An entry behind the first one covers a threshold when, without the first one, it covers what is
left of the threshold. -/
theorem firstCovering_succ_iff :
    FirstCovering (w :: weights) t (i + 1) ↔ w < t ∧ FirstCovering weights (t - w) i := by
  constructor
  · intro h
    refine ⟨by simpa using h.first 0 (Nat.succ_pos i), ?_, ?_, fun j hj => ?_⟩
    · exact Nat.lt_of_succ_lt_succ h.inside
    · have hcovers := h.covers
      rw [sum_take_succ_cons] at hcovers
      exact sub_le_iff_le_add'.mpr hcovers
    · have hfirst := h.first (j + 1) (Nat.succ_lt_succ hj)
      rw [sum_take_succ_cons] at hfirst
      exact lt_sub_iff_add_lt'.mpr hfirst
  · rintro ⟨hw, h⟩
    refine ⟨Nat.succ_lt_succ h.inside, ?_, fun j hj => ?_⟩
    · rw [sum_take_succ_cons]
      exact sub_le_iff_le_add'.mp h.covers
    · rw [sum_take_succ_cons]
      cases j with
      | zero => simpa using hw
      | succ j => exact lt_sub_iff_add_lt'.mp (h.first j (Nat.lt_of_succ_lt_succ hj))

/-- The loop over the weights finds the first covering entry and no other. -/
theorem covering?_eq_some_iff : covering? weights t = some i ↔ FirstCovering weights t i := by
  induction weights generalizing t i with
  | nil => exact iff_of_false nofun fun h => absurd h.inside (Nat.not_lt_zero i)
  | cons w weights ih =>
    rw [covering?_cons]
    by_cases hw : t ≤ w
    · rw [if_pos hw]
      have hzero : FirstCovering (w :: weights) t 0 :=
        ⟨Nat.succ_pos _, by simpa using hw, fun j hj => absurd hj (Nat.not_lt_zero j)⟩
      cases i with
      | zero => exact iff_of_true rfl hzero
      | succ i => exact iff_of_false nofun fun h => not_lt.mpr hw (firstCovering_succ_iff.mp h).1
    · rw [if_neg hw]
      cases i with
      | zero =>
        have hnot : ¬FirstCovering (w :: weights) t 0 := fun h => hw (by simpa using h.covers)
        exact iff_of_false (by simp) hnot
      | succ i =>
        rw [firstCovering_succ_iff, ← ih]
        simp [not_le.mp hw]

/-- A threshold below the sum of the weights is covered, so there is no fall back on the last
entry. -/
theorem exists_firstCovering (hlow : 0 ≤ t) (hhigh : t < weights.sum) :
    ∃ i, FirstCovering weights t i := by
  induction weights generalizing t with
  | nil => exact absurd hlow (not_le.mpr hhigh)
  | cons w weights ih =>
    by_cases hw : t ≤ w
    · exact ⟨0, Nat.succ_pos _, by simpa using hw, fun j hj => absurd hj (Nat.not_lt_zero j)⟩
    · have hleft : w < t := not_le.mp hw
      rw [List.sum_cons] at hhigh
      obtain ⟨i, hi⟩ := ih (sub_nonneg.mpr hleft.le) (sub_lt_iff_lt_add'.mpr hhigh)
      exact ⟨i + 1, firstCovering_succ_iff.mpr ⟨hleft, hi⟩⟩

/-- What is left of the threshold before an entry is covered by the weight of the entry, and behind
the first entry something is left. -/
theorem FirstCovering.weight_pos_iff (h : FirstCovering weights t i) (hi : i < weights.length)
    (hweights : ∀ w ∈ weights, 0 ≤ w) (hlow : 0 ≤ t) :
    0 < weights[i] ↔ ¬(t = 0 ∧ weights.head? = some 0) := by
  cases weights with
  | nil => exact absurd hi (Nat.not_lt_zero i)
  | cons w weights =>
    have hw : 0 ≤ w := hweights w List.mem_cons_self
    cases i with
    | zero =>
      have hcovers : t ≤ w := by simpa using h.covers
      rw [List.getElem_cons_zero, List.head?_cons, Option.some_inj]
      constructor
      · rintro hpos ⟨_, hzero⟩
        exact hpos.ne' hzero
      · intro hnot
        apply hw.lt_of_ne'
        intro hzero
        exact hnot ⟨le_antisymm (hzero ▸ hcovers) hlow, hzero⟩
    | succ i =>
      have hbefore : ((w :: weights).take (i + 1)).sum < t := h.first i (Nat.lt_succ_self i)
      -- A later place is reached past the sum before it, which the weight has to make up for.
      have hpositive : 0 < (w :: weights)[i + 1] := by
        have hcovers := h.covers
        rw [List.sum_take_succ _ _ hi] at hcovers
        exact pos_of_lt_add_right (hbefore.trans_le hcovers)
      have hsum : 0 ≤ ((w :: weights).take (i + 1)).sum :=
        List.sum_nonneg fun x hx => hweights x (List.mem_of_mem_take hx)
      exact iff_of_true hpositive fun hzero => (hsum.trans_lt hbefore).ne' hzero.1

/-- A choice by weight is the first entry that covers the threshold, and this entry can be chosen
at all, that is, its weight is positive, unless the threshold is 0 and the first weight is 0 too. -/
theorem choice_possible_iff {K : Type} [Field K] [LinearOrder K] [IsStrictOrderedRing K]
    (weights : List K) (draw : K → K) (hweights : ∀ w ∈ weights, 0 ≤ w) (hsum : 0 < weights.sum)
    (hlow : 0 ≤ draw weights.sum) (hhigh : draw weights.sum < weights.sum) :
    (∀ (r : Stream) (ws : List Double),
      (r.weighted ws).1 = choice? ws fun total => (r.below total).1) ∧
    ∃ (i : Nat) (h : i < weights.length), choice? weights draw = some i ∧
      covering? weights (draw weights.sum) = some i ∧
      draw weights.sum ≤ (weights.take (i + 1)).sum ∧
      (∀ j < i, (weights.take (j + 1)).sum < draw weights.sum) ∧
      (0 < weights[i] ↔ ¬(draw weights.sum = 0 ∧ weights.head? = some 0)) := by
  refine ⟨Stream.weighted_fst, ?_⟩
  obtain ⟨i, hi⟩ := exists_firstCovering hlow hhigh
  have hcovering : covering? weights (draw weights.sum) = some i := covering?_eq_some_iff.mpr hi
  have hchoice : choice? weights draw = some i := by
    rw [choice?, drawableTotal?_of_pos hweights hsum, Option.map_some, pickAt, hcovering,
      Option.getD_some]
  exact ⟨i, hi.inside, hchoice, hcovering, hi.covers, hi.first,
    hi.weight_pos_iff hi.inside hweights hlow⟩

/-- A threshold at the end of a piece chooses the entry of this piece, behind an entry and before
another one that have no weight. -/
theorem choice_at_end_of_piece :
    let weights : List ℚ := [0, 3, 0, 2]
    (∀ w ∈ weights, 0 ≤ w) ∧ 0 < weights.sum ∧ (0 : ℚ) ≤ 3 ∧ 3 < weights.sum ∧
      choice? weights (fun _ => 3) = some 1 ∧
      ∃ i, ∃ h : i < weights.length, choice? weights (fun _ => 3) = some i ∧ 0 < weights[i] := by
  intro weights
  have hweights : ∀ w ∈ weights, 0 ≤ w := by decide +kernel
  have hsum : 0 < weights.sum := by decide +kernel
  have hlow : (0 : ℚ) ≤ 3 := by decide +kernel
  have hhigh : 3 < weights.sum := by decide +kernel
  obtain ⟨_, i, h, hchoice, _, _, _, hpossible⟩ :=
    choice_possible_iff weights (fun _ => 3) hweights hsum hlow hhigh
  have hpositive : 0 < weights[i] := by
    apply hpossible.mpr
    rintro ⟨hzero, _⟩
    exact absurd hzero (by decide +kernel)
  exact ⟨hweights, hsum, hlow, hhigh, by decide +kernel, i, h, hchoice, hpositive⟩

/-- The threshold 0 chooses a first entry without weight, although another entry has all of it. A
stream draws this threshold from weights so small that a part of them is rounded away. -/
theorem weightless_entry_chosen :
    let weights : List ℚ := [0, 1]
    (∀ w ∈ weights, 0 ≤ w) ∧ (0 : ℚ) < weights.sum ∧
      choice? weights (fun _ => 0) = some 0 ∧ weights[0] = 0 ∧
      ((Stream.ofSeed 42).weighted [Double.ofInt 0, ⟨1⟩]).1 = some 0 := by
  refine ⟨by decide +kernel, by decide +kernel, by decide +kernel, rfl, ?_⟩
  decide +kernel

end Exact

end PetDuel.Random
