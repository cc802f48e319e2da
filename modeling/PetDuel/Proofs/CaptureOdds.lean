import Mathlib.Data.EReal.Inv
import Mathlib.Tactic.NormNum
import PetDuel.Battle.Capture

/-!
The odds of a capture, computed exactly. The chance is no monotone number, since below 100 the loss
of health may double it and from 100 on it stays as it is; but what matters is only whether a roll
below 100 reaches it, and there more base chance, less health and no guard never hurt.
-/

namespace PetDuel

/-- Exact arithmetic, with the two infinities that a double can name. -/
noncomputable instance : Number.Arithmetic EReal where
  whole n := ((n : ℝ) : EReal)
  atMost x y := decide (x ≤ y)
  finite x := decide (x ≠ ⊥ ∧ x ≠ ⊤)

section Parts

open Number

variable {m n : Int} {x y : EReal}

theorem whole_le_whole (h : m ≤ n) : (Arithmetic.whole m : EReal) ≤ Arithmetic.whole n :=
  EReal.coe_le_coe_iff.mpr (Int.cast_le.mpr h)

theorem whole_natCast (n : Nat) : (Arithmetic.whole n : EReal) = n :=
  congrArg Real.toEReal (Int.cast_natCast n)

theorem whole_nonneg (h : 0 ≤ n) : (0 : EReal) ≤ Arithmetic.whole n :=
  EReal.coe_nonneg.mpr (Int.cast_nonneg h)

theorem fraction_eq (m n : Int) : (fraction m n : EReal) = ((m / n : ℝ) : EReal) :=
  (EReal.coe_div m n).symm

theorem atMost_iff : Arithmetic.atMost x y = true ↔ x ≤ y := decide_eq_true_iff

theorem atMost_fraction_iff {r : ℝ} :
    Arithmetic.atMost (r : EReal) (fraction m n) = true ↔ r ≤ m / n := by
  rw [atMost_iff, fraction_eq, EReal.coe_le_coe_iff]

/-- The four factors are in order. -/
theorem lossFactor_steps :
    (0 : EReal) ≤ fraction 1 4 ∧ (fraction 1 4 : EReal) ≤ Arithmetic.whole 1 ∧
    (Arithmetic.whole 1 : EReal) ≤ fraction 3 2 ∧ (fraction 3 2 : EReal) ≤ Arithmetic.whole 2 := by
  rw [fraction_eq, fraction_eq]
  refine ⟨EReal.coe_nonneg.mpr (by norm_num), EReal.coe_le_coe_iff.mpr (by norm_num),
    EReal.coe_le_coe_iff.mpr (by norm_num), EReal.coe_le_coe_iff.mpr (by norm_num)⟩

/-- What stays low up to a bound and is no lower beyond it grows with its argument. -/
theorem ite_atMost_mono {bound low : EReal} (beyond : EReal → EReal) (hlow : ∀ z, low ≤ beyond z)
    (hbeyond : beyond x ≤ beyond y) (h : x ≤ y) :
    (if Arithmetic.atMost x bound then low else beyond x) ≤
      if Arithmetic.atMost y bound then low else beyond y := by
  by_cases hy : y ≤ bound
  · rw [if_pos (atMost_iff.mpr hy), if_pos (atMost_iff.mpr (h.trans hy))]
  · rw [if_neg (mt atMost_iff.mp hy)]
    split
    · exact hlow y
    · exact hbeyond

theorem le_ite_atMost {bound low high z : EReal} (hlow : x ≤ low) (hhigh : x ≤ high) :
    x ≤ if Arithmetic.atMost z bound then low else high := by
  split
  · exact hlow
  · exact hhigh

theorem lossFactor_nonneg (x : EReal) : 0 ≤ lossFactor x := by
  obtain ⟨hquarter, hone, hhalf, htwo⟩ := lossFactor_steps
  refine le_ite_atMost hquarter (le_ite_atMost (hquarter.trans hone) (le_ite_atMost ?_ ?_))
  · exact hquarter.trans (hone.trans hhalf)
  · exact hquarter.trans (hone.trans (hhalf.trans htwo))

/-- The more is lost, the larger the factor. -/
theorem lossFactor_mono (h : x ≤ y) : lossFactor x ≤ lossFactor y := by
  obtain ⟨_, hone, hhalf, htwo⟩ := lossFactor_steps
  refine ite_atMost_mono
    (fun z => if Arithmetic.atMost z (fraction 1 2) then Arithmetic.whole 1
      else if Arithmetic.atMost z (fraction 3 4) then fraction 3 2 else Arithmetic.whole 2)
    (fun z => ?_) ?_ h
  · exact le_ite_atMost hone (le_ite_atMost (hone.trans hhalf) (hone.trans (hhalf.trans htwo)))
  refine ite_atMost_mono
    (fun z => if Arithmetic.atMost z (fraction 3 4) then fraction 3 2 else Arithmetic.whole 2)
    (fun z => ?_) ?_ h
  · exact le_ite_atMost hhalf (hhalf.trans htwo)
  exact ite_atMost_mono (fun _ => Arithmetic.whole 2) (fun _ => htwo) le_rfl h

theorem lossFactor_of_le_quarter {r : ℝ} (h : r ≤ 1 / 4) :
    lossFactor (r : EReal) = fraction 1 4 := by
  have hquarter : (((1 : Int) : ℝ) / ((4 : Int) : ℝ)) = 1 / 4 := by norm_num
  exact if_pos (atMost_fraction_iff.mpr (hquarter ▸ h))

theorem lossFactor_of_three_quarters_lt {r : ℝ} (h : 3 / 4 < r) :
    lossFactor (r : EReal) = Arithmetic.whole 2 := by
  have hbeyond {m n : Int} (hfraction : (m / n : ℝ) ≤ 3 / 4) :
      ¬Arithmetic.atMost (r : EReal) (fraction m n) = true := by
    rw [atMost_fraction_iff]
    exact not_le.mpr (hfraction.trans_lt h)
  rw [lossFactor, if_neg (hbeyond (by norm_num)), if_neg (hbeyond (by norm_num)),
    if_neg (hbeyond (by norm_num))]

theorem lostPart_of_pos {hp maxHp : Int32} (h : 0 < maxHp) :
    (lostPart hp maxHp : EReal) = ((1 - hp.toInt / maxHp.toInt : ℝ) : EReal) := by
  have hone : (Arithmetic.whole 1 : EReal) = ((1 : ℝ) : EReal) :=
    congrArg Real.toEReal Int.cast_one
  rw [lostPart, if_pos h, hone, EReal.coe_sub, EReal.coe_div]
  rfl

/-- The less health is left, the more is lost. -/
theorem lostPart_mono {hp hp' : Int32} (h : hp' ≤ hp) (maxHp : Int32) :
    (lostPart hp maxHp : EReal) ≤ lostPart hp' maxHp := by
  unfold lostPart
  split
  · rename_i hpositive
    have hmax : (0 : EReal) ≤ Arithmetic.whole maxHp.toInt :=
      whole_nonneg (Int32.le_iff_toInt_le.mp (Int32.le_of_lt hpositive))
    have hleft : (Arithmetic.whole hp'.toInt : EReal) ≤ Arithmetic.whole hp.toInt :=
      whole_le_whole (Int32.le_iff_toInt_le.mp h)
    exact EReal.sub_le_sub le_rfl (EReal.div_le_div_right_of_nonneg hmax hleft)
  · exact le_rfl

end Parts

section Chance

open Number

variable {base base' : EReal} {hp hp' maxHp : Int32} {guarded guarded' : Bool}

theorem captureChance_of_certain (h : 100 ≤ base) :
    captureChance base hp maxHp guarded = base := by
  have hcertain : (Arithmetic.whole (100 : Nat) : EReal) ≤ base := (whole_natCast 100).trans_le h
  exact if_pos (atMost_iff.mpr hcertain)

/-- Below 100 percent the chance is a product of the guarded base and the factor of the loss. -/
theorem captureChance_of_uncertain (h : ¬100 ≤ base) : captureChance base hp maxHp guarded =
    (if guarded then base / Arithmetic.whole 3 else base) * lossFactor (lostPart hp maxHp) := by
  have huncertain : ¬(Arithmetic.whole (100 : Nat) : EReal) ≤ base :=
    fun hcertain => h ((whole_natCast 100).symm.trans_le hcertain)
  exact if_neg (mt atMost_iff.mp huncertain)

/-- A guard never raises the chance. -/
theorem third_le_self (h : 0 ≤ base) : base / Arithmetic.whole 3 ≤ base := by
  have hpositive : (0 : EReal) < Arithmetic.whole 3 := EReal.coe_pos.mpr (by norm_num)
  have hfinite : (Arithmetic.whole 3 : EReal) ≠ ⊤ := EReal.coe_ne_top _
  have hone : (1 : EReal) ≤ Arithmetic.whole 3 := EReal.coe_le_coe_iff.mpr (by norm_num)
  rw [EReal.div_le_iff_le_mul hpositive hfinite]
  calc base = 1 * base := (one_mul base).symm
    _ ≤ Arithmetic.whole 3 * base := mul_le_mul_of_nonneg_right hone h

theorem guarded_nonneg (h : 0 ≤ base) :
    0 ≤ if guarded then base / Arithmetic.whole 3 else base := by
  split
  · exact EReal.div_nonneg h (whole_nonneg (by decide))
  · exact h

/-- A guard never helps, and more base chance never hurts. -/
theorem guarded_mono (hbase : 0 ≤ base) (hraised : base ≤ base')
    (hguard : guarded' = true → guarded = true) :
    (if guarded then base / Arithmetic.whole 3 else base) ≤
      if guarded' then base' / Arithmetic.whole 3 else base' := by
  have hthirds : base / Arithmetic.whole 3 ≤ base' / Arithmetic.whole 3 :=
    EReal.div_le_div_right_of_nonneg (whole_nonneg (by decide)) hraised
  cases guarded' with
  | true =>
    rw [hguard rfl]
    exact hthirds
  | false =>
    cases guarded with
    | true => exact (third_le_self hbase).trans hraised
    | false => exact hraised

/-- A guard divides an uncertain chance by three. -/
theorem captureChance_guarded (h : ¬100 ≤ base) :
    captureChance base hp maxHp true = captureChance base hp maxHp false / 3 := by
  have hthree : (Arithmetic.whole 3 : EReal) = 3 := whole_natCast 3
  rw [captureChance_of_uncertain h, captureChance_of_uncertain h, if_pos rfl,
    if_neg Bool.false_ne_true, hthree]
  calc base / 3 * lossFactor (lostPart hp maxHp)
      = 3⁻¹ * base * lossFactor (lostPart hp maxHp) := by rw [EReal.div_eq_inv_mul]
    _ = 3⁻¹ * (base * lossFactor (lostPart hp maxHp)) := mul_assoc _ _ _
    _ = base * lossFactor (lostPart hp maxHp) / 3 := (EReal.div_eq_inv_mul _ _).symm

/-- Without any health left an uncertain chance is eight times what it is in full health. -/
theorem captureChance_without_health (h : ¬100 ≤ base) (hmax : 0 < maxHp) :
    captureChance base 0 maxHp guarded = 8 * captureChance base maxHp maxHp guarded := by
  have hpositive : (0 : ℝ) < maxHp.toInt := Int.cast_pos.mpr (Int32.lt_iff_toInt_lt.mp hmax)
  have hzero : ((0 : Int32).toInt : ℝ) = 0 := Int.cast_zero
  have hnone : (lossFactor (lostPart 0 maxHp) : EReal) = Arithmetic.whole 2 := by
    rw [lostPart_of_pos hmax, hzero, zero_div]
    exact lossFactor_of_three_quarters_lt (by norm_num)
  have hfull : (lossFactor (lostPart maxHp maxHp) : EReal) = fraction 1 4 := by
    rw [lostPart_of_pos hmax, div_self hpositive.ne']
    exact lossFactor_of_le_quarter (by norm_num)
  have height : (Arithmetic.whole 2 : EReal) = 8 * fraction 1 4 := by
    have hreal : ((2 : Int) : ℝ) = 8 * (((1 : Int) : ℝ) / ((4 : Int) : ℝ)) := by norm_num
    rw [fraction_eq]
    exact congrArg Real.toEReal hreal
  rw [captureChance_of_uncertain h, captureChance_of_uncertain h, hnone, hfull, height,
    mul_left_comm]

/-- A roll below 100 that reaches the chance of a capture still reaches it when the base chance is
raised, when health is lost and when the guard is gone, alone or together. -/
theorem reached_of_reached {roll : EReal} (hbase : 0 ≤ base) (hraised : base ≤ base')
    (hlost : hp' ≤ hp) (hguard : guarded' = true → guarded = true) (hroll : roll < 100)
    (hreached : roll ≤ captureChance base hp maxHp guarded) :
    roll ≤ captureChance base' hp' maxHp guarded' := by
  by_cases hcertain : 100 ≤ base'
  · rw [captureChance_of_certain hcertain]
    exact hroll.le.trans hcertain
  · -- A base that is uncertain when raised was uncertain before.
    have huncertain : ¬100 ≤ base := fun h => hcertain (h.trans hraised)
    rw [captureChance_of_uncertain huncertain] at hreached
    rw [captureChance_of_uncertain hcertain]
    have hguarded := guarded_mono hbase hraised hguard
    have hfactor : (lossFactor (lostPart hp maxHp) : EReal) ≤ lossFactor (lostPart hp' maxHp) :=
      lossFactor_mono (lostPart_mono hlost maxHp)
    calc roll
        ≤ (if guarded then base / Arithmetic.whole 3 else base) *
            lossFactor (lostPart hp maxHp) := hreached
      _ ≤ (if guarded' then base' / Arithmetic.whole 3 else base') *
            lossFactor (lostPart hp maxHp) :=
          mul_le_mul_of_nonneg_right hguarded (lossFactor_nonneg _)
      _ ≤ (if guarded' then base' / Arithmetic.whole 3 else base') *
            lossFactor (lostPart hp' maxHp) :=
          mul_le_mul_of_nonneg_left hfactor (guarded_nonneg (hbase.trans hraised))

end Chance

/-- A roll below 100 that reaches the chance of a capture still reaches it when the base chance is
raised, when health is lost and when the guard is gone, alone or together. All three matter: from
100 on the base chance is the chance, and below it a guard divides the chance by three and the loss
of all health multiplies it by eight. -/
theorem capture_stays_in_reach :
    (∀ (base base' roll : EReal) (hp hp' maxHp : Int32) (guarded guarded' : Bool),
      0 ≤ base → base ≤ base' → hp' ≤ hp → (guarded' = true → guarded = true) → roll < 100 →
        roll ≤ captureChance base hp maxHp guarded →
          roll ≤ captureChance base' hp' maxHp guarded') ∧
    ∀ (base : EReal) (hp maxHp : Int32) (guarded : Bool),
      (100 ≤ base → captureChance base hp maxHp guarded = base) ∧
      (base < 100 →
        captureChance base hp maxHp true = captureChance base hp maxHp false / 3) ∧
      (base < 100 → 0 < maxHp →
        captureChance base 0 maxHp guarded = 8 * captureChance base maxHp maxHp guarded) := by
  constructor
  · intro base base' roll hp hp' maxHp guarded guarded' hbase hraised hlost hguard hroll hreached
    exact reached_of_reached hbase hraised hlost hguard hroll hreached
  · intro base hp maxHp guarded
    refine ⟨captureChance_of_certain, fun h => ?_, fun h hmax => ?_⟩
    · exact captureChance_guarded (not_le.mpr h)
    · exact captureChance_without_health (not_le.mpr h) hmax

/-- With a fifth of its health left, a guarded fighter is just captured by a roll of 66 at a base
chance of 99. Without a guard the chance would be 198; at a base chance of 100 it is only 100, and
the roll still reaches it. -/
theorem reached_across_certainty :
    (66 : EReal) < 100 ∧ 66 ≤ captureChance (99 : EReal) 20 100 true ∧
      captureChance (100 : EReal) 10 100 false < captureChance (99 : EReal) 20 100 false ∧
      66 ≤ captureChance (100 : EReal) 10 100 false := by
  have hroll : (66 : EReal) < 100 := by exact_mod_cast (by decide : 66 < 100)
  have hraised : (99 : EReal) ≤ 100 := by exact_mod_cast (by decide : 99 ≤ 100)
  have hbase : (0 : EReal) ≤ 99 := by exact_mod_cast (by decide : 0 ≤ 99)
  have huncertain : (99 : EReal) < 100 := by exact_mod_cast (by decide : 99 < 100)
  obtain ⟨hstays, hodds⟩ := capture_stays_in_reach
  obtain ⟨-, hguard, -⟩ := hodds 99 20 100 true
  have hfree : captureChance (99 : EReal) 20 100 false = 198 := by
    have hlost : (lossFactor (lostPart 20 100) : EReal) = 2 := by
      have hfifth : (3 / 4 : ℝ) < 1 - ((20 : Int32).toInt : ℝ) / ((100 : Int32).toInt : ℝ) := by
        have hleft : (20 : Int32).toInt = 20 := rfl
        have hmost : (100 : Int32).toInt = 100 := rfl
        rw [hleft, hmost]
        norm_num
      rw [lostPart_of_pos (by decide), lossFactor_of_three_quarters_lt hfifth]
      exact whole_natCast 2
    rw [captureChance_of_uncertain (not_le.mpr huncertain), if_neg Bool.false_ne_true, hlost]
    exact_mod_cast (by decide : 99 * 2 = 198)
  have hreached : 66 ≤ captureChance (99 : EReal) 20 100 true := by
    have hthird : (198 : EReal) / 3 = 66 :=
      calc (198 : EReal) / 3 = ((198 / 3 : ℝ) : EReal) := (EReal.coe_div 198 3).symm
        _ = ((66 : ℝ) : EReal) := by norm_num
        _ = 66 := rfl
    rw [hguard huncertain, hfree, hthird]
  have hfalls :
      captureChance (100 : EReal) 10 100 false < captureChance (99 : EReal) 20 100 false := by
    rw [hfree, (hodds 100 10 100 false).1 le_rfl]
    exact_mod_cast (by decide : 100 < 198)
  exact ⟨hroll, hreached, hfalls,
    hstays 99 100 66 20 10 100 true false hbase hraised (by decide) nofun hroll hreached⟩

end PetDuel
