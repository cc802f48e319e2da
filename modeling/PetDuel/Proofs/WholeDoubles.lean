import Mathlib.Algebra.Group.Int.Defs
import Mathlib.Algebra.Group.Nat.Defs
import PetDuel.Number.Double

/-!
Doubles of whole numbers. A whole number below `2 ^ 53` in magnitude is read back exactly from its
double, and so is every word.
-/

namespace PetDuel

section Whole

variable {s : Nat} (negative : Bool) (hs : s ≠ 0) (hfits : s < 2 ^ 53)

include hs hfits

/-- A whole number below the precision is shifted up to where its leading bit is the leading one. -/
theorem Dyadic.shifted_bounds :
    2 ^ 52 ≤ s * 2 ^ (52 - s.log2) ∧ s * 2 ^ (52 - s.log2) < 2 ^ 53 := by
  have hlog : s.log2 < 53 := (Nat.log2_lt hs).mpr hfits
  constructor
  · calc 2 ^ 52 = 2 ^ s.log2 * 2 ^ (52 - s.log2) := by
          rw [← Nat.pow_add, show s.log2 + (52 - s.log2) = 52 by omega]
      _ ≤ s * 2 ^ (52 - s.log2) := Nat.mul_le_mul_right _ (Nat.log2_self_le hs)
  · calc s * 2 ^ (52 - s.log2) < 2 ^ (s.log2 + 1) * 2 ^ (52 - s.log2) :=
          Nat.mul_lt_mul_of_pos_right Nat.lt_log2_self (Nat.two_pow_pos _)
      _ = 2 ^ 53 := by rw [← Nat.pow_add, show s.log2 + 1 + (52 - s.log2) = 53 by omega]

/-- The bits of a whole number: the exponent counts its digits, and the fraction has the digits
after the first. -/
theorem Dyadic.bits_whole : (Dyadic.mk negative s 0).bits = (if negative then 2 ^ 63 else 0) +
    (1023 + s.log2) * 2 ^ 52 + (s * 2 ^ (52 - s.log2) - 2 ^ 52) := by
  have hlow := (Dyadic.shifted_bounds hs hfits).1
  have hlog : s.log2 < 53 := (Nat.log2_lt hs).mpr hfits
  have hshift : min (52 - s.log2) (0 + 1074 : Int).toNat = 52 - s.log2 :=
    Nat.min_eq_left (by omega)
  have hpower : (0 - ((52 - s.log2 : Nat) : Int) + 1075).toNat = 1023 + s.log2 := by omega
  simp only [Dyadic.bits, if_neg hs, hshift, hpower, Nat.pow_eq]
  rw [if_neg (Nat.not_lt.mpr hlow)]

/-- What a whole number is made of can be read back from its double. -/
theorem Double.dyadic_ofDyadic_whole : (Double.ofDyadic ⟨negative, s, 0⟩).isNotANumber = false ∧
    (Double.ofDyadic ⟨negative, s, 0⟩).dyadic =
      ⟨negative, s * 2 ^ (52 - s.log2), (s.log2 : Int) - 52⟩ := by
  have hbits := Dyadic.bits_whole negative hs hfits
  have hlog : s.log2 < 53 := (Nat.log2_lt hs).mpr hfits
  obtain ⟨hlow, hhigh⟩ := Dyadic.shifted_bounds hs hfits
  -- The shifted significand has its leading bit at place 52, which the word leaves out.
  generalize s * 2 ^ (52 - s.log2) = m at hbits hlow hhigh ⊢
  have hword : (Double.ofDyadic ⟨negative, s, 0⟩).bits.toNat =
      (if negative then 2 ^ 63 else 0) + (1023 + s.log2) * 2 ^ 52 + (m - 2 ^ 52) := by
    rw [Double.ofDyadic, UInt64.toNat_ofNat', hbits]
    cases negative <;> simp only [Bool.false_eq_true, if_false, if_true] <;> omega
  have hexponent : (Double.ofDyadic ⟨negative, s, 0⟩).exponentField = 1023 + s.log2 := by
    rw [Double.exponentField, hword, Nat.pow_eq, Nat.pow_eq]
    cases negative <;> simp only [Bool.false_eq_true, if_false, if_true] <;> omega
  have hfraction : (Double.ofDyadic ⟨negative, s, 0⟩).fractionField = m - 2 ^ 52 := by
    rw [Double.fractionField, hword, Nat.pow_eq]
    cases negative <;> simp only [Bool.false_eq_true, if_false, if_true] <;> omega
  have hsign : (Double.ofDyadic ⟨negative, s, 0⟩).signField = negative := by
    rw [Double.signField, hword, Nat.pow_eq]
    cases negative
    · exact beq_false_of_ne (by simp only [Bool.false_eq_true, if_false]; omega)
    · exact beq_of_eq (by simp only [if_true]; omega)
  constructor
  · rw [Double.isNotANumber, hexponent, beq_false_of_ne (show 1023 + s.log2 ≠ 2047 by omega),
      Bool.false_and]
  · rw [Double.dyadic, hexponent, hfraction, hsign, if_neg (by omega), Nat.pow_eq,
      show 2 ^ 52 + (m - 2 ^ 52) = m by omega,
      show ((1023 + s.log2 : Nat) : Int) - 1075 = (s.log2 : Int) - 52 by omega]

/-- Shifted up and cut back, a whole number is what it was. -/
theorem Dyadic.whole_shifted :
    (Dyadic.mk negative (s * 2 ^ (52 - s.log2)) (s.log2 - 52)).whole = s := by
  have hlog : s.log2 < 53 := (Nat.log2_lt hs).mpr hfits
  simp only [Dyadic.whole, Nat.pow_eq]
  split
  · rw [show 52 - s.log2 = 0 by omega, show ((s.log2 : Int) - 52).toNat = 0 by omega]
    omega
  · rw [show (-((s.log2 : Int) - 52)).toNat = 52 - s.log2 by omega]
    exact Nat.mul_div_cancel s (Nat.two_pow_pos _)

end Whole

theorem Dyadic.whole_zero (negative : Bool) (power : Int) :
    (Dyadic.mk negative 0 power).whole = 0 := by
  simp only [Dyadic.whole, Nat.zero_mul, Nat.zero_div, ite_self]

/-- Every whole number within the precision is kept by its double. -/
theorem Double.truncated_ofInt (n : Int) (hfits : n.natAbs < 2 ^ 53) :
    (Double.ofInt n).truncated = n := by
  by_cases hzero : n = 0
  · have hdyadic : (Double.ofInt 0).dyadic = ⟨false, 0, -1074⟩ := by decide
    have hnumber : (Double.ofInt 0).isNotANumber = false := by decide
    rw [hzero, Double.truncated, hnumber, hdyadic]
    simp only [Dyadic.whole_zero, Bool.false_eq_true, if_false]
    rfl
  · have hs : n.natAbs ≠ 0 := Int.natAbs_ne_zero.mpr hzero
    obtain ⟨hnumber, hdyadic⟩ := Double.dyadic_ofDyadic_whole (decide (n < 0)) hs hfits
    rw [Double.ofInt, Double.truncated, hnumber, hdyadic]
    simp only [Dyadic.whole_shifted _ hs hfits, Bool.false_eq_true, if_false, decide_eq_true_eq]
    split <;> omega

/-- A word goes through a double unharmed. -/
theorem Double.toInt32_ofInt32 (n : Int32) : (Double.ofInt32 n).toInt32 = n := by
  have hlow : -2 ^ 31 ≤ n.toInt := n.le_toInt
  have hhigh : n.toInt < 2 ^ 31 := n.toInt_lt
  rw [Double.toInt32, Double.ofInt32, Double.truncated_ofInt n.toInt (by omega)]
  exact Int32.ofIntClamp_toInt n

theorem Double.toUInt32_ofUInt32 (n : UInt32) : (Double.ofUInt32 n).toUInt32 = n := by
  have hhigh : n.toNat < UInt32.size := n.toNat_lt
  have hsize : UInt32.size = 2 ^ 32 := rfl
  rw [Double.toUInt32, Double.ofUInt32, Double.truncated_ofInt n.toNat (by omega),
    Int.toNat_natCast, Nat.min_eq_left (by omega)]
  exact UInt32.ofNat_toNat

/-- A flag goes through a double unharmed, whether it is read back as not zero or as above zero. -/
theorem Double.ofFlag_bne_zero (b : Bool) : (Double.ofFlag b != 0.0) = b := by
  cases b <;> decide

theorem Double.zero_lt_ofFlag (b : Bool) : decide (0.0 < Double.ofFlag b) = b := by
  cases b <;> decide

end PetDuel
