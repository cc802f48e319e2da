import PetDuel.Number.Decimal
import PetDuel.Proofs.DoubleOrder

/-!
Texts that name no number. A decimal always has a nearest double, an infinity if need be; so the
only texts whose double is no number are those that say so, in letters of any case and after at most
one sign.
-/

namespace PetDuel.Double

open Float.Model

section Quotients

variable {a b : UnpackedFloat} {s : UnpackedFloat.Sign} {m : ℕ} {e : ℤ} {hm : 0 < m}

theorem roundWithAccuracy_ne_notANumber (t : UnpackedFloat.Sign) (n : ℕ) (d : ℤ)
    (accuracy : UnpackedFloat.Accuracy) :
    UnpackedFloat.roundWithAccuracy .binary64 t n d accuracy ≠ .notANumber := by
  unfold UnpackedFloat.roundWithAccuracy
  dsimp only
  split <;> exact nofun

/-- A number times a finite one is a number. Zero does not count as finite here, which leaves out
its product with an infinity. -/
theorem mul_finite_ne_notANumber (ha : a ≠ .notANumber) (hb : b = .finite s m e hm) :
    UnpackedFloat.mul .binary64 a b ≠ .notANumber := by
  subst hb
  cases a with
  | notANumber => exact absurd rfl ha
  | infinity | zero => exact nofun
  | finite => exact roundWithAccuracy_ne_notANumber _ _ _ _

theorem div_finite_ne_notANumber (ha : a ≠ .notANumber) (hb : b = .finite s m e hm) :
    UnpackedFloat.div .binary64 a b ≠ .notANumber := by
  subst hb
  cases a with
  | notANumber => exact absurd rfl ha
  | infinity | zero => exact nofun
  | finite => exact roundWithAccuracy_ne_notANumber _ _ _ _

end Quotients

/-- The table of the powers of ten holds finite numbers other than zero. -/
theorem power_of_ten_finite (i : ℕ) (hi : i < Float.exactlyRepresentablePowersOfTen.size) :
    ∃ s m e hm, (Float.exactlyRepresentablePowersOfTen[i]).toModel.unpack = .finite s m e hm := by
  have hall : ∀ i : Fin 23, (Float.exactlyRepresentablePowersOfTen[i]).toModel.unpack.isFinite ∧
      placeOf (Float.exactlyRepresentablePowersOfTen[i]).toModel.unpack ≠
        placeOf (.zero .positive) := by
    decide +kernel
  obtain ⟨hfinite, hne⟩ := hall ⟨i, hi⟩
  change (Float.exactlyRepresentablePowersOfTen[i]).toModel.unpack.isFinite = true at hfinite
  change placeOf (Float.exactlyRepresentablePowersOfTen[i]).toModel.unpack ≠ _ at hne
  cases hpower : (Float.exactlyRepresentablePowersOfTen[i]).toModel.unpack with
  | finite s m e hm => exact ⟨s, m, e, hm, rfl⟩
  | zero s =>
    rw [hpower] at hne
    exact absurd rfl hne
  | infinity | notANumber =>
    rw [hpower] at hfinite
    cases hfinite

/-- A decimal is read as a number, at worst as an infinity or zero. -/
theorem ofScientific_ne_notANumber (m : ℕ) (e : ℤ) :
    UnpackedFloat.ofScientific .binary64 m e ≠ .notANumber := by
  unfold UnpackedFloat.ofScientific
  split_ifs
  · exact nofun
  · exact nofun
  · exact nofun
  · exact roundWithAccuracy_ne_notANumber _ _ _ _
  · exact roundWithAccuracy_ne_notANumber _ _ _ _

theorem isNotANumber_ofScientific (m : ℕ) (negative : Bool) (e : ℕ) :
    (OfScientific.ofScientific m negative e : Double).isNotANumber = false := by
  refine isNotANumber_ofFloat (f := Float.ofScientific m negative e) ?_
  unfold Float.ofScientific
  split
  · -- The digits and the power of ten are both exact, and only then divided or multiplied.
    rename_i hsmall
    obtain ⟨s, n, d, hn, hpower⟩ := power_of_ten_finite e (Nat.lt_succ_of_le hsmall.2)
    have hwhole : m.toUInt64.toFloat.toModel.unpack ≠ .notANumber :=
      unpack_pack_ne_notANumber (normalize_ne_notANumber _ _ _)
    dsimp only
    split
    · exact unpack_pack_ne_notANumber (div_finite_ne_notANumber hwhole hpower)
    · exact unpack_pack_ne_notANumber (mul_finite_ne_notANumber hwhole hpower)
  · exact unpack_pack_ne_notANumber (ofScientific_ne_notANumber _ _)

theorem isNotANumber_ofDecimal (m : ℕ) (e : ℤ) : (ofDecimal m e).isNotANumber = false := by
  unfold ofDecimal
  extract_lets size
  split_ifs
  · decide
  · decide
  · exact isNotANumber_ofScientific _ _ _

/-- Digits, a point and an exponent always write a number. -/
theorem any_isNotANumber_magnitude? (cs : List Char) :
    (magnitude? cs).any isNotANumber = false := by
  unfold magnitude?
  extract_lets whole rest
  split
  split
  · rfl
  · rename_i tail _ _
    cases exponent? tail with
    | none => rfl
    | some e => exact isNotANumber_ofDecimal _ _

/-- A sign in front does not change whether there is a number behind it. -/
theorem isNotANumber_neg (x : Double) : (-x).isNotANumber = x.isNotANumber := by
  have hbits : (-x).bits.toBitVec = x.bits.toBitVec ^^^ 0x8000000000000000#64 := rfl
  have hexponent : BitVec.extractLsb' 52 11 0x8000000000000000#64 = 0#11 := by decide
  have hfraction : BitVec.extractLsb' 0 52 0x8000000000000000#64 = 0#52 := by decide
  rw [Bool.eq_iff_iff]
  simp only [isNotANumber, Bool.and_eq_true, beq_iff_eq, bne_iff_ne, Ne, exponentField_eq_ones_iff,
    fractionField_eq_zero_iff, UnpackedFloat.unpackExponent_def,
    UnpackedFloat.unpackMantissa_def, hbits, BitVec.extractLsb'_xor, hexponent, hfraction,
    BitVec.xor_zero]

/-- The text says that it is no number: three letters in any case, after at most one sign. -/
def saysNoNumber (s : String) : Bool :=
  match s.toList with
  | '-' :: cs | '+' :: cs => Text.lowered cs == "nan".toList
  | cs => Text.lowered cs == "nan".toList

/-- Without a sign, the three letters are the only text that says it is no number. -/
theorem any_isNotANumber_unsigned? (cs : List Char) :
    (unsigned? cs).any isNotANumber = (Text.lowered cs == "nan".toList) := by
  unfold unsigned?
  extract_lets name
  split_ifs with hinfinity hname
  · -- The names of the infinities are not the three letters.
    have hother : (name == "nan".toList) = false := by
      rcases Bool.or_eq_true_iff.mp hinfinity with h | h
      · rw [beq_iff_eq.mp h]
        decide
      · rw [beq_iff_eq.mp h]
        decide
    rw [hother]
    rfl
  · rw [hname]
    rfl
  · rw [Bool.eq_false_iff.mpr hname]
    exact any_isNotANumber_magnitude? cs

/-- A text writes a double that is no number just when it says so. -/
theorem any_isNotANumber_ofText? (s : String) :
    (ofText? s).any isNotANumber = saysNoNumber s := by
  unfold ofText?
  split
  · rename_i cs hminus
    have hread : saysNoNumber s = (Text.lowered cs == "nan".toList) := by
      simp only [saysNoNumber, hminus]
    have hsign : (fun x : Double => (-x).isNotANumber) = isNotANumber := funext isNotANumber_neg
    rw [hread, Option.any_map, hsign]
    exact any_isNotANumber_unsigned? cs
  · rename_i cs hplus
    have hread : saysNoNumber s = (Text.lowered cs == "nan".toList) := by
      simp only [saysNoNumber, hplus]
    rw [hread]
    exact any_isNotANumber_unsigned? cs
  · rename_i hminus hplus
    have hread : saysNoNumber s = (Text.lowered s.toList == "nan".toList) := by
      unfold saysNoNumber
      split
      · exact absurd ‹_› (hminus _)
      · exact absurd ‹_› (hplus _)
      · rfl
    rw [hread]
    exact any_isNotANumber_unsigned? s.toList

end PetDuel.Double
