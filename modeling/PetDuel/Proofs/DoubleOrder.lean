import Mathlib
import PetDuel.Number.Double

/-!
The order of doubles. Every number has a place among all numbers, with the zeros in the middle and
an infinity at either end, and numbers compare as their places do. What is no number compares with
nothing: clamping leaves it as it is, and a sum with it is no number either. What equals a number
other than zero has the bits of that number.
-/

namespace PetDuel.Double

open Float.Model

def placeOf : UnpackedFloat → ℤ ×ₗ ℤ ×ₗ ℤ
  | .infinity .positive => toLex (2, toLex (0, 0))
  | .infinity .negative => toLex (-2, toLex (0, 0))
  | .notANumber | .zero _ => toLex (0, toLex (0, 0))
  | .finite .positive m e _ => toLex (1, toLex (e, m))
  | .finite .negative m e _ => toLex (-1, toLex (-e, -m))

theorem compare_natCast (m n : ℕ) : compare (m : ℤ) n = compare m n := by
  rw [← cmp_eq_compare, ← cmp_eq_compare]
  exact StrictMono.cmp_map_eq Nat.strictMono_cast m n

theorem compare_neg_neg (a b : ℤ) : compare (-a) (-b) = (compare a b).swap := by
  rw [← cmp_eq_compare, ← cmp_eq_compare, cmp_swap]
  exact StrictAnti.cmp_map_eq (fun _ _ => neg_lt_neg) a b

theorem ne_notANumber_of_compare {a b : UnpackedFloat} {o : Ordering} (h : a.compare b = some o) :
    a ≠ .notANumber ∧ b ≠ .notANumber := by
  constructor
  · rintro rfl
    cases h
  · rintro rfl
    cases a <;> cases h

section Unpacked

variable {a b : UnpackedFloat} (ha : a ≠ .notANumber) (hb : b ≠ .notANumber)

include ha hb

/-- Numbers compare as their places do. -/
theorem compare_eq_compare_place : a.compare b = some (compare (placeOf a) (placeOf b)) := by
  rcases a with (_ | _) | _ | (_ | _) | ⟨_ | _, m, e, hm⟩ <;>
  rcases b with (_ | _) | _ | (_ | _) | ⟨_ | _, m', e', hm'⟩ <;>
  first | rfl | exact absurd rfl ha | exact absurd rfl hb | skip
  -- Only between two finite numbers of one sign do the exponent and the significand decide.
  · have hplaces : compare (placeOf (.finite .negative m e hm))
        (placeOf (.finite .negative m' e' hm')) =
        (compare (-e) (-e')).then (compare (-(m : ℤ)) (-(m' : ℤ))) := rfl
    rw [hplaces, compare_neg_neg, compare_neg_neg, compare_natCast, ← Ordering.swap_then]
    rfl
  · exact congrArg (fun o => some ((compare e e').then o)) (compare_natCast m m').symm

theorem unpacked_lt_iff : a.lt b = true ↔ placeOf a < placeOf b := by
  rw [UnpackedFloat.lt, compare_eq_compare_place ha hb, beq_iff_eq, Option.some_inj,
    compare_lt_iff_lt]

theorem unpacked_le_iff : a.le b = true ↔ placeOf a ≤ placeOf b := by
  rw [UnpackedFloat.le, compare_eq_compare_place ha hb, Option.any_some, Ordering.isLE_iff_ne_gt]
  exact compare_le_iff_le

end Unpacked

/-- The finite numbers lie strictly between the two infinities. -/
theorem unpacked_isFinite_iff {a : UnpackedFloat} : a.isFinite = true ↔ a ≠ .notANumber ∧
    placeOf (.infinity .negative) < placeOf a ∧ placeOf a < placeOf (.infinity .positive) := by
  have hfirst {m n : ℤ} (h : m < n) (p q : ℤ ×ₗ ℤ) : toLex (m, p) < toLex (n, q) :=
    Prod.Lex.toLex_lt_toLex.mpr (.inl h)
  rcases a with (_ | _) | _ | _ | ⟨_ | _, m, e, hm⟩
  · exact iff_of_false (by decide) fun h => absurd h.2.1 (lt_irrefl _)
  · exact iff_of_false (by decide) fun h => absurd h.2.2 (lt_irrefl _)
  · exact iff_of_false (by decide) fun h => h.1 rfl
  all_goals exact iff_of_true rfl ⟨nofun, hfirst (by decide) _ _, hfirst (by decide) _ _⟩

/-- Only what is no number is packed as such. -/
theorem unpack_pack_ne_notANumber {a : UnpackedFloat} (h : a ≠ .notANumber) :
    UnpackedFloat.unpack .binary64 (UnpackedFloat.pack .binary64 a) ≠ .notANumber := by
  intro hpacked
  have hvalid : Format.binary64.Valid (UnpackedFloat.pack .binary64 a) := UnpackedFloat.valid_pack
  have hbits : UnpackedFloat.isNaNBits (UnpackedFloat.pack .binary64 a) = true := by
    rw [(UnpackedFloat.unpack_eq_notANumber_iff_of_valid hvalid).mp hpacked]
    exact UnpackedFloat.isNaNBits_packedNaN
  rw [UnpackedFloat.isNaNBits, decide_eq_true_iff] at hbits
  obtain ⟨hexponent, hfraction⟩ := hbits
  revert hexponent hfraction
  -- An infinity has no fraction, and everything else an exponent below the highest.
  fun_cases UnpackedFloat.pack .binary64 a with
  | case1 => exact absurd rfl h
  | case2 | case4 =>
    rw [UnpackedFloat.packedInfinity, UnpackedFloat.unpackMantissa_packComponents]
    exact fun _ hzero => hzero rfl
  | case3 =>
    rw [UnpackedFloat.packedZero, UnpackedFloat.unpackMantissa_packComponents]
    exact fun _ hzero => hzero rfl
  | case5 s m e hm digits biased hsmall =>
    rw [UnpackedFloat.unpackExponent_packComponents]
    intro hones
    change ¬2 ^ 11 ≤ biased + 1 at hsmall
    have hword : biased % 2 ^ 11 = 2 ^ 11 - 1 := congrArg BitVec.toNat hones
    omega
  | case6 =>
    rw [UnpackedFloat.unpackExponent_packComponents]
    exact fun hexponent => absurd hexponent (by decide)

/-- Normalizing a significand with its exponent gives a number. -/
theorem normalize_ne_notANumber (m e : ℤ) (s : UnpackedFloat.Sign) :
    UnpackedFloat.normalize .binary64 m e s ≠ .notANumber := by
  have hround (s : UnpackedFloat.Sign) (n : ℕ) :
      UnpackedFloat.round .binary64 s n e ≠ .notANumber := by
    unfold UnpackedFloat.round UnpackedFloat.roundWithAccuracy
    dsimp only
    split <;> exact nofun
  unfold UnpackedFloat.normalize
  split
  · exact hround _ _
  · exact nofun
  · exact hround _ _

/-- A finite number and any number have a sum. The sum of two opposite infinities is what this
leaves out. -/
theorem add_ne_notANumber {a b : UnpackedFloat} (ha : a.isFinite = true) (hb : b ≠ .notANumber) :
    UnpackedFloat.add .binary64 a b ≠ .notANumber := by
  cases a with
  | infinity | notANumber => cases ha
  | zero s =>
    cases b with
    | notANumber => exact absurd rfl hb
    | zero t => cases s <;> cases t <;> exact nofun
    | infinity | finite => exact nofun
  | finite =>
    cases b with
    | notANumber => exact absurd rfl hb
    | infinity | zero => exact nofun
    | finite => exact normalize_ne_notANumber _ _ _

def unpacked (x : Double) : UnpackedFloat := UnpackedFloat.unpack .binary64 x.bits.toBitVec

def place (x : Double) : ℤ ×ₗ ℤ ×ₗ ℤ := placeOf x.unpacked

section Fields

variable (x : Double)

theorem exponentField_eq_ones_iff : x.exponentField = 2047 ↔
    @UnpackedFloat.unpackExponent .binary64 x.bits.toBitVec = -1#_ := by
  have hfield : (@UnpackedFloat.unpackExponent .binary64 x.bits.toBitVec).toNat =
      x.exponentField := by
    rw [UnpackedFloat.unpackExponent_def, BitVec.extractLsb'_toNat, Nat.shiftRight_eq_div_pow]
    rfl
  rw [← hfield, ← BitVec.toNat_inj]
  rfl

theorem fractionField_eq_zero_iff : x.fractionField = 0 ↔
    @UnpackedFloat.unpackMantissa .binary64 x.bits.toBitVec = 0#_ := by
  have hfield : (@UnpackedFloat.unpackMantissa .binary64 x.bits.toBitVec).toNat =
      x.fractionField := by
    rw [UnpackedFloat.unpackMantissa_def, BitVec.extractLsb'_toNat, Nat.shiftRight_zero]
    rfl
  rw [← hfield, ← BitVec.toNat_inj]
  rfl

/-- A double is an infinity, no number, or finite, and its bits and its unpacked form agree on
which. -/
theorem unpacked_cases :
    (x.isNotANumber = false ∧ x.isFinite = false ∧ ∃ s, x.unpacked = .infinity s) ∨
      (x.isNotANumber = true ∧ x.isFinite = false ∧ x.unpacked = .notANumber) ∨
      (x.isNotANumber = false ∧ x.isFinite = true ∧ x.unpacked.isFinite = true) := by
  have hexponent := x.exponentField_eq_ones_iff
  have hfraction := x.fractionField_eq_zero_iff
  unfold isNotANumber isFinite unpacked
  fun_cases UnpackedFloat.unpack .binary64 x.bits.toBitVec with
  | case1 _ _ _ s hones hzero =>
    left
    rw [hexponent.mpr hones, hfraction.mpr hzero]
    exact ⟨rfl, rfl, s, rfl⟩
  | case2 _ _ hones hzero =>
    right; left
    rw [hexponent.mpr hones, bne_iff_ne.mpr (mt hfraction.mp hzero)]
    exact ⟨rfl, rfl, rfl⟩
  | case3 _ _ _ _ hones | case4 _ _ _ _ _ hones | case5 _ _ _ _ _ hones =>
    right; right
    rw [beq_false_of_ne (mt hexponent.mp hones), bne_iff_ne.mpr (mt hexponent.mp hones)]
    exact ⟨rfl, rfl, rfl⟩

theorem isNotANumber_iff : x.isNotANumber = true ↔ x.unpacked = .notANumber := by
  obtain ⟨h, _, s, hx⟩ | ⟨h, _, hx⟩ | ⟨h, _, hx⟩ := x.unpacked_cases
  · rw [h, hx]
    exact iff_of_false nofun nofun
  · exact iff_of_true h hx
  · rw [h]
    exact iff_of_false nofun (unpacked_isFinite_iff.mp hx).1

theorem isNotANumber_eq_false_iff : x.isNotANumber = false ↔ x.unpacked ≠ .notANumber := by
  rw [← Bool.not_eq_true, isNotANumber_iff]

theorem isFinite_eq : x.isFinite = x.unpacked.isFinite := by
  obtain ⟨_, h, s, hx⟩ | ⟨_, h, hx⟩ | ⟨_, h, hx⟩ := x.unpacked_cases
  · rw [h, hx]
    rfl
  · rw [h, hx]
    rfl
  · rw [h, hx]

/-- A double keeps its value as a number. -/
theorem unpack_toFloat : x.toFloat.toModel.unpack = x.unpacked := by
  have hpacked : x.toFloat.toModel.unpack =
      UnpackedFloat.unpack .binary64 (UnpackedFloat.pack .binary64 x.unpacked) := rfl
  rw [hpacked, unpacked, UnpackedFloat.pack_unpack]
  -- Only the bits of a double that is no number are not packed again as they were.
  split
  next hnan =>
    rw [UnpackedFloat.isNaNBits, decide_eq_true_iff, ← exponentField_eq_ones_iff, Ne,
      ← fractionField_eq_zero_iff] at hnan
    have hx : x.isNotANumber = true := by
      rw [isNotANumber, Bool.and_eq_true, beq_iff_eq, bne_iff_ne]
      exact hnan
    exact UnpackedFloat.unpack_packedNaN.trans (x.isNotANumber_iff.mp hx).symm
  next => rfl

theorem isNotANumber_ofFloat {f : Float} (h : f.toModel.unpack ≠ .notANumber) :
    (ofFloat f).isNotANumber = false := by
  have hnan : ¬f.isNaN = true := mt UnpackedFloat.isNaN_iff.mp h
  rw [ofFloat, if_neg hnan]
  exact (isNotANumber_eq_false_iff _).mpr h

/-- Quieting sets a bit of the fraction, which leaves what is no number what it is. -/
theorem isNotANumber_quieted (h : x.isNotANumber = true) : x.quieted.isNotANumber = true := by
  have hbits : x.quieted.bits.toBitVec = x.bits.toBitVec ||| 0x0008000000000000#64 := rfl
  rw [isNotANumber, Bool.and_eq_true, beq_iff_eq, bne_iff_ne, exponentField_eq_ones_iff, Ne,
    fractionField_eq_zero_iff, UnpackedFloat.unpackExponent_def,
    UnpackedFloat.unpackMantissa_def] at h ⊢
  rw [hbits, BitVec.extractLsb'_or, BitVec.extractLsb'_or, h.1]
  refine ⟨by decide, fun hzero => ?_⟩
  -- The bit that is set is the first of the fraction.
  have hbit := congrArg (BitVec.getLsbD · 51) hzero
  simp at hbit

end Fields

section Comparison

variable {x y z lo hi : Double}

/-- A double is below another one when both are numbers and their places say so. -/
theorem lt_iff : x < y ↔ x.isNotANumber = false ∧ y.isNotANumber = false ∧ x.place < y.place := by
  have hmodel : x < y ↔ x.toFloat.toModel.unpack.lt y.toFloat.toModel.unpack = true :=
    decide_eq_true_iff
  rw [hmodel, unpack_toFloat, unpack_toFloat, isNotANumber_eq_false_iff, isNotANumber_eq_false_iff]
  constructor
  · intro h
    obtain ⟨hx, hy⟩ := ne_notANumber_of_compare (beq_iff_eq.mp h)
    exact ⟨hx, hy, (unpacked_lt_iff hx hy).mp h⟩
  · rintro ⟨hx, hy, h⟩
    exact (unpacked_lt_iff hx hy).mpr h

/-- A double is at most another one when both are numbers and their places say so. -/
theorem le_iff : x ≤ y ↔ x.isNotANumber = false ∧ y.isNotANumber = false ∧ x.place ≤ y.place := by
  have hmodel : x ≤ y ↔ x.toFloat.toModel.unpack.le y.toFloat.toModel.unpack = true :=
    decide_eq_true_iff
  rw [hmodel, unpack_toFloat, unpack_toFloat, isNotANumber_eq_false_iff, isNotANumber_eq_false_iff]
  constructor
  · intro h
    obtain ⟨hsome, _⟩ := (Option.any_eq_true_iff_get _ _).mp h
    obtain ⟨hx, hy⟩ := ne_notANumber_of_compare (Option.some_get hsome).symm
    exact ⟨hx, hy, (unpacked_le_iff hx hy).mp h⟩
  · rintro ⟨hx, hy, h⟩
    exact (unpacked_le_iff hx hy).mpr h

theorem le_trans_of_numbers (hxy : x ≤ y) (hyz : y ≤ z) : x ≤ z := by
  rw [le_iff] at hxy hyz ⊢
  exact ⟨hxy.1, hyz.2.1, hxy.2.2.trans hyz.2.2⟩

theorem le_of_not_lt (hx : x.isNotANumber = false) (hy : y.isNotANumber = false) (h : ¬x < y) :
    y ≤ x := by
  rw [lt_iff, and_iff_right hx, and_iff_right hy, not_lt] at h
  exact le_iff.mpr ⟨hy, hx, h⟩

theorem le_self (h : x.isNotANumber = false) : x ≤ x := le_iff.mpr ⟨h, h, le_rfl⟩

/-- A number between zero and a finite one is finite. -/
theorem isFinite_of_le (hlow : ofInt 0 ≤ x) (hhigh : x ≤ y) (hy : y.isFinite = true) :
    x.isFinite = true := by
  obtain ⟨_, hx, hlow⟩ := le_iff.mp hlow
  obtain ⟨_, _, hhigh⟩ := le_iff.mp hhigh
  rw [isFinite_eq, unpacked_isFinite_iff] at hy ⊢
  have hzero : placeOf (.infinity .negative) < (ofInt 0).place := by decide +kernel
  exact ⟨x.isNotANumber_eq_false_iff.mp hx, hzero.trans_le hlow, hhigh.trans_lt hy.2.2⟩

/-- What is clamped lies within the bounds, if it is a number. -/
theorem clampTo_mem (h : lo ≤ hi) (hx : x.isNotANumber = false) :
    lo ≤ clampTo lo hi x ∧ clampTo lo hi x ≤ hi := by
  obtain ⟨hlo, hhi, _⟩ := le_iff.mp h
  unfold clampTo
  split_ifs with hlow hhigh
  · exact ⟨le_self hlo, h⟩
  · exact ⟨h, le_self hhi⟩
  · exact ⟨le_of_not_lt hx hlo hlow, le_of_not_lt hhi hx hhigh⟩

theorem clampTo_of_isNotANumber (hx : x.isNotANumber = true) : clampTo lo hi x = x := by
  have hlow : ¬x < lo := fun h => absurd (lt_iff.mp h).1 (by rw [hx]; exact nofun)
  have hhigh : ¬hi < x := fun h => absurd (lt_iff.mp h).2.1 (by rw [hx]; exact nofun)
  rw [clampTo, if_neg hlow, if_neg hhigh]

end Comparison

section Sums

variable {x y : Double}

/-- A sum is no number when one of its parts is none. -/
theorem isNotANumber_add (h : x.isNotANumber = true ∨ y.isNotANumber = true) :
    (x + y).isNotANumber = true := by
  by_cases hx : x.isNotANumber = true
  · have hsum : x + y = x.quieted := if_pos hx
    rw [hsum]
    exact x.isNotANumber_quieted hx
  · have hy : y.isNotANumber = true := h.resolve_left hx
    have hsum : x + y = y.quieted := (if_neg hx).trans (if_pos hy)
    rw [hsum]
    exact y.isNotANumber_quieted hy

/-- Only two infinities can have a sum that is no number without being so themselves. -/
theorem isNotANumber_add_of_isFinite (hx : x.isFinite = true) (hy : y.isNotANumber = false) :
    (x + y).isNotANumber = false := by
  rw [isFinite_eq] at hx
  rw [isNotANumber_eq_false_iff] at hy
  have hxnumber : ¬x.isNotANumber = true := fun h =>
    (unpacked_isFinite_iff.mp hx).1 (x.isNotANumber_iff.mp h)
  have hynumber : ¬y.isNotANumber = true := fun h => hy (y.isNotANumber_iff.mp h)
  have hsum : x + y = ofFloat (x.toFloat + y.toFloat) :=
    (if_neg hxnumber).trans (if_neg hynumber)
  have hmodel : (x.toFloat + y.toFloat).toModel.unpack = UnpackedFloat.unpack .binary64
      (UnpackedFloat.pack .binary64 (UnpackedFloat.add .binary64 x.toFloat.toModel.unpack
        y.toFloat.toModel.unpack)) := rfl
  rw [unpack_toFloat, unpack_toFloat] at hmodel
  rw [hsum]
  refine isNotANumber_ofFloat ?_
  rw [hmodel]
  exact unpack_pack_ne_notANumber (add_ne_notANumber hx hy)

end Sums

section Equality

variable {x y : Double}

/-- A double keeps its bits as a number, if it is one. -/
theorem toBits_toFloat (h : x.toFloat ≠ Float.nan) : x.toFloat.toBits = x.bits := by
  have hbits : x.toFloat.toBits.toBitVec =
      UnpackedFloat.pack .binary64 (UnpackedFloat.unpack .binary64 x.bits.toBitVec) := rfl
  rw [UnpackedFloat.pack_unpack] at hbits
  split at hbits
  · -- All words of this kind become the one value that is no number.
    have hnan : Float.nan.toBits.toBitVec = UnpackedFloat.packedNaN .binary64 := by decide +kernel
    have hsame : x.toFloat.toBits = Float.nan.toBits :=
      UInt64.toBitVec_inj.mp (hbits.trans hnan.symm)
    exact absurd (Float.toBits_inj.mp hsame) h
  · exact UInt64.toBitVec_inj.mp hbits

/-- Doubles that are equal as numbers are equal in their bits, unless they are zeros. -/
theorem eq_of_beq (h : (x == y) = true) (hy : (y == ofInt 0) = false) : x = y := by
  have hnumbers : (x.toFloat == y.toFloat) = true := h
  have hzero : (y.toFloat == (ofInt 0).toFloat) = false := hy
  obtain ⟨hx, hy, hsame | ⟨_, hplus⟩ | ⟨_, hminus⟩⟩ := Float.beq_iff_ne_nan_and_eq.mp hnumbers
  · have hbits : x.bits = y.bits := by
      rw [← toBits_toFloat hx, ← toBits_toFloat hy, hsame]
    cases x
    cases y
    exact congrArg mk hbits
  · rw [hplus] at hzero
    exact absurd hzero (by decide +kernel)
  · rw [hminus] at hzero
    exact absurd hzero (by decide +kernel)

theorem eq_ofInt_five (h : (x == 5.0) = true) : x = ofInt 5 := by
  have hfive : (5.0 : Double) = ofInt 5 := by decide +kernel
  have hzero : (ofInt 5 == ofInt 0) = false := by decide +kernel
  rw [hfive] at h
  exact eq_of_beq h hzero

end Equality

end PetDuel.Double
