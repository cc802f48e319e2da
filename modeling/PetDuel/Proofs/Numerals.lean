import PetDuel.Proofs.Pieces
import PetDuel.Skill.Basic

/-!
Reading back what was written: whole numbers, slots and flags survive their own texts, with or
without the blanks that a reader takes away first. Numbers are written without blanks and without
the marks of a row.
-/

namespace PetDuel

namespace Text

theorem isBlank_of_isDigit {c : Char} (h : c.isDigit = true) : isBlank c = false := by
  obtain ⟨hlow, hhigh⟩ := Char.isDigit_iff_toNat.mp h
  have hzero : '0'.toNat = 48 := rfl
  have hnine : '9'.toNat = 57 := rfl
  refine List.any_eq_false.mpr fun r hr => ?_
  simp only [blankRanges, List.mem_cons, List.not_mem_nil, or_false] at hr
  simp only [Bool.and_eq_true, decide_eq_true_eq, not_and]
  rcases hr with rfl | rfl | rfl | rfl | rfl | rfl | rfl | rfl | rfl | rfl <;> omega

theorem trim_eq_self {s : String} (h : ∀ c ∈ s.toList, isBlank c = false) : trim s = s :=
  (tight_of_forall h).trim_eq

end Text

namespace Number

theorem toList_repr (n : Nat) : n.repr.toList = Nat.toDigits 10 n := by
  rw [Nat.repr_eq_ofList_toDigits, String.toList_ofList]

theorem isDigit_of_mem {n : Nat} {c : Char} (h : c ∈ Nat.toDigits 10 n) : c.isDigit = true :=
  Nat.isDigit_of_mem_toDigits (by decide) (by decide) h

theorem digits?_toDigits (n : Nat) : digits? (Nat.toDigits 10 n) = some n := by
  have hsome : (Nat.toDigits 10 n).isEmpty = false := by
    rw [List.isEmpty_eq_false_iff]
    exact Nat.toDigits_ne_nil
  have hall : (Nat.toDigits 10 n).all Char.isDigit = true :=
    List.all_eq_true.mpr fun _ hc => isDigit_of_mem hc
  rw [digits?, hsome, hall, Nat.ofDigitChars_ten_toDigits]
  rfl

theorem natList?_toDigits (n : Nat) : natList? (Nat.toDigits 10 n) = some n := by
  unfold natList?
  split
  · -- No digit is a sign.
    rename_i cs hcs
    have hplus : ('+').isDigit = true := isDigit_of_mem (n := n) (hcs ▸ List.mem_cons_self)
    cases hplus
  · exact digits?_toDigits n

theorem intList?_toDigits (n : Nat) : intList? (Nat.toDigits 10 n) = some (n : Int) := by
  unfold intList?
  split
  · rename_i cs hcs
    have hminus : ('-').isDigit = true := isDigit_of_mem (n := n) (hcs ▸ List.mem_cons_self)
    cases hminus
  · rw [natList?_toDigits]
    rfl

theorem toList_repr_neg {n : Int} (h : n < 0) :
    n.repr.toList = '-' :: Nat.toDigits 10 n.natAbs := by
  have habs : (-n).toNat = n.natAbs := by omega
  rw [Int.repr_eq_if, if_neg (by omega), habs, String.toList_append, toList_repr]
  rfl

theorem toList_repr_nonneg {n : Int} (h : 0 ≤ n) : n.repr.toList = Nat.toDigits 10 n.natAbs := by
  have habs : n.toNat = n.natAbs := by omega
  rw [Int.repr_eq_if, if_pos h, habs, toList_repr]

/-- A whole number is read back from its text, whatever its sign. -/
theorem intList?_repr (n : Int) : intList? n.repr.toList = some n := by
  by_cases h : 0 ≤ n
  · rw [toList_repr_nonneg h, intList?_toDigits]
    exact congrArg some (Int.natAbs_of_nonneg h)
  · have hneg : n < 0 := by omega
    have hvalue : -(n.natAbs : Int) = n := by omega
    rw [toList_repr_neg hneg]
    simp only [intList?, digits?_toDigits]
    exact congrArg some hvalue

def isNumeral (c : Char) : Bool :=
  c.isDigit || "-.infNa".toList.contains c

section Numeral

variable {c : Char}

theorem isNumeral_of_isDigit (h : c.isDigit = true) : isNumeral c = true := by
  rw [isNumeral, h, Bool.true_or]

/-- No numeral has a blank in it, so trimming leaves it as it is. -/
theorem not_isBlank_of_isNumeral (h : isNumeral c = true) : Text.isBlank c = false := by
  have hletters : "-.infNa".toList.all (fun c => !Text.isBlank c) = true := by decide
  rw [isNumeral, Bool.or_eq_true] at h
  rcases h with hdigit | hletter
  · exact Text.isBlank_of_isDigit hdigit
  · have hc := List.all_eq_true.mp hletters c (List.contains_iff_mem.mp hletter)
    rwa [Bool.not_eq_true'] at hc

theorem not_mem_of_isNumeral {mark : Char} {cs : List Char} (hmark : isNumeral mark = false)
    (h : ∀ c ∈ cs, isNumeral c = true) : mark ∉ cs := by
  intro hmem
  rw [h mark hmem] at hmark
  cases hmark

/-- A number of 32 bits is written as a numeral. -/
theorem isNumeral_of_mem_showInt32 {n : Int32} (h : c ∈ (showInt32 n).toList) :
    isNumeral c = true := by
  unfold showInt32 at h
  by_cases hn : 0 ≤ n.toInt
  · rw [toList_repr_nonneg hn] at h
    exact isNumeral_of_isDigit (isDigit_of_mem h)
  · have hneg : n.toInt < 0 := by omega
    rw [toList_repr_neg hneg] at h
    rcases List.mem_cons.mp h with rfl | hdigit
    · decide
    · exact isNumeral_of_isDigit (isDigit_of_mem hdigit)

end Numeral

/-- A 32-bit number survives its text. -/
theorem int32?_showInt32 (n : Int32) : int32? (Text.trim (showInt32 n)) = some n := by
  have htrim : Text.trim (showInt32 n) = showInt32 n :=
    Text.trim_eq_self fun _ hc => not_isBlank_of_isNumeral (isNumeral_of_mem_showInt32 hc)
  have hlow : Int32.minValue.toInt ≤ n.toInt := n.minValue_le_toInt
  have hhigh : n.toInt ≤ Int32.maxValue.toInt := n.toInt_le
  rw [htrim, int32?, showInt32, intList?_repr, Option.bind_some]
  simp only [hlow, hhigh, decide_true, Bool.and_self, if_true, Int32.ofInt_toInt]

/-- A slot survives its text. -/
theorem index?_repr {n : Nat} (h : n < UInt64.size) : index? (Text.trim n.repr) = some n := by
  have htrim : Text.trim n.repr = n.repr := Text.trim_eq_self fun c hc => by
    rw [toList_repr] at hc
    exact Text.isBlank_of_isDigit (isDigit_of_mem hc)
  rw [htrim, index?, toList_repr, natList?_toDigits, Option.bind_some, if_pos h]

theorem lt_of_index? {s : String} {n : Nat} (h : index? s = some n) : n < UInt64.size := by
  obtain ⟨m, _, hm⟩ := Option.bind_eq_some_iff.mp h
  split at hm
  · rename_i hlt
    exact Option.some.inj hm ▸ hlt
  · cases hm

end Number

namespace Double

open Number (isNumeral)

variable {c : Char}

/-- Positional notation adds zeros and a point to the digits. -/
theorem mem_positional {ds : List Char} {e : Int} (h : c ∈ positional ds e) :
    c ∈ ds ∨ c = '0' ∨ c = '.' := by
  unfold positional at h
  split at h
  · rcases List.mem_append.mp h with h | h
    · exact .inl h
    · exact .inr (.inl (List.eq_of_mem_replicate h))
  · -- The digits are filled up with zeros before the point is put among them.
    have hpadded {n : Nat} (h : c ∈ List.replicate n '0' ++ ds) :
        c ∈ ds ∨ c = '0' ∨ c = '.' := by
      rcases List.mem_append.mp h with h | h
      · exact .inr (.inl (List.eq_of_mem_replicate h))
      · exact .inl h
    rcases List.mem_append.mp h with h | h
    · exact hpadded (List.mem_of_mem_take h)
    · rcases List.mem_cons.mp h with h | h
      · exact .inr (.inr h)
      · exact hpadded (List.mem_of_mem_drop h)

/-- A double is written in the characters of numbers. -/
theorem isNumeral_of_mem_toText {x : Double} (h : c ∈ x.toText.toList) : isNumeral c = true := by
  -- A sign may stand in front of whatever is written as digits.
  have hsigned {cs : List Char} (hcs : cs.all isNumeral = true)
      (h : c ∈ (String.ofList ((if x.dyadic.negative then ['-'] else []) ++ cs)).toList) :
      isNumeral c = true := by
    rw [String.toList_ofList] at h
    rcases List.mem_append.mp h with h | h
    · split at h
      · cases List.mem_singleton.mp h
        decide
      · cases h
    · exact List.all_eq_true.mp hcs c h
  have hname : "NaN".toList.all isNumeral = true := by decide
  unfold toText at h
  split at h
  · exact List.all_eq_true.mp hname c h
  · extract_lets d sign at h
    generalize shortest d = digits at h
    obtain ⟨n, e⟩ := digits
    split at h
    · exact hsigned (by decide) h
    · split at h
      · exact hsigned (by decide) h
      · refine hsigned (List.all_eq_true.mpr ?_) h
        intro c hc
        rcases mem_positional hc with hdigit | rfl | rfl
        · exact Number.isNumeral_of_isDigit (Number.isDigit_of_mem hdigit)
        · decide
        · decide

end Double

theorem flag?_showFlag (b : Bool) : flag? (showFlag b) = some b := by
  cases b <;> decide

end PetDuel
