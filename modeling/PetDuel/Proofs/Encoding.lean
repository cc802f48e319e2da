import Mathlib.Algebra.Group.Nat.Defs
import Mathlib.Data.List.Basic
import PetDuel.Snapshot.Bytes

/-!
What the codes of a snapshot tell. A code ends where its own bytes say it does, so that one code
can follow another without a separator: from the bytes of two values, whatever follows them, it can
be told that the values agree.
-/

namespace PetDuel.Snapshot

/-- Codes of at least one byte from which `f` can be told: when two of them begin the same bytes,
then `f` agrees, and so do the bytes that follow. The number of all bytes fits a word, as the length
of every list in them then does. -/
structure Tells {α β : Type} (code : α → List UInt8) (f : α → β) : Prop where
  nonempty : ∀ x, code x ≠ []
  peel : ∀ x y u v, code x ++ u = code y ++ v → (code x ++ u).length < 256 ^ 8 →
    f x = f y ∧ u = v

abbrev Faithful {α : Type} (code : α → List UInt8) : Prop := Tells code id

section Codes

variable {α β γ : Type} {code : α → List UInt8} {f : α → β}

theorem Tells.imp {g : α → γ} (h : Tells code f) (hg : ∀ x y, f x = f y → g x = g y) :
    Tells code g := by
  refine ⟨h.nonempty, fun x y u v hbytes hlength => ?_⟩
  obtain ⟨hf, hrest⟩ := h.peel x y u v hbytes hlength
  exact ⟨hg x y hf, hrest⟩

/-- The code of a field tells what it tells of the field. -/
theorem Tells.on (h : Tells code f) (field : γ → α) :
    Tells (fun x => code (field x)) fun x => f (field x) :=
  ⟨fun x => h.nonempty (field x), fun x y => h.peel (field x) (field y)⟩

/-- A code with another code behind it tells what the two tell. -/
theorem Tells.and {code' : α → List UInt8} {g : α → γ} (h : Tells code f) (h' : Tells code' g) :
    Tells (fun x => code x ++ code' x) fun x => (f x, g x) := by
  refine ⟨fun x => List.append_ne_nil_of_left_ne_nil (h.nonempty x) _, fun x y u v hb hl => ?_⟩
  rw [List.append_assoc, List.append_assoc] at hb
  rw [List.append_assoc] at hl
  obtain ⟨hf, hrest⟩ := h.peel x y _ _ hb hl
  have hl' : (code' x ++ u).length < 256 ^ 8 := by
    have hadd := @List.length_append _ (code x) (code' x ++ u)
    omega
  obtain ⟨hg, hrest'⟩ := h'.peel x y u v hrest hl'
  exact ⟨Prod.ext hf hg, hrest'⟩

/-- Of as many elements, one code after the other tells what each code tells. -/
theorem Tells.flatMap (h : Tells code f) (xs ys : List α) (u v : List UInt8)
    (hcount : xs.length = ys.length) (hbytes : xs.flatMap code ++ u = ys.flatMap code ++ v)
    (hlength : (xs.flatMap code ++ u).length < 256 ^ 8) : xs.map f = ys.map f ∧ u = v := by
  induction xs generalizing ys with
  | nil =>
    cases List.length_eq_zero_iff.mp hcount.symm
    exact ⟨rfl, hbytes⟩
  | cons x xs ih =>
    obtain ⟨y, ys, rfl⟩ := List.exists_cons_of_length_eq_add_one hcount.symm
    rw [List.flatMap_cons, List.append_assoc] at hbytes hlength
    rw [List.flatMap_cons, List.append_assoc] at hbytes
    obtain ⟨hx, hrest⟩ := h.peel x y _ _ hbytes hlength
    have hlength' : (xs.flatMap code ++ u).length < 256 ^ 8 := by
      have hadd := @List.length_append _ (code x) (xs.flatMap code ++ u)
      omega
    obtain ⟨hxs, hend⟩ := ih ys (Nat.succ.inj hcount) hrest hlength'
    exact ⟨congrArg₂ List.cons hx hxs, hend⟩

/-- Codes have at least one byte each, so there are no more of them than bytes. This bounds the
length of a list by that of its code. -/
theorem Tells.length_le_flatMap (h : Tells code f) (xs : List α) :
    xs.length ≤ (xs.flatMap code).length := by
  induction xs with
  | nil => exact Nat.zero_le _
  | cons x xs ih =>
    have hone : 0 < (code x).length := List.length_pos_iff.mpr (h.nonempty x)
    rw [List.flatMap_cons, List.length_append, List.length_cons]
    omega

/-- A vector needs no length in front, as its length is known. -/
theorem Tells.vector (h : Tells code f) {n : Nat} (hn : n ≠ 0) :
    Tells (fun xs : Vector α n => xs.toList.flatMap code) fun xs => xs.toList.map f := by
  refine ⟨fun xs hnil => ?_, fun xs ys u v => h.flatMap xs.toList ys.toList u v ?_⟩
  · have hle := h.length_le_flatMap xs.toList
    rw [hnil, Vector.length_toList] at hle
    exact hn (Nat.le_zero.mp hle)
  · rw [Vector.length_toList, Vector.length_toList]

theorem Faithful.vector (h : Faithful code) {n : Nat} (hn : n ≠ 0) :
    Faithful fun xs : Vector α n => xs.toList.flatMap code := by
  refine (Tells.vector h hn).imp fun xs ys hsame => ?_
  rw [List.map_id, List.map_id] at hsame
  exact Vector.toList_inj.mp hsame

end Codes

/-- Of two numbers with the same low bytes in front, the low bytes are equal, and so is what
follows: by induction on the width, a byte at a time. -/
theorem littleEndian_peel (width m n : Nat) (u v : List UInt8)
    (h : littleEndian width m ++ u = littleEndian width n ++ v) :
    m % 256 ^ width = n % 256 ^ width ∧ u = v := by
  induction width generalizing m n with
  | zero => exact ⟨by rw [Nat.pow_zero, Nat.mod_one, Nat.mod_one], h⟩
  | succ width ih =>
    obtain ⟨hlow, hrest⟩ := List.cons.inj h
    obtain ⟨hhigh, hend⟩ := ih (m / 256) (n / 256) hrest
    have hbyte : m % 256 = n % 256 := by
      have hnat := congrArg UInt8.toNat hlow
      rwa [UInt8.toNat_ofNat', UInt8.toNat_ofNat'] at hnat
    refine ⟨?_, hend⟩
    rw [Nat.pow_succ', Nat.mod_mul, Nat.mod_mul, hbyte, hhigh]

theorem tells_littleEndian (width : Nat) :
    Tells (littleEndian (width + 1)) fun n => n % 256 ^ (width + 1) :=
  ⟨fun _ => List.cons_ne_nil _ _, fun m n u v h _ => littleEndian_peel (width + 1) m n u v h⟩

/-- A number that fits its width is told by its bytes. -/
theorem faithful_littleEndian {α : Type} (width : Nat) {number : α → Nat}
    (hfits : ∀ x, number x < 256 ^ (width + 1)) (hinj : Function.Injective number) :
    Faithful fun x => littleEndian (width + 1) (number x) := by
  refine ((tells_littleEndian width).on number).imp fun x y hsame => hinj ?_
  rwa [Nat.mod_eq_of_lt (hfits x), Nat.mod_eq_of_lt (hfits y)] at hsame

theorem faithful_uint32 : Faithful uint32 :=
  faithful_littleEndian 3 UInt32.toNat_lt fun _ _ => UInt32.toNat_inj.mp

theorem faithful_uint64 : Faithful uint64 :=
  faithful_littleEndian 7 UInt64.toNat_lt fun _ _ => UInt64.toNat_inj.mp

theorem faithful_int32 : Faithful int32 := by
  refine (faithful_uint32.on Int32.toUInt32).imp fun x y hsame => ?_
  cases x
  cases y
  exact congrArg Int32.ofUInt32 hsame

theorem faithful_double : Faithful double := by
  refine (faithful_uint64.on Double.bits).imp fun x y hsame => ?_
  cases x
  cases y
  exact congrArg Double.mk hsame

theorem tells_size : Tells size fun n => n % 256 ^ 8 := tells_littleEndian 7

theorem faithful_flag : Faithful flag := by
  refine ⟨fun b => List.cons_ne_nil _ _, fun x y u v h _ => ?_⟩
  obtain ⟨hbyte, hrest⟩ := List.cons.inj h
  refine ⟨?_, hrest⟩
  cases x <;> cases y <;> first | rfl | cases hbyte

/-- A variant is told by its place among its kind. -/
theorem faithful_variant {α : Type} [DecidableEq α] (all : List α) (hall : ∀ x, x ∈ all)
    (hfew : all.length ≤ 256 ^ 4) : Faithful fun x => variant (all.idxOf x) := by
  refine faithful_littleEndian 3 (fun x => ?_) fun x y => (List.idxOf_inj (hall x)).mp
  exact Nat.lt_of_lt_of_le (List.idxOf_lt_length_of_mem (hall x)) hfew

section Lists

variable {α β : Type} {code : α → List UInt8} {f : α → β}

/-- The length in front of a list says where its codes end, as long as the length fits a word. -/
theorem Tells.list (h : Tells code f) : Tells (list code) (List.map f) := by
  refine ⟨fun xs => List.append_ne_nil_of_left_ne_nil (tells_size.nonempty _) _,
    fun xs ys u v hbytes hlength => ?_⟩
  rw [Snapshot.list, Snapshot.list, List.append_assoc, List.append_assoc] at hbytes
  rw [Snapshot.list, List.append_assoc] at hlength
  obtain ⟨hsize, hrest⟩ := tells_size.peel xs.length ys.length _ _ hbytes hlength
  -- Each element has at least one byte, so that both lengths fit the word they are written in.
  have hx : xs.length + u.length ≤ (xs.flatMap code ++ u).length := by
    rw [List.length_append]
    exact Nat.add_le_add_right (h.length_le_flatMap xs) _
  have hy : ys.length + v.length ≤ (xs.flatMap code ++ u).length := by
    rw [hrest, List.length_append]
    exact Nat.add_le_add_right (h.length_le_flatMap ys) _
  have hfits : (xs.flatMap code ++ u).length < 256 ^ 8 := by
    have hadd := @List.length_append _ (size xs.length) (xs.flatMap code ++ u)
    omega
  have hcount : xs.length = ys.length := by omega
  exact h.flatMap xs ys u v hcount hrest hfits

theorem Faithful.list (h : Faithful code) : Faithful (list code) := by
  refine (Tells.list h).imp fun xs ys hsame => ?_
  rwa [List.map_id, List.map_id] at hsame

/-- A flag in front says whether there is something to follow. -/
theorem Faithful.optional (h : Faithful code) : Faithful (optional code) := by
  refine ⟨fun o => by cases o <;> exact List.cons_ne_nil _ _, fun o p u v hbytes hlength => ?_⟩
  cases o with
  | none =>
    cases p with
    | none => exact ⟨rfl, (List.cons.inj hbytes).2⟩
    | some y => exact absurd (List.cons.inj hbytes).1 (by decide)
  | some x =>
    cases p with
    | none => exact absurd (List.cons.inj hbytes).1 (by decide)
    | some y =>
      have hlength' : (code x ++ u).length < 256 ^ 8 := Nat.lt_of_succ_lt hlength
      obtain ⟨hsame, hrest⟩ := h.peel x y u v (List.cons.inj hbytes).2 hlength'
      exact ⟨congrArg some hsame, hrest⟩

end Lists

theorem faithful_byte : Faithful fun b : UInt8 => [b] :=
  ⟨fun _ => List.cons_ne_nil _ _, fun _ _ _ _ h _ => List.cons.inj h⟩

theorem faithful_text : Faithful text := by
  refine (faithful_byte.list.on fun s : String => s.toUTF8.data.toList).imp fun s t hsame => ?_
  have hdata : s.toUTF8.data = t.toUTF8.data := Array.toList_inj.mp hsame
  exact String.toByteArray_inj.mp (ByteArray.ext hdata)

end PetDuel.Snapshot
