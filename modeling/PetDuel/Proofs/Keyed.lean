import Mathlib.Data.List.Induction
import PetDuel.Options

/-!
Lists found by a key. What is found is the entry that was put last.
-/

namespace PetDuel.Keyed

variable {κ α : Type} [DecidableEq κ] {key : α → κ} {k : κ} {x : α}

/-- What was put is found. -/
theorem find?_put_self (x : α) (xs : List α) : find? key (key x) (put key x xs) = some x := by
  induction xs with
  | nil => exact List.find?_cons_of_pos (beq_self_eq_true _)
  | cons y ys ih =>
    unfold put
    split
    · exact List.find?_cons_of_pos (beq_self_eq_true _)
    · rename_i hy
      exact (List.find?_cons_of_neg (by simpa using hy)).trans ih

/-- Other keys find what they found. -/
theorem find?_put_of_ne (h : k ≠ key x) (xs : List α) :
    find? key k (put key x xs) = find? key k xs := by
  have hx : (key x == k) = false := beq_false_of_ne h.symm
  induction xs with
  | nil => exact List.find?_cons_of_neg (Bool.not_eq_true _ ▸ hx)
  | cons y ys ih =>
    unfold put
    split
    · rename_i hy
      have hy' : (key y == k) = false := hy ▸ hx
      simp only [find?, List.find?_cons, hx, hy']
    · unfold find? at ih ⊢
      rw [List.find?_cons, List.find?_cons, ih]

/-- Putting the entry that is found changes nothing. -/
theorem put_eq_of_find?_eq_some {xs : List α} (h : find? key (key x) xs = some x) :
    put key x xs = xs := by
  induction xs with
  | nil => cases h
  | cons y ys ih =>
    rw [find?, List.find?_cons] at h
    by_cases hy : key y = key x
    · rw [beq_of_eq hy] at h
      rw [put, if_pos hy, Option.some.inj h]
    · rw [beq_false_of_ne hy] at h
      rw [put, if_neg hy, ih h]

/-- Where each key stands at most once, an erased key is gone and the others are found as before. -/
theorem find?_eraseP {xs : List α} (h : (xs.map key).Nodup) (k k' : κ) :
    find? key k' (xs.eraseP fun x => key x == k) = if k = k' then none else find? key k' xs := by
  induction xs with
  | nil => exact (ite_self _).symm
  | cons y ys ih =>
    obtain ⟨hy, hys⟩ := List.nodup_cons.mp h
    -- A key stands at one place only, so behind an erased entry there is no other with it.
    by_cases hkey : key y = k
    · subst hkey
      rw [List.eraseP_cons, beq_self_eq_true, cond_true]
      split
      · rename_i hk
        refine List.find?_eq_none.mpr fun x hx hxk => hy ?_
        rw [hk, ← eq_of_beq hxk]
        exact List.mem_map_of_mem hx
      · rename_i hk
        exact (List.find?_cons_of_neg (by simpa using hk)).symm
    · rw [List.eraseP_cons, beq_false_of_ne hkey, cond_false]
      by_cases hk' : key y = k'
      · subst hk'
        rw [if_neg (Ne.symm hkey)]
        unfold find?
        rw [List.find?_cons, List.find?_cons, beq_self_eq_true]
      · unfold find? at ih ⊢
        rw [List.find?_cons, List.find?_cons, beq_false_of_ne hk']
        exact ih hys

/-- Of the entries that are put one after the other, the last one with a key is found. -/
theorem find?_foldl_put (key : α → κ) (k : κ) (xs ys : List α) :
    find? key k (xs.foldl (fun ys x => put key x ys) ys) =
      (xs.filter fun x => key x == k).getLast?.or (find? key k ys) := by
  induction xs generalizing ys with
  | nil => rfl
  | cons x xs ih =>
    rw [List.foldl_cons, ih, List.filter_cons]
    by_cases hx : key x = k
    · subst hx
      rw [find?_put_self, if_pos (beq_self_eq_true _), List.getLast?_cons]
      cases (xs.filter fun y => key y == key x).getLast? <;> rfl
    · rw [find?_put_of_ne (Ne.symm hx), if_neg fun h => hx (beq_iff_eq.mp h)]

theorem mem_of_mem_put {y : α} {xs : List α} (h : y ∈ put key x xs) : y = x ∨ y ∈ xs := by
  induction xs with
  | nil => exact .inl (List.mem_singleton.mp h)
  | cons z zs ih =>
    unfold put at h
    split at h
    · exact (List.mem_cons.mp h).imp_right (List.mem_cons_of_mem z)
    · rcases List.mem_cons.mp h with rfl | h
      · exact .inr List.mem_cons_self
      · exact (ih h).imp_right (List.mem_cons_of_mem z)

/-- A key that is there keeps its place, and a new one comes last. -/
theorem map_put (x : α) (xs : List α) : (put key x xs).map key =
    if key x ∈ xs.map key then xs.map key else xs.map key ++ [key x] := by
  induction xs with
  | nil => rfl
  | cons y ys ih =>
    unfold put
    by_cases hy : key y = key x
    · rw [if_pos hy, List.map_cons, List.map_cons, hy, if_pos List.mem_cons_self]
    · have hmem : key x ∈ (y :: ys).map key ↔ key x ∈ ys.map key :=
        List.mem_cons.trans (or_iff_right (Ne.symm hy))
      rw [if_neg hy, List.map_cons, ih]
      simp only [hmem]
      split <;> rfl

/-- The keys of entries that are put one after the other stand in the order in which each was put
first. -/
theorem map_foldl_put (key : α → κ) (xs : List α) :
    (xs.foldl (fun ys x => put key x ys) []).map key = (xs.map key).eraseDups := by
  induction xs using List.reverseRecOn with
  | nil => rfl
  | append_singleton xs x ih =>
    rw [List.foldl_append, List.foldl_cons, List.foldl_nil, map_put, ih, List.map_append,
      List.map_singleton, List.eraseDups_append]
    simp only [List.mem_eraseDups]
    split
    · rename_i hx
      have hgone : [key x].removeAll (xs.map key) = [] :=
        List.filter_cons_of_neg (by rw [List.elem_iff.mpr hx]; decide)
      rw [hgone, List.eraseDups_nil, List.append_nil]
    · rename_i hx
      have hstays : [key x].removeAll (xs.map key) = [key x] :=
        List.filter_cons_of_pos (by rw [Bool.eq_false_iff.mpr (mt List.elem_iff.mp hx)]; decide)
      rw [hstays]
      rfl

/-- Each key still stands at most once. -/
theorem nodup_put {xs : List α} (h : (xs.map key).Nodup) : ((put key x xs).map key).Nodup := by
  induction xs with
  | nil => exact List.pairwise_singleton _ _
  | cons z zs ih =>
    obtain ⟨hz, hzs⟩ := List.nodup_cons.mp h
    unfold put
    split
    · rename_i hkey
      rw [List.map_cons, ← hkey]
      exact h
    · rename_i hkey
      refine List.nodup_cons.mpr ⟨?_, ih hzs⟩
      intro hmem
      obtain ⟨y, hy, hyz⟩ := List.mem_map.mp hmem
      rcases mem_of_mem_put hy with rfl | hy
      · exact hkey hyz.symm
      · exact hz (hyz ▸ List.mem_map_of_mem hy)

/-- Entries with keys of their own keep their order. -/
theorem foldl_put_eq_append {xs ys : List α} (h : ((ys ++ xs).map key).Nodup) :
    xs.foldl (fun ys x => put key x ys) ys = ys ++ xs := by
  have hput {x : α} {ys : List α} (h : key x ∉ ys.map key) : put key x ys = ys ++ [x] := by
    induction ys with
    | nil => rfl
    | cons y ys ih =>
      have hy : key y ≠ key x := Ne.symm (List.ne_of_not_mem_cons h)
      rw [put, if_neg hy, ih (List.not_mem_of_not_mem_cons h), List.cons_append]
  induction xs generalizing ys with
  | nil => exact (List.append_nil ys).symm
  | cons x xs ih =>
    have hx : key x ∉ ys.map key := by
      rw [List.map_append, List.map_cons] at h
      intro hmem
      exact (List.nodup_append.mp h).2.2 _ hmem _ List.mem_cons_self rfl
    have hxs : ys ++ x :: xs = (ys ++ [x]) ++ xs := by rw [List.append_assoc, List.singleton_append]
    rw [List.foldl_cons, hput hx, ih (hxs ▸ h), hxs]

end PetDuel.Keyed
