import Mathlib.Data.List.Infix
import PetDuel.Text.Split

/-!
Texts put together from pieces, and cut into pieces again. A separator that no piece holds is found
where it was written, and blanks are taken from the ends once and for all.
-/

namespace PetDuel.Text

section Blanks

variable {cs ds : List Char} {c : Char} {s t : String}

structure Tight (cs : List Char) : Prop where
  first : ∀ c ∈ cs.head?, isBlank c = false
  last : ∀ c ∈ cs.getLast?, isBlank c = false

theorem dropWhile_isBlank_eq_self (h : ∀ c ∈ cs.head?, isBlank c = false) :
    cs.dropWhile isBlank = cs := by
  cases cs with
  | nil => rfl
  | cons c cs =>
    have hc : isBlank c = false := h c rfl
    exact List.dropWhile_cons_of_neg (Bool.eq_false_iff.mp hc)

theorem first_dropWhile_isBlank (cs : List Char) :
    ∀ c ∈ (cs.dropWhile isBlank).head?, isBlank c = false := by
  intro c hc
  have hfirst := List.head?_dropWhile_not isBlank cs
  rw [Option.mem_def.mp hc] at hfirst
  exact hfirst

theorem start_trimEnd (cs : List Char) : trimEnd cs <+: cs := by
  have hsuffix : cs.reverse.dropWhile isBlank <:+ cs.reverse := List.dropWhile_suffix isBlank
  have hprefix := List.reverse_prefix.mpr hsuffix
  rw [List.reverse_reverse] at hprefix
  exact hprefix

/-- A trimmed text has no blank at either end. -/
theorem tight_trimList (cs : List Char) : Tight (trimList cs) := by
  constructor
  · intro c hc
    -- What is left starts as it did before its end was cut off.
    obtain ⟨ds, hds⟩ := start_trimEnd (cs.dropWhile isBlank)
    obtain ⟨rest, hrest⟩ := List.head?_eq_some_iff.mp (Option.mem_def.mp hc)
    have hstart := first_dropWhile_isBlank cs
    rw [trimList] at hrest
    rw [← hds, hrest] at hstart
    exact hstart c rfl
  · rw [trimList, trimEnd, List.getLast?_reverse]
    exact first_dropWhile_isBlank _

theorem tight_of_forall (h : ∀ c ∈ cs, isBlank c = false) : Tight cs :=
  ⟨fun c hc => h c (List.mem_of_mem_head? hc), fun c hc => h c (List.mem_of_mem_getLast? hc)⟩

theorem tight_of_all (h : cs.all (fun c => !isBlank c) = true) : Tight cs := by
  apply tight_of_forall
  intro c hc
  exact (Bool.not_eq_true' _).mp (List.all_eq_true.mp h c hc)

theorem Tight.trimList_eq (h : Tight cs) : trimList cs = cs := by
  have hlast : ∀ c ∈ cs.reverse.head?, isBlank c = false := by
    rw [List.head?_reverse]
    exact h.last
  rw [trimList, dropWhile_isBlank_eq_self h.first, trimEnd, dropWhile_isBlank_eq_self hlast,
    List.reverse_reverse]

theorem Tight.trim_eq (h : Tight s.toList) : trim s = s := by
  rw [trim, h.trimList_eq, String.ofList_toList]

theorem tight_trim (s : String) : Tight (trim s).toList := by
  rw [toList_trim]
  exact tight_trimList s.toList

theorem mem_of_mem_trim (h : c ∈ (trim s).toList) : c ∈ s.toList := by
  rw [toList_trim] at h
  exact (List.dropWhile_suffix isBlank).subset ((start_trimEnd _).subset h)

/-- Two trimmed texts stay trimmed behind one another, when both are there. -/
theorem Tight.append (hcs : Tight cs) (hds : Tight ds) (hfirst : cs ≠ []) (hlast : ds ≠ []) :
    Tight (cs ++ ds) := by
  constructor
  · rw [List.head?_append_of_ne_nil cs hfirst]
    exact hcs.first
  · rw [List.getLast?_append_of_ne_nil cs hlast]
    exact hds.last

/-- Nothing stands between a mark and the blanks beyond it, but the mark is no blank. -/
theorem Tight.append_cons (hcs : Tight cs) (hds : Tight ds) (hfirst : cs ≠ [])
    (hc : isBlank c = false) : Tight (cs ++ c :: ds) := by
  have hmark : Tight [c] := by constructor <;> (intro d hd; cases hd; exact hc)
  by_cases hlast : ds = []
  · rw [hlast]
    exact hcs.append hmark hfirst (List.cons_ne_nil c [])
  · have hend : Tight (c :: ds) := hmark.append hds (List.cons_ne_nil c []) hlast
    exact hcs.append hend hfirst (List.cons_ne_nil c ds)

end Blanks

section Cut

variable {sep : Char} {cs ds piece rest : List Char}

theorem cutList_append (h : sep ∉ piece) :
    cutList sep (piece ++ sep :: rest) = some (piece, rest) := by
  induction piece with
  | nil => exact if_pos rfl
  | cons c piece ih =>
    have hc : c ≠ sep := Ne.symm (List.ne_of_not_mem_cons h)
    rw [List.cons_append, cutList, if_neg hc, ih (List.not_mem_of_not_mem_cons h)]
    rfl

/-- What is cut apart is joined again by the mark. -/
theorem eq_append_of_cutList (h : cutList sep cs = some (piece, rest)) :
    cs = piece ++ sep :: rest ∧ sep ∉ piece := by
  induction cs generalizing piece with
  | nil => cases h
  | cons c cs ih =>
    unfold cutList at h
    split at h
    · rename_i hc
      cases h
      rw [hc]
      exact ⟨rfl, List.not_mem_nil⟩
    · rename_i hc
      obtain ⟨⟨piece', rest'⟩, hcut, hp⟩ := Option.map_eq_some_iff.mp h
      cases hp
      obtain ⟨hcs, hpiece⟩ := ih hcut
      exact ⟨congrArg (c :: ·) hcs, List.not_mem_cons_of_ne_of_not_mem (Ne.symm hc) hpiece⟩

/-- A list of pieces is cut where it was joined, whatever its last piece holds. -/
theorem splitAtMost_intercalate {pieces : List (List Char)} (h : ∀ p ∈ pieces, sep ∉ p)
    (last : List Char) : splitAtMost sep pieces.length ([sep].intercalate (pieces ++ [last])) =
      pieces ++ [last] := by
  induction pieces with
  | nil => simp [splitAtMost]
  | cons p pieces ih =>
    obtain ⟨hp, hpieces⟩ := List.forall_mem_cons.mp h
    have hjoin : [sep].intercalate (p :: pieces ++ [last]) =
        p ++ sep :: [sep].intercalate (pieces ++ [last]) := by
      rw [List.cons_append, List.intercalate_cons_of_ne_nil (by simp)]
      simp
    rw [hjoin, List.length_cons, splitAtMost, cutList_append hp]
    exact congrArg (p :: ·) (ih hpieces)

theorem splitAtMost_ne_nil (sep : Char) (n : Nat) (cs : List Char) : splitAtMost sep n cs ≠ [] := by
  cases n with
  | zero => exact List.cons_ne_nil _ _
  | succ n =>
    unfold splitAtMost
    split <;> exact List.cons_ne_nil _ _

/-- Only the last piece can hold the separator. -/
theorem not_mem_of_mem_splitAtMost {n : Nat} (h : piece ∈ (splitAtMost sep n cs).dropLast) :
    sep ∉ piece := by
  induction n generalizing cs with
  | zero => cases h
  | succ n ih =>
    unfold splitAtMost at h
    split at h
    · cases h
    · rename_i p rest hcut
      rw [List.dropLast_cons_of_ne_nil (splitAtMost_ne_nil sep n rest)] at h
      rcases List.mem_cons.mp h with rfl | h
      · exact (eq_append_of_cutList hcut).2
      · exact ih h

end Cut

section Split

variable {sep : Char} {s : String}

/-- The pieces have no mark in them, and no character that the text does not have. -/
theorem mem_of_mem_splitOn {cs piece : List Char} {c : Char} (h : piece ∈ cs.splitOn sep)
    (hc : c ∈ piece) : c ≠ sep ∧ c ∈ cs := by
  induction cs generalizing piece with
  | nil =>
    rw [List.splitOn_nil] at h
    cases List.mem_singleton.mp h
    cases hc
  | cons d cs ih =>
    have hlater {p : List Char} (hp : p ∈ cs.splitOn sep) (hc : c ∈ p) : c ≠ sep ∧ c ∈ d :: cs :=
      ⟨(ih hp hc).1, List.mem_cons_of_mem d (ih hp hc).2⟩
    rw [List.splitOn_cons_eq_if_modifyHead] at h
    split at h
    · rcases List.mem_cons.mp h with rfl | h
      · cases hc
      · exact hlater h hc
    · rename_i hd
      -- The first character goes to the first of the later pieces.
      obtain ⟨first, others, hpieces⟩ := List.exists_cons_of_ne_nil (List.splitOn_ne_nil sep cs)
      rw [hpieces] at hlater
      rw [hpieces, List.modifyHead_cons] at h
      rcases List.mem_cons.mp h with rfl | h
      · rcases List.mem_cons.mp hc with rfl | hc
        · exact ⟨fun heq => hd (beq_iff_eq.mpr heq), List.mem_cons_self⟩
        · exact hlater List.mem_cons_self hc
      · exact hlater (List.mem_cons_of_mem _ h) hc

theorem cut?_append {key value : String} (h : sep ∉ key.toList) :
    cut? sep (key ++ String.singleton sep ++ value) = some (key, value) := by
  unfold cut?
  simp [cutList_append h]

theorem eq_append_of_cut? {left right : String} (h : cut? sep s = some (left, right)) :
    s.toList = left.toList ++ sep :: right.toList ∧ sep ∉ left.toList := by
  obtain ⟨⟨l, r⟩, hcut, hsides⟩ := Option.map_eq_some_iff.mp h
  cases hsides
  rw [String.toList_ofList, String.toList_ofList]
  exact eq_append_of_cutList hcut

/-- The pieces of a text join to the text. -/
theorem intercalate_split (sep : Char) (s : String) :
    (String.singleton sep).intercalate (split sep s) = s := by
  apply String.toList_inj.mp
  rw [String.toList_intercalate, split, List.map_map]
  simp [Function.comp_def, List.intercalate_splitOn]

/-- Joined pieces have their own characters and the mark between them. -/
theorem mem_of_mem_intercalate {pieces : List String} {c : Char}
    (h : c ∈ ((String.singleton sep).intercalate pieces).toList) :
    c = sep ∨ ∃ p ∈ pieces, c ∈ p.toList := by
  induction pieces with
  | nil => cases h
  | cons p pieces ih =>
    cases pieces with
    | nil => exact .inr ⟨p, List.mem_cons_self, h⟩
    | cons q pieces =>
      rw [String.intercalate_cons_cons, String.toList_append, String.toList_append,
        String.toList_singleton] at h
      rcases List.mem_append.mp h with h | h
      · rcases List.mem_append.mp h with h | h
        · exact .inr ⟨p, List.mem_cons_self, h⟩
        · exact .inl (List.mem_singleton.mp h)
      · rcases ih h with heq | ⟨r, hr, hc⟩
        · exact .inl heq
        · exact .inr ⟨r, List.mem_cons_of_mem p hr, hc⟩

/-- Pieces that do not hold the separator are found again where they were joined with it. -/
theorem split_intercalate {pieces : List String} (h : ∀ p ∈ pieces, sep ∉ p.toList)
    (hne : pieces ≠ []) : split sep ((String.singleton sep).intercalate pieces) = pieces := by
  have hlists : ∀ cs ∈ pieces.map String.toList, sep ∉ cs := by
    intro cs hcs
    obtain ⟨p, hp, rfl⟩ := List.mem_map.mp hcs
    exact h p hp
  have hsplit := List.splitOn_intercalate sep hlists fun hnil => hne (List.map_eq_nil_iff.mp hnil)
  rw [split, String.toList_intercalate, String.toList_singleton, hsplit, List.map_map]
  simp [Function.comp_def]

/-- A piece of a text holds characters of the text, and not the separator. -/
theorem mem_of_mem_split {piece : String} {c : Char} (h : piece ∈ split sep s)
    (hc : c ∈ piece.toList) : c ≠ sep ∧ c ∈ s.toList := by
  obtain ⟨cs, hcs, rfl⟩ := List.mem_map.mp h
  rw [String.toList_ofList] at hc
  exact mem_of_mem_splitOn hcs hc

end Split

end PetDuel.Text
