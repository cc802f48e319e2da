import PetDuel.Content.Row
import PetDuel.Proofs.DoubleOrder
import PetDuel.Proofs.OptionColumns
import PetDuel.Proofs.Selections

/-!
Rows of skills. A skill that was read from a row is written as a row that is read as the same skill:
no field holds a mark at which its row would be cut, and an option that is left out is read as what
it was.
-/

namespace PetDuel

/-- Columns are found where they were joined, whatever the last one holds. -/
theorem columns_intercalate {first : List String} (h : ∀ col ∈ first, ',' ∉ col.toList)
    (kind last : String) : columns kind (",".intercalate (first ++ [last])) (first.length + 1) =
      .ok (first ++ [last]).toArray := by
  have hfirst : ∀ cs ∈ first.map String.toList, ',' ∉ cs := by
    intro cs hcs
    obtain ⟨col, hcol, rfl⟩ := List.mem_map.mp hcs
    exact h col hcol
  have hsplit := Text.splitAtMost_intercalate hfirst last.toList
  have hline : (",".intercalate (first ++ [last])).toList =
      [','].intercalate (first.map String.toList ++ [last.toList]) := by
    rw [String.toList_intercalate, List.map_append]
    rfl
  have hback : (first.map String.toList ++ [last.toList]).map String.ofList = first ++ [last] := by
    simp [Function.comp_def]
  rw [List.length_map] at hsplit
  rw [columns, hline, Nat.add_sub_cancel, hsplit, hback, if_neg (by simp)]

/-- Only the last column of a row can hold the mark between columns. -/
theorem columns_eq_ok {kind line : String} {n : Nat} {cols : Array String}
    (h : columns kind line (n + 1) = .ok cols) : ∀ i < n, ',' ∉ (cols.getD i "").toList := by
  obtain ⟨pieces, hpieces⟩ : ∃ ps, Text.splitAtMost ',' n line.toList = ps := ⟨_, rfl⟩
  rw [columns, Nat.add_sub_cancel, hpieces] at h
  split at h
  · cases h
  · rename_i hlength
    cases h
    rw [List.length_map] at hlength
    intro i hi
    -- Every piece but the last one is free of the mark.
    have hlast : i < pieces.dropLast.length := by
      rw [List.length_dropLast]
      omega
    have hmem : pieces.dropLast[i] ∈ (Text.splitAtMost ',' n line.toList).dropLast := by
      rw [hpieces]
      exact List.getElem_mem hlast
    have hplain := Text.not_mem_of_mem_splitAtMost hmem
    rw [List.getElem_dropLast] at hplain
    have hcol : ((pieces.map String.ofList).toArray.getD i "").toList = pieces[i] := by
      have hsome : pieces[i]? = some pieces[i] := List.getElem?_eq_getElem (by omega)
      rw [Array.getD_eq_getD_getElem?, List.getElem?_toArray, List.getElem?_map, hsome]
      exact String.toList_ofList
    rw [hcol]
    exact hplain

theorem readInt_showInt32 (column : String) (n : Int32) :
    readInt column (Number.showInt32 n) = .ok n := by
  rw [readInt, Number.int32?_showInt32]

theorem SkillKind.ofCode?_code (kind : SkillKind) : ofCode? kind.code = some kind := by
  cases kind <;> rfl

/-- Whether the text of a number is read as the number. -/
def Double.KeptByText (x : Double) : Prop :=
  x.isNotANumber = false → ofText? x.toText = some x

/-- What a double is read back as: of the values that are no number, the one that has a text. -/
def Double.reread (x : Double) : Double :=
  if x.isNotANumber then notANumber else x

/-- A double is read back as it is, or it was no number and is none afterwards. -/
theorem Double.reread_cases (x : Double) :
    x.reread = x ∨ x.reread.isNotANumber = true ∧ x.isNotANumber = true := by
  unfold reread
  split
  · rename_i hnumber
    exact .inr ⟨by decide, hnumber⟩
  · exact .inl rfl

/-- A double is written as what it is read back as. -/
theorem Double.reread_written (x : Double) :
    (x.reread != 5.0) = (x != 5.0) ∧ x.reread.toText = x.toText := by
  rcases x.reread_cases with hsame | ⟨hreread, hx⟩
  · rw [hsame]
    exact ⟨rfl, rfl⟩
  · -- A value that is no number is not the chance that a row leaves out.
    have hother {y : Double} (hy : y.isNotANumber = true) :
        (y != 5.0) = true ∧ y.toText = "NaN" := by
      constructor
      · cases hfive : y == 5.0 with
        | false => rw [bne, hfive, Bool.not_false]
        | true =>
          rw [eq_ofInt_five hfive] at hy
          exact absurd hy (by decide)
      · rw [toText, if_pos hy]
    obtain ⟨hne, htext⟩ := hother hx
    obtain ⟨hne', htext'⟩ := hother hreread
    exact ⟨hne'.trans hne.symm, htext'.trans htext.symm⟩

namespace Skill

/-- What every skill that is read from a row has: a trimmed name within a column, a trimmed
description, no effects, no combination, and references from one option, if there are any. -/
structure AsRead (s : Skill) : Prop where
  name : Text.Tight s.name.toList
  nameInColumn : ',' ∉ s.name.toList
  description : Text.Tight s.description.toList
  effects : s.effects = []
  combo : s.combo = 1
  refs : s.buffRefs = [] ∨ ∃ value : String, s.buffRefs = Text.split '/' value ∧
    Text.Tight value.toList ∧ ',' ∉ value.toList ∧ '&' ∉ value.toList

/-- A skill that is made from the columns of a row is as read when the columns are trimmed and have
no comma in them. -/
theorem asRead_new {id element power anger accuracy : Int32} {kind : SkillKind}
    {name optionText description : String} {s : Skill} (hname : Text.Tight name.toList)
    (hcolumn : ',' ∉ name.toList) (hdescription : Text.Tight description.toList)
    (hoptions : ',' ∉ optionText.toList)
    (h : new id name element kind power anger accuracy optionText description = .ok s) :
    s.AsRead := by
  unfold new at h
  extract_lets options refs at h
  obtain ⟨critical, _, h⟩ := exists_of_bind_eq_ok h
  obtain ⟨priority, _, h⟩ := exists_of_bind_eq_ok h
  obtain ⟨secondSuper, _, h⟩ := exists_of_bind_eq_ok h
  obtain ⟨ignoreShield, _, h⟩ := exists_of_bind_eq_ok h
  obtain ⟨ignoreStages, _, h⟩ := exists_of_bind_eq_ok h
  cases h
  refine ⟨hname, hcolumn, hdescription, rfl, rfl, ?_⟩
  -- The references come from one option, whose value was cut out of the column.
  cases hget : options.get? "ref_buff" with
  | none => exact .inl (by simp only [refs, hget, Option.map_none, Option.getD_none])
  | some value =>
    have hpair : ("ref_buff", value) ∈ options.entries := Options.mem_of_get? hget
    have hplain := (Options.plain_ofText optionText).pairs _ hpair
    refine .inr ⟨value, by simp only [refs, hget, Option.map_some, Option.getD_some],
      hplain.valueTight, ?_, fun hmem => hplain.value '&' hmem rfl⟩
    exact fun hmem => hoptions (Options.mem_of_mem_ofText hpair hmem)

/-- Every row that is accepted gives such a skill. -/
theorem asRead_ofRow {line : String} {s : Skill} (h : ofRow line = .ok s) : s.AsRead := by
  unfold ofRow at h
  obtain ⟨cols, hcols, h⟩ := exists_of_bind_eq_ok h
  extract_lets col at h
  obtain ⟨code, _, h⟩ := exists_of_bind_eq_ok h
  obtain ⟨kind, _, h⟩ := exists_of_bind_eq_ok h
  obtain ⟨id, _, h⟩ := exists_of_bind_eq_ok h
  obtain ⟨element, _, h⟩ := exists_of_bind_eq_ok h
  obtain ⟨power, _, h⟩ := exists_of_bind_eq_ok h
  obtain ⟨anger, _, h⟩ := exists_of_bind_eq_ok h
  obtain ⟨accuracy, _, h⟩ := exists_of_bind_eq_ok h
  -- The name and the options stand before the last column, so they hold no comma.
  have hplain := columns_eq_ok hcols
  apply asRead_new (Text.tight_trim _) _ (Text.tight_trim _) _ h
  · intro hmem
    exact hplain 1 (by decide) (Text.mem_of_mem_trim hmem)
  · intro hmem
    exact hplain 7 (by decide) (Text.mem_of_mem_trim hmem)

def rowPairs (s : Skill) : List (String × String) :=
  (if s.critical != 5.0 then [("critical", s.critical.toText)] else []) ++
  (if s.priority ≠ 0 then [("priority", Number.showInt32 s.priority)] else []) ++
  (if s.secondSuper then [("second_super", "true")] else []) ++
  (if s.ignoreShield then [("ignore_shield", "true")] else []) ++
  (if s.ignoreStages then [("ignore_powerup", "true")] else []) ++
  (if s.buffRefs.isEmpty then [] else [("ref_buff", "/".intercalate s.buffRefs)])

def rowKeys : List String :=
  ["critical", "priority", "second_super", "ignore_shield", "ignore_powerup", "ref_buff"]

variable {s : Skill}

/-- No key is written twice. -/
theorem keys_rowPairs (s : Skill) : (s.rowPairs.map Prod.fst).Nodup := by
  have hsub {c : Prop} [Decidable c] (key value : String) :
      List.Sublist ((if c then [(key, value)] else []).map Prod.fst) [key] := by
    split
    · exact List.Sublist.refl _
    · exact List.nil_sublist _
  have hrefs : List.Sublist ((if s.buffRefs.isEmpty then [] else
      [("ref_buff", "/".intercalate s.buffRefs)]).map Prod.fst) ["ref_buff"] := by
    split
    · exact List.nil_sublist _
    · exact List.Sublist.refl _
  have hkeys : rowKeys.Nodup := by decide
  refine List.Nodup.sublist ?_ hkeys
  simp only [rowPairs, List.map_append]
  exact (((((hsub _ _).append (hsub _ _)).append (hsub _ _)).append (hsub _ _)).append
    (hsub _ _)).append hrefs

theorem rowOptions_eq (s : Skill) : s.rowOptions = ⟨s.rowPairs⟩ :=
  Options.ofList_eq s.keys_rowPairs

structure RowPair (e : String × String) : Prop where
  plain : Options.PlainPair e
  key : ',' ∉ e.1.toList
  value : ',' ∉ e.2.toList

/-- A value that is trimmed and has neither of the two marks in it can stand in a column of a row.
-/
theorem rowPair {key value : String} (hkey : key ∈ rowKeys) (htight : Text.Tight value.toList)
    (hcolumn : ',' ∉ value.toList) (hpair : '&' ∉ value.toList) : RowPair (key, value) := by
  have hkeys : ∀ key ∈ rowKeys, key ≠ "" ∧ '=' ∉ key.toList ∧ '&' ∉ key.toList ∧
      ',' ∉ key.toList ∧ key.toList.all (fun c => !Text.isBlank c) = true := by decide
  obtain ⟨hnamed, hsides, hpairs, hcolumns, hblanks⟩ := hkeys key hkey
  refine ⟨⟨hnamed, ?_, ?_, Text.tight_of_all hblanks, htight⟩, hcolumns, hcolumn⟩
  · intro c hc
    exact ⟨fun heq => hsides (heq ▸ hc), fun heq => hpairs (heq ▸ hc)⟩
  · rintro c hc rfl
    exact hpair hc

theorem rowPair_of_isNumeral {key value : String} (hkey : key ∈ rowKeys)
    (hvalue : ∀ c ∈ value.toList, Number.isNumeral c = true) : RowPair (key, value) := by
  apply rowPair hkey
  · exact Text.tight_of_forall fun c hc => Number.not_isBlank_of_isNumeral (hvalue c hc)
  · exact Number.not_mem_of_isNumeral (by decide) hvalue
  · exact Number.not_mem_of_isNumeral (by decide) hvalue

/-- The references of a skill that was read from a row are cut where they are joined. -/
theorem AsRead.refs_cases (h : s.AsRead) (hrefs : s.buffRefs ≠ []) :
    Text.split '/' ("/".intercalate s.buffRefs) = s.buffRefs ∧
    RowPair ("ref_buff", "/".intercalate s.buffRefs) := by
  rcases h.refs with hnil | ⟨value, hsplit, htight, hcolumn, hpair⟩
  · exact absurd hnil hrefs
  · have hjoin : "/".intercalate s.buffRefs = value := by
      rw [hsplit]
      exact Text.intercalate_split '/' value
    rw [hjoin]
    exact ⟨hsplit.symm, rowPair (by decide) htight hcolumn hpair⟩

/-- All that a skill writes in its options can stand there. -/
theorem AsRead.rowPairs (h : s.AsRead) : ∀ e ∈ s.rowPairs, RowPair e := by
  have hword : Text.Tight "true".toList := Text.tight_of_all (by decide)
  intro e he
  simp only [Skill.rowPairs, List.mem_append, List.mem_ite_nil_right, List.mem_ite_nil_left,
    List.mem_singleton] at he
  rcases he with ((((⟨_, rfl⟩ | ⟨_, rfl⟩) | ⟨_, rfl⟩) | ⟨_, rfl⟩) | ⟨_, rfl⟩) | ⟨hrefs, rfl⟩
  · exact rowPair_of_isNumeral (by decide) fun c hc => Double.isNumeral_of_mem_toText hc
  · exact rowPair_of_isNumeral (by decide) fun c hc => Number.isNumeral_of_mem_showInt32 hc
  · exact rowPair (by decide) hword (by decide) (by decide)
  · exact rowPair (by decide) hword (by decide) (by decide)
  · exact rowPair (by decide) hword (by decide) (by decide)
  · exact (h.refs_cases fun hnil => hrefs (List.isEmpty_iff.mpr hnil)).2

theorem AsRead.plain_rowOptions (h : s.AsRead) : s.rowOptions.Plain := by
  rw [rowOptions_eq]
  exact ⟨s.keys_rowPairs, fun e he => (h.rowPairs e he).plain⟩

theorem AsRead.not_mem_rowOptions (h : s.AsRead) : ',' ∉ s.rowOptions.toText.toList := by
  rw [rowOptions_eq]
  apply Options.not_mem_toText (by decide) (by decide) (by decide)
  intro e he
  exact ⟨(h.rowPairs e he).key, (h.rowPairs e he).value⟩

/-- An option is there exactly when it is written. -/
theorem get?_rowOptions {key value : String} {given : Prop} [Decidable given]
    (h : ∀ v, (key, v) ∈ s.rowPairs ↔ given ∧ v = value) :
    s.rowOptions.get? key = if given then some value else none := by
  have hget (v : String) : s.rowOptions.get? key = some v ↔ given ∧ v = value := by
    rw [← h, rowOptions_eq]
    exact Options.get?_eq_some_iff s.keys_rowPairs
  split
  · rename_i hgiven
    exact (hget value).mpr ⟨hgiven, rfl⟩
  · rename_i hgiven
    exact Option.eq_none_iff_forall_ne_some.mpr fun v hv => hgiven ((hget v).mp hv).1

theorem readFlagOption_rowOptions {key : String} {b : Bool}
    (h : ∀ v, (key, v) ∈ s.rowPairs ↔ b = true ∧ v = "true") :
    readFlagOption s.rowOptions key false = .ok b := by
  have hread : readFlag key "true" = .ok true := by
    rw [readFlag, show flag? "true" = some true from flag?_showFlag true]
  rw [readFlagOption, get?_rowOptions h]
  cases b with
  | false => rfl
  | true => exact hread

theorem readIntOption_priority (s : Skill) :
    readIntOption s.rowOptions "priority" 0 = .ok s.priority := by
  have hget : s.rowOptions.get? "priority" =
      if s.priority ≠ 0 then some (Number.showInt32 s.priority) else none :=
    get?_rowOptions (by simp [rowPairs])
  rw [readIntOption, hget]
  by_cases hzero : s.priority = 0
  · rw [if_neg (not_not_intro hzero), hzero]
  · rw [if_pos hzero]
    exact readInt_showInt32 _ _

/-- The chance of a critical hit is read back, or its default when that is left out. -/
theorem readDouble_critical (hdisplay : s.critical.KeptByText) :
    readDouble "critical" (s.rowOptions.getD "critical" "5") = .ok s.critical.reread := by
  have hget : s.rowOptions.get? "critical" =
      if (s.critical != 5.0) = true then some s.critical.toText else none :=
    get?_rowOptions (by simp [rowPairs])
  rw [Options.getD, hget]
  by_cases hgiven : (s.critical != 5.0) = true
  · have htrim : Text.trim s.critical.toText = s.critical.toText := Text.trim_eq_self fun c hc =>
      Number.not_isBlank_of_isNumeral (Double.isNumeral_of_mem_toText hc)
    have hread : Double.ofText? s.critical.toText = some s.critical.reread := by
      by_cases hnumber : s.critical.isNotANumber = true
      · have hname : s.critical.toText = "NaN" := by rw [Double.toText, if_pos hnumber]
        rw [hname, Double.reread, if_pos hnumber]
        decide
      · rw [Double.reread, if_neg hnumber]
        exact hdisplay (Bool.eq_false_iff.mpr hnumber)
    rw [if_pos hgiven, Option.getD_some, readDouble, htrim, hread]
  · -- The default is not written, and is read back from its own text.
    have hfive : s.critical = .ofInt 5 := Double.eq_ofInt_five (by simpa [bne] using hgiven)
    have hread : readDouble "critical" "5" = .ok (Double.ofInt 5).reread := by decide +kernel
    rw [if_neg hgiven, Option.getD_none, hfive]
    exact hread

/-- The references are joined and cut at a mark that is in none of them. -/
theorem refs_rowOptions (h : s.AsRead) :
    ((s.rowOptions.get? "ref_buff").map (Text.split '/')).getD [] = s.buffRefs := by
  have hget : s.rowOptions.get? "ref_buff" =
      if s.buffRefs ≠ [] then some ("/".intercalate s.buffRefs) else none :=
    get?_rowOptions (by simp [rowPairs])
  rw [hget]
  by_cases hrefs : s.buffRefs = []
  · rw [if_neg (not_not_intro hrefs), hrefs]
    rfl
  · rw [if_pos hrefs]
    exact (h.refs_cases hrefs).1

def reread (s : Skill) : Skill :=
  { s with options := s.rowOptions, critical := s.critical.reread }

/-- What is written is made into the skill that a written row is read as. -/
theorem new_rowOptions (h : s.AsRead) (hdisplay : s.critical.KeptByText) :
    new s.id s.name s.element s.kind s.power s.anger s.accuracy s.rowOptions.toText s.description =
      .ok s.reread := by
  have hsuper : readFlagOption s.rowOptions "second_super" false = .ok s.secondSuper :=
    readFlagOption_rowOptions (by simp [rowPairs])
  have hshield : readFlagOption s.rowOptions "ignore_shield" false = .ok s.ignoreShield :=
    readFlagOption_rowOptions (by simp [rowPairs])
  have hstages : readFlagOption s.rowOptions "ignore_powerup" false = .ok s.ignoreStages :=
    readFlagOption_rowOptions (by simp [rowPairs])
  unfold new
  rw [h.plain_rowOptions.ofText_toText]
  dsimp only
  rw [readDouble_critical hdisplay, readIntOption_priority, hsuper, hshield, hstages,
    refs_rowOptions h, ← h.effects, ← h.combo]
  rfl

/-- What a row of nine columns is read as. -/
theorem ofRow_of_columns
    {line id name element kind power anger accuracy optionText description : String}
    (h : columns "skill" line 9 =
      .ok [id, name, element, kind, power, anger, accuracy, optionText, description].toArray) :
    ofRow line = (do
      let code ← readInt "type" kind
      let kind ← (SkillKind.ofCode? code).elim (.error (.unknownSkillKind (Text.trim kind))) .ok
      let id ← readInt "id" id
      let element ← readInt "element" element
      let power ← readInt "power" power
      let anger ← readInt "anger" anger
      let accuracy ← readInt "accuracy" accuracy
      new id (Text.trim name) element kind power anger accuracy (Text.trim optionText)
        (Text.trim description)) := by
  rw [ofRow, h]
  simp only [bind, Except.bind]
  simp

/-- The columns of the row are cut where they were joined. -/
theorem columns_toColumns (h : s.AsRead) :
    columns "skill" (",".intercalate s.toColumns) 9 = .ok s.toColumns.toArray := by
  have hnumber (n : Int32) : ',' ∉ (Number.showInt32 n).toList :=
    Number.not_mem_of_isNumeral (by decide) fun _ hc => Number.isNumeral_of_mem_showInt32 hc
  have hfirst : ∀ col ∈ s.toColumns.dropLast, ',' ∉ col.toList := by
    intro col hcol
    simp only [toColumns, List.dropLast_cons_cons, List.dropLast_singleton, List.mem_cons,
      List.not_mem_nil, or_false] at hcol
    rcases hcol with rfl | rfl | rfl | rfl | rfl | rfl | rfl | rfl
    · exact hnumber _
    · exact h.nameInColumn
    · exact hnumber _
    · exact hnumber _
    · exact hnumber _
    · exact hnumber _
    · exact hnumber _
    · exact h.not_mem_rowOptions
  exact columns_intercalate hfirst "skill" s.description

/-- A skill that was read from a row is read back from the row that writes it. -/
theorem ofRow_toColumns (h : s.AsRead) (hdisplay : s.critical.KeptByText) :
    ofRow (",".intercalate s.toColumns) = .ok s.reread := by
  have hname : Text.trim s.name = s.name := h.name.trim_eq
  have hdescription : Text.trim s.description = s.description := h.description.trim_eq
  have hoptions : Text.trim s.rowOptions.toText = s.rowOptions.toText :=
    h.plain_rowOptions.tight_toText.trim_eq
  rw [ofRow_of_columns (columns_toColumns h), hname, hdescription, hoptions]
  simp only [readInt_showInt32, SkillKind.ofCode?_code, bind, Except.bind, Option.elim_some]
  exact new_rowOptions h hdisplay

theorem toColumns_reread (s : Skill) : s.reread.toColumns = s.toColumns := by
  obtain ⟨hfive, htext⟩ := s.critical.reread_written
  simp only [toColumns, rowOptions, reread, hfive, htext]
  rfl

/-- The row that writes a skill of the content is read as a skill that differs from it only in its
options and that is written as the same row; a critical chance that is no number is read as one. Of
the critical chance it is assumed that its text is read as the chance itself. -/
theorem row_reads_back {line : String} {s : Skill} (h : ofRow line = .ok s)
    (hdisplay : s.critical.isNotANumber = false →
      Double.ofText? s.critical.toText = some s.critical) :
    ∃ s', ofRow (",".intercalate s.toColumns) = .ok s' ∧ s'.toColumns = s.toColumns ∧
      s' = { s with options := s'.options, critical := s'.critical } ∧
      (s'.critical = s.critical ∨
        s'.critical.isNotANumber = true ∧ s.critical.isNotANumber = true) := by
  have hread := ofRow_toColumns (asRead_ofRow h) hdisplay
  exact ⟨s.reread, hread, s.toColumns_reread, rfl, s.critical.reread_cases⟩

/-- Odd blanks, a piece that says nothing, an empty reference and a description with a comma. -/
theorem odd_row_reads_back :
    let line := " 7,Fire,3,1,080,15,95,critical= 10 &x&ref_buff=1//9 &second_super=TRUE, Hot,red "
    let fire : Skill := {
      id := 7, name := "Fire", element := 3, kind := .physical, power := 80, anger := 15
      accuracy := 95, description := "Hot,red", effects := []
      options := .ofList [("critical", "10"), ("ref_buff", "1//9"), ("second_super", "TRUE")]
      critical := .ofInt 10, priority := 0, combo := 1, secondSuper := true, ignoreShield := false
      ignoreStages := false, buffRefs := ["1", "", "9"] }
    ofRow line = .ok fire ∧ Double.ofText? fire.critical.toText = some fire.critical ∧
      ∃ s', ofRow (",".intercalate fire.toColumns) = .ok s' ∧ s'.toColumns = fire.toColumns ∧
        s' = { fire with options := s'.options, critical := s'.critical } ∧
        (s'.critical = fire.critical ∨
          s'.critical.isNotANumber = true ∧ fire.critical.isNotANumber = true) := by
  intro line fire
  have hrow : ofRow line = .ok fire := by decide +kernel
  have hdisplay : Double.ofText? fire.critical.toText = some fire.critical := by decide +kernel
  exact ⟨hrow, hdisplay, row_reads_back hrow fun _ => hdisplay⟩

end Skill

end PetDuel
