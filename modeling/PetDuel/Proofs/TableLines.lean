import Mathlib.Data.List.TakeWhile
import PetDuel.Content.Table
import PetDuel.Proofs.Pieces

/-!
Lines of tables. A table is read line by line, so a further line between two others, or in front of
all of them or behind them, adds the rows that it holds and changes nothing else. A line that is
blank, a comment, or no row of the table holds none.
-/

namespace PetDuel

namespace Text

def lineBreaks : List String := ["\n", "\r\n"]

/-- A further line in a text. It stands at the start of the text or right behind a line break, and
the next line, if there is one, is set off from it; or it is set off from the last line of a text
that ends without a line break. -/
inductive LineAdded (line : String) : String → String → Prop
  | between {above below lineBreak : String}
      (habove : above = "" ∨ above.toList.getLast? = some '\n')
      (hbelow : lineBreak ∈ lineBreaks ∨ lineBreak = "" ∧ below = "") :
    LineAdded line (above ++ below) (above ++ line ++ lineBreak ++ below)
  | atEnd {text lineBreak last : String} (hbreak : lineBreak ∈ lineBreaks)
      (hlast : last ∈ lineBreaks ∨ last = "") :
    LineAdded line text (text ++ lineBreak ++ line ++ last)

section Returns

variable {cs ds : List Char}

/-- A line is what is left of it and the carriage returns at its end. -/
theorem exists_returns (cs : List Char) :
    ∃ returns, cs = dropReturns cs ++ returns ∧ ∀ c ∈ returns, c = '\r' := by
  refine ⟨(cs.reverse.takeWhile fun c => c == '\r').reverse, ?_, fun c hc => ?_⟩
  · rw [dropReturns, ← List.reverse_append, List.takeWhile_append_dropWhile, List.reverse_reverse]
  · have hreturn := List.mem_takeWhile_imp (List.mem_reverse.mp hc)
    exact beq_iff_eq.mp hreturn

theorem dropReturns_append_return (cs : List Char) :
    dropReturns (cs ++ ['\r']) = dropReturns cs := by
  rw [dropReturns, List.reverse_append]
  rfl

theorem trimList_append_of_blank (h : ∀ c ∈ ds, isBlank c = true) :
    trimList (cs ++ ds) = trimList cs := by
  have hend (xs : List Char) : trimEnd (xs ++ ds) = trimEnd xs := by
    have hblank : ∀ c ∈ ds.reverse, isBlank c = true := fun c hc => h c (List.mem_reverse.mp hc)
    rw [trimEnd, trimEnd, List.reverse_append, List.dropWhile_append_of_pos hblank]
  have hds : ds.dropWhile isBlank = [] := List.dropWhile_eq_nil_iff.mpr h
  rw [trimList, trimList, List.dropWhile_append, hds]
  split
  · rename_i hempty
    rw [List.isEmpty_iff.mp hempty]
  · exact hend _

/-- Carriage returns are blank, so trimming takes them too. -/
theorem trimList_dropReturns (cs : List Char) : trimList (dropReturns cs) = trimList cs := by
  obtain ⟨returns, hcs, hreturns⟩ := exists_returns cs
  have hblank : ∀ c ∈ returns, isBlank c = true := by
    intro c hc
    rw [hreturns c hc]
    decide
  calc trimList (dropReturns cs)
      = trimList (dropReturns cs ++ returns) := (trimList_append_of_blank hblank).symm
    _ = trimList cs := by rw [← hcs]

end Returns

theorem cutList_eq_none_iff {sep : Char} {cs : List Char} : cutList sep cs = none ↔ sep ∉ cs := by
  constructor
  · intro hnone hmem
    obtain ⟨above, below, rfl, habove⟩ := List.eq_append_cons_of_mem hmem
    rw [cutList_append habove] at hnone
    cases hnone
  · intro hmem
    apply Option.eq_none_iff_forall_ne_some.mpr
    rintro ⟨piece, rest⟩ hcut
    apply hmem
    rw [(eq_append_of_cutList hcut).1]
    exact List.mem_append_right piece List.mem_cons_self

/-- What is written behind a text belongs to its last piece, if it holds no separator. -/
theorem splitAtMost_append {sep : Char} {tail : List Char} (h : sep ∉ tail) (n : Nat)
    (cs : List Char) : ∃ first last, splitAtMost sep n cs = first ++ [last] ∧
      splitAtMost sep n (cs ++ tail) = first ++ [last ++ tail] := by
  induction n generalizing cs with
  | zero => exact ⟨[], cs, rfl, rfl⟩
  | succ n ih =>
    unfold splitAtMost
    cases hcut : cutList sep cs with
    | none =>
      have hnone : cutList sep (cs ++ tail) = none := by
        apply cutList_eq_none_iff.mpr
        rw [List.mem_append]
        exact not_or.mpr ⟨cutList_eq_none_iff.mp hcut, h⟩
      rw [hnone]
      exact ⟨[], cs, rfl, rfl⟩
    | some p =>
      obtain ⟨piece, rest⟩ := p
      obtain ⟨hcs, hpiece⟩ := eq_append_of_cutList hcut
      have hcut' : cutList sep (cs ++ tail) = some (piece, rest ++ tail) := by
        rw [hcs, List.append_assoc, List.cons_append]
        exact cutList_append hpiece
      obtain ⟨first, last, hfirst, hlast⟩ := ih rest
      rw [hcut']
      exact ⟨piece :: first, last, congrArg (piece :: ·) hfirst, congrArg (piece :: ·) hlast⟩

end Text

def contentLines (cs : List Char) : List String :=
  ((cs.splitOn '\n').map fun p => String.ofList (Text.dropReturns p)).filter isContentLine

/-- The lines that say something are those of the text cut at its line breaks. -/
theorem filter_lines (s : String) :
    (Text.lines s).filter isContentLine = contentLines s.toList := by
  unfold Text.lines contentLines
  dsimp only
  split
  · rename_i hlast
    -- Behind the last line break there is an empty line, which says nothing.
    have hempty : isContentLine (String.ofList (Text.dropReturns [])) = false := by decide
    obtain ⟨pieces, hpieces⟩ := List.getLast?_eq_some_iff.mp hlast
    rw [hpieces, List.dropLast_concat, List.map_append, List.filter_append]
    simp [hempty]
  · rfl

theorem contentLines_append_cons (cs ds : List Char) :
    contentLines (cs ++ '\n' :: ds) = contentLines cs ++ contentLines ds := by
  rw [contentLines, List.splitOn_append_cons_self, List.map_append, List.filter_append]
  rfl

theorem contentLines_of_not_mem {cs : List Char} (h : '\n' ∉ cs) :
    contentLines cs = [String.ofList (Text.dropReturns cs)].filter isContentLine := by
  rw [contentLines, List.splitOn_eq_singleton h]
  rfl

theorem contentLines_nil : contentLines [] = [] := by decide

/-- A carriage return in front of a line break, or at the end of the text, does not count. -/
theorem contentLines_append_return (cs : List Char) :
    contentLines (cs ++ ['\r']) = contentLines cs := by
  -- The lines above a line break do not change, so the text behind it decides.
  by_cases hbreak : '\n' ∈ cs
  · obtain ⟨above, below, rfl⟩ := List.append_of_mem hbreak
    have hshorter : below.length < (above ++ '\n' :: below).length := by
      rw [List.length_append, List.length_cons]
      omega
    have ih := contentLines_append_return below
    rw [List.append_assoc, List.cons_append, contentLines_append_cons, contentLines_append_cons, ih]
  · have hbreak' : '\n' ∉ cs ++ ['\r'] := by simpa using hbreak
    rw [contentLines_of_not_mem hbreak, contentLines_of_not_mem hbreak',
      Text.dropReturns_append_return]
termination_by cs.length

/-- Each of the ways to break a line parts the lines in front of it from those behind. -/
theorem contentLines_append_lineBreak {lineBreak : String} (h : lineBreak ∈ Text.lineBreaks)
    (cs ds : List Char) :
    contentLines (cs ++ lineBreak.toList ++ ds) = contentLines cs ++ contentLines ds := by
  rcases List.mem_pair.mp h with rfl | rfl
  · have hsplit : cs ++ "\n".toList ++ ds = cs ++ '\n' :: ds := List.append_assoc cs ['\n'] ds
    rw [hsplit, contentLines_append_cons]
  · have hsplit : cs ++ "\r\n".toList ++ ds = (cs ++ ['\r']) ++ '\n' :: ds := by
      rw [List.append_assoc, List.append_assoc]
      rfl
    rw [hsplit, contentLines_append_cons, contentLines_append_return]

/-- Below a line break, or at the start of a text, a line begins. -/
theorem contentLines_append_of_lineStart {cs : List Char}
    (h : cs = [] ∨ cs.getLast? = some '\n') (ds : List Char) :
    contentLines (cs ++ ds) = contentLines cs ++ contentLines ds := by
  rcases h with rfl | h
  · rw [contentLines_nil]
    rfl
  · obtain ⟨above, rfl⟩ := List.getLast?_eq_some_iff.mp h
    have hsplit : above ++ ['\n'] ++ ds = above ++ '\n' :: ds := List.append_assoc above ['\n'] ds
    rw [hsplit, contentLines_append_cons, contentLines_append_cons, contentLines_nil,
      List.append_nil]

/-- In front of a line break, or at the end of a text, a line ends. -/
theorem contentLines_append_of_lineEnd {lineBreak below : String}
    (h : lineBreak ∈ Text.lineBreaks ∨ lineBreak = "" ∧ below = "") (cs : List Char) :
    contentLines (cs ++ lineBreak.toList ++ below.toList) =
      contentLines cs ++ contentLines below.toList := by
  rcases h with h | ⟨rfl, rfl⟩
  · exact contentLines_append_lineBreak h cs below.toList
  · simp [contentLines_nil]

/-- A further line says what it says by itself, and the other lines say what they said. -/
theorem Text.LineAdded.lines_inserted {line text text' : String} (h : LineAdded line text text') :
    ∃ above below, contentLines text.toList = above ++ below ∧
      contentLines text'.toList =
        above ++ contentLines line.toList ++ below := by
  cases h with
  | @between above below _ habove hbelow =>
    have hstart : above.toList = [] ∨ above.toList.getLast? = some '\n' :=
      habove.imp_left (congrArg String.toList)
    refine ⟨contentLines above.toList, contentLines below.toList, ?_, ?_⟩
    · rw [String.toList_append]
      exact contentLines_append_of_lineStart hstart _
    · simp only [String.toList_append, List.append_assoc]
      rw [contentLines_append_of_lineStart hstart, ← List.append_assoc line.toList,
        contentLines_append_of_lineEnd hbelow]
  | @atEnd _ _ last hbreak hlast =>
    have hend : last ∈ lineBreaks ∨ last = "" ∧ "" = "" := hlast.imp_right (⟨·, rfl⟩)
    refine ⟨contentLines text.toList, [], (List.append_nil _).symm, ?_⟩
    simp only [String.toList_append]
    rw [List.append_assoc _ line.toList, contentLines_append_lineBreak hbreak]
    have hline := contentLines_append_of_lineEnd hend line.toList
    simp only [String.toList_empty, List.append_nil, contentLines_nil] at hline
    rw [hline, List.append_nil]

/-- A table is read line by line, and lines with errors are skipped. -/
theorem readTable_eq {α : Type} (read : String → Except ContentError α) (text : String) :
    readTable read text =
      (contentLines text.toList).filterMap fun line => (read line).toOption := by
  rw [readTable, filter_lines]

/-- A further line adds its rows to a table, and the other rows stay as they are. -/
theorem Text.LineAdded.rows_inserted {α : Type} {line text text' : String}
    (h : LineAdded line text text') (read : String → Except ContentError α) :
    ∃ above below, readTable read text = above ++ below ∧
      readTable read text' = above ++ readTable read line ++ below := by
  obtain ⟨above, below, htext, htext'⟩ := h.lines_inserted
  refine ⟨above.filterMap fun line => (read line).toOption,
    below.filterMap fun line => (read line).toOption, ?_, ?_⟩
  · rw [readTable_eq, htext, List.filterMap_append]
  · rw [readTable_eq, readTable_eq, htext', List.filterMap_append, List.filterMap_append]

/-- A line that is blank, a comment, or no row for a reader. -/
def SaysNothing {α : Type} (read : String → Except ContentError α) (line : String) : Prop :=
  Text.trim line = "" ∨ (Text.trim line).toList.head? = some '#' ∨ ∃ e, read line = .error e

def IgnoresReturns {α : Type} (read : String → Except ContentError α) : Prop :=
  ∀ line, (read (String.ofList (Text.dropReturns line.toList))).isOk = (read line).isOk

theorem isContentLine_dropReturns (line : String) :
    isContentLine (String.ofList (Text.dropReturns line.toList)) = isContentLine line := by
  unfold isContentLine
  rw [Text.toList_trim, Text.toList_trim, String.toList_ofList, Text.trimList_dropReturns]

/-- A line that says nothing holds no row. -/
theorem readTable_of_saysNothing {α : Type} {read : String → Except ContentError α}
    (hread : IgnoresReturns read) {line : String} (hline : '\n' ∉ line.toList)
    (h : SaysNothing read line) : readTable read line = [] := by
  rw [readTable_eq, contentLines_of_not_mem hline]
  have hskipped (hcontent : isContentLine line = false) :
      [String.ofList (Text.dropReturns line.toList)].filter isContentLine = [] := by
    rw [List.filter_singleton, isContentLine_dropReturns, hcontent]
    rfl
  rcases h with hblank | hcomment | ⟨e, he⟩
  · rw [hskipped (by rw [isContentLine, hblank]; rfl)]
    rfl
  · obtain ⟨rest, hrest⟩ := List.head?_eq_some_iff.mp hcomment
    rw [hskipped (by rw [isContentLine, hrest]; rfl)]
    rfl
  · -- The reader sees the line without its returns, and refuses it like the line as it stands.
    apply List.filterMap_eq_nil_iff.mpr
    intro line' hline'
    obtain rfl := List.mem_singleton.mp (List.mem_filter.mp hline').1
    have hrefused := hread line
    rw [he] at hrefused
    cases hresult : read (String.ofList (Text.dropReturns line.toList)) with
    | error e' => rfl
    | ok x =>
      rw [hresult] at hrefused
      cases hrefused

theorem isOk_bind_congr {ε α β γ : Type} {x : Except ε α} {f : α → Except ε β}
    {g : α → Except ε γ} (h : ∀ a, (f a).isOk = (g a).isOk) :
    (x >>= f).isOk = (x >>= g).isOk := by
  cases x with
  | error e => rfl
  | ok a => exact h a

theorem isOk_pure {ε α : Type} (a : α) : (pure a : Except ε α).isOk = true := rfl

/-- Carriage returns at the end of a row stand in its last column. -/
theorem isOk_bind_columns {β γ : Type} {kind line : String} {n : Nat}
    {f : Array String → Except ContentError β} {g : Array String → Except ContentError γ}
    (h : ∀ cols cols' : Array String, (∀ i < n, cols.getD i "" = cols'.getD i "") →
      (f cols).isOk = (g cols').isOk) :
    (columns kind (String.ofList (Text.dropReturns line.toList)) (n + 1) >>= f).isOk =
      (columns kind line (n + 1) >>= g).isOk := by
  obtain ⟨returns, hline, hreturns⟩ := Text.exists_returns line.toList
  -- Returns have no comma in them, so with them the last column alone is another one.
  have hplain : ',' ∉ returns := fun hmem => absurd (hreturns ',' hmem) (by decide)
  obtain ⟨first, last, hpieces, hpieces'⟩ :=
    Text.splitAtMost_append hplain n (Text.dropReturns line.toList)
  rw [← hline] at hpieces'
  have hcolumns {s : String} {x : List Char} (hs : Text.splitAtMost ',' n s.toList = first ++ [x]) :
      columns kind s (n + 1) =
        if first.length < n then .error (.columnCount kind (n + 1) (first.length + 1))
        else .ok (first.map String.ofList ++ [String.ofList x]).toArray := by
    have hlength : (first.map String.ofList ++ [String.ofList x]).length = first.length + 1 := by
      rw [List.length_append, List.length_map, List.length_singleton]
    rw [columns, Nat.add_sub_cancel, hs, List.map_append, List.map_singleton, hlength]
    simp only [Nat.add_lt_add_iff_right]
  rw [hcolumns hpieces', hcolumns ((congrArg _ String.toList_ofList).trans hpieces)]
  split
  · rfl
  · rename_i hlength
    apply h
    intro i hi
    have hfirst : i < (first.map String.ofList).length := by
      rw [List.length_map]
      omega
    simp only [Array.getD_eq_getD_getElem?, List.getElem?_toArray,
      List.getElem?_append_left hfirst]

/-- Whether a template is accepted does not depend on its description. -/
theorem BuffTemplate.isOk_new (id : Int32) (name : String) (category : Category)
    (policy : CopyPolicy) (turn : Int32) (optionText description description' : String) :
    (new id name category policy turn optionText description).isOk =
      (new id name category policy turn optionText description').isOk := by
  unfold new
  refine isOk_bind_congr fun icon => ?_
  dsimp only
  split
  all_goals
    iterate 6 refine isOk_bind_congr fun _ => ?_
    rfl

/-- A row of a buff is accepted with a return at its end or without. -/
theorem BuffTemplate.ignoresReturns_ofRow : IgnoresReturns ofRow := by
  intro line
  unfold ofRow
  refine isOk_bind_columns fun cols cols' hcols => ?_
  dsimp only
  rw [hcols 0 (by decide), hcols 1 (by decide), hcols 2 (by decide), hcols 3 (by decide),
    hcols 4 (by decide), hcols 5 (by decide)]
  iterate 4 refine isOk_bind_congr fun _ => ?_
  exact isOk_new ..

theorem Skill.isOk_new (id : Int32) (name : String) (element : Int32) (kind : SkillKind)
    (power anger accuracy : Int32) (optionText description description' : String) :
    (new id name element kind power anger accuracy optionText description).isOk =
      (new id name element kind power anger accuracy optionText description').isOk := by
  unfold new
  iterate 5 refine isOk_bind_congr fun _ => ?_
  rfl

theorem Skill.ignoresReturns_ofRow : IgnoresReturns ofRow := by
  intro line
  unfold ofRow
  refine isOk_bind_columns fun cols cols' hcols => ?_
  dsimp only
  rw [hcols 0 (by decide), hcols 1 (by decide), hcols 2 (by decide), hcols 3 (by decide),
    hcols 4 (by decide), hcols 5 (by decide), hcols 6 (by decide), hcols 7 (by decide)]
  iterate 7 refine isOk_bind_congr fun _ => ?_
  exact isOk_new ..

theorem EffectRow.ignoresReturns_ofRow : IgnoresReturns ofRow := by
  intro line
  unfold ofRow
  refine isOk_bind_columns fun cols cols' hcols => ?_
  dsimp only
  rw [hcols 0 (by decide), hcols 1 (by decide), hcols 2 (by decide), hcols 3 (by decide)]
  iterate 4 refine isOk_bind_congr fun _ => ?_
  rw [isOk_pure, isOk_pure]

/-- A further line that says nothing leaves the rows of a table as they are. -/
theorem Text.LineAdded.readTable_of_saysNothing {α : Type} {read : String → Except ContentError α}
    {line text text' : String} (hread : IgnoresReturns read) (hline : '\n' ∉ line.toList)
    (h : SaysNothing read line) (hadded : LineAdded line text text') :
    readTable read text' = readTable read text := by
  obtain ⟨above, below, htext, htext'⟩ := hadded.rows_inserted read
  calc readTable read text'
      = above ++ readTable read line ++ below := htext'
    _ = above ++ below := by
      rw [PetDuel.readTable_of_saysNothing hread hline h, List.append_nil]
    _ = readTable read text := htext.symm

/-- A line that is blank, a comment, or no row of the table it is added to changes nothing in the
catalog, wherever in the table it is added. -/
theorem Catalog.ofTables_of_saysNothing (buffs skills effects line : String)
    (hline : '\n' ∉ line.toList) :
    (SaysNothing BuffTemplate.ofRow line → ∀ buffs', Text.LineAdded line buffs buffs' →
      ofTables buffs' skills effects = ofTables buffs skills effects) ∧
    (SaysNothing Skill.ofRow line → ∀ skills', Text.LineAdded line skills skills' →
      ofTables buffs skills' effects = ofTables buffs skills effects) ∧
    (SaysNothing EffectRow.ofRow line → ∀ effects', Text.LineAdded line effects effects' →
      ofTables buffs skills effects' = ofTables buffs skills effects) := by
  refine ⟨fun h buffs' hadded => ?_, fun h skills' hadded => ?_, fun h effects' hadded => ?_⟩
  · have hrows := hadded.readTable_of_saysNothing BuffTemplate.ignoresReturns_ofRow hline h
    rw [ofTables, ofTables, hrows]
  · have hrows := hadded.readTable_of_saysNothing Skill.ignoresReturns_ofRow hline h
    rw [ofTables, ofTables, hrows]
  · have hrows := hadded.readTable_of_saysNothing EffectRow.ignoresReturns_ofRow hline h
    rw [ofTables, ofTables, hrows]

/-- A short row between two buffs, in front of all skills, and behind the last effect. -/
theorem Catalog.ofTables_short_row :
    let buff := "7,Burn,Abnormal,Block,3,none,\r\n"
    let calm := "8,Calm,0,3,-1,none,"
    let skill := "10,Tackle,1,1,40,0,100,none,"
    let effect := "buff,7,OnTurnEnd,Heal,add=-10"
    let line := "bad row"
    '\n' ∉ line.toList ∧ SaysNothing BuffTemplate.ofRow line ∧ SaysNothing Skill.ofRow line ∧
    SaysNothing EffectRow.ofRow line ∧
    ofTables (buff ++ line ++ "\r\n" ++ calm) skill effect = ofTables (buff ++ calm) skill effect ∧
    ofTables buff ("" ++ line ++ "\n" ++ skill) effect = ofTables buff ("" ++ skill) effect ∧
    ofTables buff skill (effect ++ "\n" ++ line ++ "") = ofTables buff skill effect := by
  intro buff calm skill effect line
  have hline : '\n' ∉ line.toList := by decide
  have hbuff : SaysNothing BuffTemplate.ofRow "bad row" := .inr (.inr ⟨_, rfl⟩)
  have hskill : SaysNothing Skill.ofRow "bad row" := .inr (.inr ⟨_, rfl⟩)
  have heffect : SaysNothing EffectRow.ofRow "bad row" := .inr (.inr ⟨_, rfl⟩)
  refine ⟨hline, hbuff, hskill, heffect, ?_, ?_, ?_⟩
  · exact (Catalog.ofTables_of_saysNothing _ skill effect line hline).1 hbuff _
      (.between (.inr (by decide)) (.inl (by decide)))
  · exact (Catalog.ofTables_of_saysNothing buff _ effect line hline).2.1 hskill _
      (.between (.inl rfl) (.inl (by decide)))
  · exact (Catalog.ofTables_of_saysNothing buff skill _ line hline).2.2 heffect _
      (.atEnd (by decide) (.inr rfl))

end PetDuel
