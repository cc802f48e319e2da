import PetDuel.Proofs.OptionColumns

/-!
Options that are read from a column, changed key by key, and written back. Whatever the column was,
what is written reads as the same options in the same order; of a key that the column repeats, the
first place and the last value are read.
-/

namespace PetDuel.Options

def pairOf? (piece : String) : Option (String × String) :=
  match Text.cut? '=' piece with
  | none => none
  | some (key, value) =>
    if Text.trim key = "" then none else some (Text.trim key, Text.trim value)

def pairsOf (raw : String) : List (String × String) :=
  (Text.split '&' (Text.trim raw)).filterMap pairOf?

inductive Edit
  | set (key value : String)
  | erase (key : String)

/-- Changes that a column can write: a key is set to a value without the marks of a column. -/
def Edit.Plain : Edit → Prop
  | set key value => PlainPair (key, value)
  | erase _ => True

def Edit.apply (o : Options) : Edit → Options
  | set key value => o.set key value
  | erase key => o.erase key

def edited (o : Options) (edits : List Edit) : Options := edits.foldl Edit.apply o

variable {o : Options} {edits : List Edit}

/-- A piece sets the pair that it writes, or nothing when it writes none. -/
theorem addPiece_eq (o : Options) (piece : String) : o.addPiece piece =
    match pairOf? piece with
    | some e => o.set e.1 e.2
    | none => o := by
  unfold addPiece pairOf?
  cases Text.cut? '=' piece with
  | none => rfl
  | some sides =>
    dsimp only
    by_cases hkey : Text.trim sides.1 = ""
    · rw [if_pos hkey, if_pos (beq_iff_eq.mpr hkey)]
    · rw [if_neg hkey, if_neg fun h => hkey (beq_iff_eq.mp h)]

/-- Several pieces set the pairs that they write, in order. -/
theorem foldl_addPiece_eq (pieces : List String) (o : Options) :
    pieces.foldl addPiece o = (pieces.filterMap pairOf?).foldl (fun o e => o.set e.1 e.2) o := by
  induction pieces generalizing o with
  | nil => rfl
  | cons piece pieces ih =>
    rw [List.foldl_cons, addPiece_eq, List.filterMap_cons]
    cases pairOf? piece with
    | none => exact ih o
    | some e => exact ih (o.set e.1 e.2)

/-- Reading a column is putting its pairs one after the other. -/
theorem ofText_eq_ofList (raw : String) : ofText raw = ofList (pairsOf raw) := by
  unfold ofText pairsOf
  dsimp only
  split
  · -- Neither an empty column nor the word for no options writes a pair.
    rename_i hnone
    rcases Bool.or_eq_true _ _ ▸ hnone with hempty | hword
    · rw [beq_iff_eq.mp hempty]
      decide
    · rw [beq_iff_eq.mp hword]
      decide
  · exact foldl_addPiece_eq _ empty

/-- Keys stand in the order in which they first come. -/
theorem keys_ofList (pairs : List (String × String)) :
    (ofList pairs).entries.map Prod.fst = (pairs.map Prod.fst).eraseDups := by
  rw [ofList, foldl_set]
  exact Keyed.map_foldl_put Prod.fst pairs

/-- Of the values of a key the last one counts. -/
theorem get?_ofList (pairs : List (String × String)) (key : String) :
    (ofList pairs).get? key = (pairs.filter fun e => e.1 == key).getLast?.map Prod.snd := by
  rw [ofList, foldl_set]
  have hfound := Keyed.find?_foldl_put Prod.fst key pairs []
  exact congrArg (Option.map Prod.snd) (hfound.trans Option.or_none)

theorem Plain.erase (h : o.Plain) (key : String) : (o.erase key).Plain := by
  have hsublist : (o.erase key).entries.Sublist o.entries := List.eraseP_sublist
  exact ⟨h.keys.sublist (hsublist.map Prod.fst), fun e he => h.pairs e (hsublist.subset he)⟩

theorem Plain.apply (h : o.Plain) {edit : Edit} (hedit : edit.Plain) : (edit.apply o).Plain := by
  cases edit with
  | set key value => exact h.set hedit
  | erase key => exact h.erase key

theorem Plain.edited (h : o.Plain) (hedits : ∀ edit ∈ edits, edit.Plain) :
    (o.edited edits).Plain := by
  induction edits generalizing o with
  | nil => exact h
  | cons edit edits ih =>
    obtain ⟨hedit, hrest⟩ := List.forall_mem_cons.mp hedits
    exact ih (h.apply hedit) hrest

def Edit.valueAfter (key : String) (before : Option String) : Edit → Option String
  | set k value => if k = key then some value else before
  | erase k => if k = key then none else before

/-- A change is seen under its own key only. -/
theorem Plain.get?_apply (h : o.Plain) (edit : Edit) (key : String) :
    (edit.apply o).get? key = edit.valueAfter key (o.get? key) := by
  cases edit with
  | set k value =>
    change ((Keyed.find? Prod.fst key (Keyed.put Prod.fst (k, value) o.entries)).map Prod.snd) =
      if k = key then some value else o.get? key
    split
    · rename_i hk
      rw [← hk]
      exact congrArg (Option.map Prod.snd) (Keyed.find?_put_self (k, value) o.entries)
    · rename_i hk
      exact congrArg (Option.map Prod.snd) (Keyed.find?_put_of_ne (Ne.symm hk) o.entries)
  | erase k =>
    change ((Keyed.find? Prod.fst key (o.entries.eraseP fun e => e.1 == k)).map Prod.snd) =
      if k = key then none else o.get? key
    rw [Keyed.find?_eraseP h.keys]
    split <;> rfl

/-- What any number of changes make of a key, each of them makes in its turn. -/
theorem Plain.get?_edited (h : o.Plain) (hedits : ∀ edit ∈ edits, edit.Plain) (key : String) :
    (o.edited edits).get? key = edits.foldl (Edit.valueAfter key) (o.get? key) := by
  induction edits generalizing o with
  | nil => rfl
  | cons edit edits ih =>
    obtain ⟨hedit, hrest⟩ := List.forall_mem_cons.mp hedits
    rw [List.foldl_cons, ← h.get?_apply edit key]
    exact ih (h.apply hedit) hrest

/-- Whatever column options were read from, and whatever a column can write was set or erased in
them since: their keys are there, trimmed and apart, each with the value that the changes leave it,
and the column that writes them reads as the same options in the same order. Of a key that the
column repeats, the first place and the last value are read. -/
theorem edited_columns_read_back (raw : String) (edits : List Edit)
    (hedits : ∀ edit ∈ edits, edit.Plain) :
    let o := (ofText raw).edited edits
    (o.entries.map Prod.fst).Nodup ∧ (∀ e ∈ o.entries, e.1 ≠ "" ∧ Text.trim e.1 = e.1) ∧
      ofText o.toText = o ∧
      (∀ key, o.get? key = edits.foldl (Edit.valueAfter key) ((ofText raw).get? key)) ∧
      (ofText raw).entries.map Prod.fst = ((pairsOf raw).map Prod.fst).eraseDups ∧
      ∀ key, (ofText raw).get? key =
        ((pairsOf raw).filter fun e => e.1 == key).getLast?.map Prod.snd := by
  intro o
  have hplain : o.Plain := (plain_ofText raw).edited hedits
  have hread := ofText_eq_ofList raw
  refine ⟨hplain.keys, fun e he => ?_, hplain.ofText_toText, ?_, ?_, fun key => ?_⟩
  · exact ⟨(hplain.pairs e he).named, (hplain.pairs e he).keyTight.trim_eq⟩
  · exact (plain_ofText raw).get?_edited hedits
  · rw [hread]
    exact keys_ofList (pairsOf raw)
  · rw [hread]
    exact get?_ofList (pairsOf raw) key

/-- A column with blanks, pieces that write no pair, a value with the mark of a pair, and a repeated
key; then one key goes, and a value with such a mark and an empty value come. -/
theorem repeated_key_reads_back :
    let raw := " b = 1=2 &junk& =3& a=4 & c = & b=5"
    let edits : List Edit := [.erase "a", .set "d" "", .set "c" "x=y"]
    let o := (ofText raw).edited edits
    (∀ edit ∈ edits, edit.Plain) ∧
      (ofText raw).entries = [("b", "5"), ("a", "4"), ("c", "")] ∧
      o.toText = "b=5&c=x=y&d=" ∧ ofText o.toText = o := by
  intro raw edits o
  have hplain : ∀ edit ∈ edits, edit.Plain := by
    refine List.forall_mem_cons.mpr ⟨trivial, List.forall_mem_cons.mpr ⟨?_,
      List.forall_mem_singleton.mpr ?_⟩⟩
    · exact ⟨by decide, by simp, by simp, Text.tight_of_all rfl, Text.tight_of_all rfl⟩
    · exact ⟨by decide, by simp, by simp, Text.tight_of_all rfl, Text.tight_of_all rfl⟩
  have hread : (ofText raw).entries = [("b", "5"), ("a", "4"), ("c", "")] := by decide +kernel
  have hwritten : o.toText = "b=5&c=x=y&d=" := by decide +kernel
  exact ⟨hplain, hread, hwritten, (edited_columns_read_back raw edits hplain).2.2.1⟩

end PetDuel.Options
