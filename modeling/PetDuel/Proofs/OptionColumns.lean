import Mathlib.Data.List.Nodup
import PetDuel.Options
import PetDuel.Proofs.Keyed
import PetDuel.Proofs.Pieces

/-!
Option columns. Options whose keys and values do not hold the marks of a column are read back from
the column that writes them, and every column is read as such options.
-/

namespace PetDuel

namespace Options

/-- A pair that a column can write: a key that is there, trimmed, without marks, and a trimmed value
without the mark between pairs. -/
structure PlainPair (e : String × String) : Prop where
  named : e.1 ≠ ""
  key : ∀ c ∈ e.1.toList, c ≠ '=' ∧ c ≠ '&'
  value : ∀ c ∈ e.2.toList, c ≠ '&'
  keyTight : Text.Tight e.1.toList
  valueTight : Text.Tight e.2.toList

structure Plain (o : Options) : Prop where
  keys : (o.entries.map Prod.fst).Nodup
  pairs : ∀ e ∈ o.entries, PlainPair e

section Writing

variable {o : Options} {e : String × String} {es : List (String × String)}

theorem foldl_set (es : List (String × String)) (o : Options) :
    es.foldl (fun o e => o.set e.1 e.2) o =
      ⟨es.foldl (fun ys x => Keyed.put Prod.fst x ys) o.entries⟩ := by
  induction es generalizing o with
  | nil => rfl
  | cons e es ih => exact ih (o.set e.1 e.2)

/-- Pairs with different keys are the entries as they stand. -/
theorem ofList_eq (h : (es.map Prod.fst).Nodup) : ofList es = ⟨es⟩ :=
  (foldl_set es empty).trans (congrArg Options.mk (Keyed.foldl_put_eq_append h))

def pairText (e : String × String) : String :=
  e.1 ++ "=" ++ e.2

theorem toList_pairText (e : String × String) :
    (pairText e).toList = e.1.toList ++ '=' :: e.2.toList := by
  simp [pairText]

theorem PlainPair.tight (h : PlainPair e) : Text.Tight (pairText e).toList := by
  have hkey : e.1.toList ≠ [] := fun hnil => h.named (String.toList_eq_nil_iff.mp hnil)
  rw [toList_pairText]
  exact h.keyTight.append_cons h.valueTight hkey (by decide)

theorem PlainPair.addPiece (h : PlainPair e) (o : Options) :
    o.addPiece (pairText e) = o.set e.1 e.2 := by
  have hmark : '=' ∉ e.1.toList := fun hmem => (h.key '=' hmem).1 rfl
  have hcut : Text.cut? '=' (pairText e) = some (e.1, e.2) := Text.cut?_append hmark
  have hnamed : (e.1 == "") = false := beq_false_of_ne h.named
  simp only [Options.addPiece, hcut, h.keyTight.trim_eq, h.valueTight.trim_eq, hnamed,
    Bool.false_eq_true, if_false]

/-- Joined pairs need no trimming, as the first and the last one need none. -/
theorem tight_intercalate (h : ∀ e ∈ es, PlainPair e) :
    Text.Tight ("&".intercalate (es.map pairText)).toList := by
  induction es with
  | nil => exact ⟨nofun, nofun⟩
  | cons e es ih =>
    obtain ⟨he, hes⟩ := List.forall_mem_cons.mp h
    cases es with
    | nil => exact he.tight
    | cons e' es =>
      have hne : (pairText e).toList ≠ [] := by
        rw [toList_pairText]
        exact List.append_ne_nil_of_right_ne_nil _ (List.cons_ne_nil _ _)
      have hjoin : ("&".intercalate ((e :: e' :: es).map pairText)).toList =
          (pairText e).toList ++ '&' :: ("&".intercalate ((e' :: es).map pairText)).toList := by
        simp [String.intercalate_cons_cons]
      rw [hjoin]
      exact he.tight.append_cons (ih hes) hne (by decide)

theorem PlainPair.not_mem_pairText (h : PlainPair e) : '&' ∉ (pairText e).toList := by
  rw [toList_pairText]
  intro hmem
  rcases List.mem_append.mp hmem with hkey | hvalue
  · exact (h.key '&' hkey).2 rfl
  · rcases List.mem_cons.mp hvalue with heq | hvalue
    · cases heq
    · exact h.value '&' hvalue rfl

/-- No pair has the mark between pairs in it, so a column is cut where its pairs were joined. -/
theorem split_pairTexts (h : ∀ e ∈ es, PlainPair e) (hne : es ≠ []) :
    Text.split '&' ("&".intercalate (es.map pairText)) = es.map pairText := by
  have hplain : ∀ p ∈ es.map pairText, '&' ∉ p.toList := by
    intro p hp
    obtain ⟨e, he, rfl⟩ := List.mem_map.mp hp
    exact (h e he).not_mem_pairText
  exact Text.split_intercalate hplain fun hnil => hne (List.map_eq_nil_iff.mp hnil)

theorem foldl_addPiece (h : ∀ e ∈ es, PlainPair e) (o : Options) :
    (es.map pairText).foldl addPiece o = es.foldl (fun o e => o.set e.1 e.2) o := by
  induction es generalizing o with
  | nil => rfl
  | cons e es ih =>
    obtain ⟨he, hes⟩ := List.forall_mem_cons.mp h
    rw [List.map_cons, List.foldl_cons, List.foldl_cons, he.addPiece, ih hes]

/-- Options are read back from the column that writes them. -/
theorem Plain.ofText_toText (h : o.Plain) : ofText o.toText = o := by
  obtain ⟨entries⟩ := o
  cases entries with
  | nil => rfl
  | cons e es =>
    have hsplit := split_pairTexts h.pairs (List.cons_ne_nil e es)
    -- The column holds the mark of its first pair, so it is not the word for no options.
    have hmark : '=' ∈ ("&".intercalate ((e :: es).map pairText)).toList := by
      have hfirst : pairText e ∈ Text.split '&' ("&".intercalate ((e :: es).map pairText)) := by
        rw [hsplit]
        exact List.mem_cons_self
      refine (Text.mem_of_mem_split hfirst ?_).2
      rw [toList_pairText]
      exact List.mem_append_right _ List.mem_cons_self
    have hother (s : String) (hs : '=' ∉ s.toList) :
        ("&".intercalate ((e :: es).map pairText) == s) = false := by
      apply beq_false_of_ne
      rintro rfl
      exact hs hmark
    have htrim := (tight_intercalate h.pairs).trim_eq
    show ofText ("&".intercalate ((e :: es).map pairText)) = _
    rw [ofText, htrim, hother "" (by decide), hother emptyText (by decide), hsplit]
    exact (foldl_addPiece h.pairs empty).trans (ofList_eq h.keys)

theorem Plain.tight_toText (h : o.Plain) : Text.Tight o.toText.toList := by
  unfold toText
  split
  · exact Text.tight_of_all (by decide)
  · exact tight_intercalate h.pairs

/-- A column holds its marks and what its pairs hold. -/
theorem not_mem_toText {c : Char} (hnone : c ∉ emptyText.toList) (hpairs : c ≠ '&')
    (hpair : c ≠ '=') (h : ∀ e ∈ o.entries, c ∉ e.1.toList ∧ c ∉ e.2.toList) :
    c ∉ o.toText.toList := by
  unfold toText
  split
  · exact hnone
  · intro hmem
    have hcases : c = '&' ∨ ∃ p ∈ o.entries.map pairText, c ∈ p.toList :=
      Text.mem_of_mem_intercalate hmem
    rcases hcases with heq | ⟨p, hp, hc⟩
    · exact hpairs heq
    · obtain ⟨e, he, rfl⟩ := List.mem_map.mp hp
      rw [toList_pairText] at hc
      rcases List.mem_append.mp hc with hkey | hvalue
      · exact (h e he).1 hkey
      · rcases List.mem_cons.mp hvalue with heq | hvalue
        · exact hpair heq
        · exact (h e he).2 hvalue

end Writing

theorem mem_of_get? {o : Options} {key value : String} (h : o.get? key = some value) :
    (key, value) ∈ o.entries := by
  obtain ⟨e, hfind, hvalue⟩ := Option.map_eq_some_iff.mp h
  unfold Keyed.find? at hfind
  have hkey := List.find?_some hfind
  rw [← beq_iff_eq.mp hkey, ← hvalue]
  exact List.mem_of_find?_eq_some hfind

/-- Where each key stands once, a key has the value that it stands with. -/
theorem get?_eq_some_iff {o : Options} (h : (o.entries.map Prod.fst).Nodup) {key value : String} :
    o.get? key = some value ↔ (key, value) ∈ o.entries := by
  constructor
  · exact mem_of_get?
  · intro hmem
    cases hget : o.get? key with
    | none =>
      have hfind := List.find?_eq_none.mp (Option.map_eq_none_iff.mp hget)
      exact absurd (beq_self_eq_true key) (hfind _ hmem)
    | some other =>
      have hsame : (key, other) = (key, value) :=
        List.inj_on_of_nodup_map h (mem_of_get? hget) hmem rfl
      exact congrArg (some ·.2) hsame

section Reading

variable {o : Options} {e : String × String} {c : Char} {piece raw : String}

theorem Plain.set (h : o.Plain) (he : PlainPair e) : (o.set e.1 e.2).Plain := by
  constructor
  · exact Keyed.nodup_put h.keys
  · intro e' he'
    rcases Keyed.mem_of_mem_put he' with rfl | he'
    · exact he
    · exact h.pairs e' he'

/-- What a piece adds, if it adds anything, is a trimmed pair from the two sides of its mark. -/
theorem addPiece_cases (o : Options) (piece : String) :
    o.addPiece piece = o ∨ ∃ key value, piece.toList = key.toList ++ '=' :: value.toList ∧
      '=' ∉ key.toList ∧ Text.trim key ≠ "" ∧
      o.addPiece piece = o.set (Text.trim key) (Text.trim value) := by
  unfold addPiece
  split
  · exact .inl rfl
  · rename_i key value hcut
    obtain ⟨hjoin, hmark⟩ := Text.eq_append_of_cut? hcut
    split
    · exact .inl rfl
    · rename_i hnamed
      exact .inr ⟨key, value, hjoin, hmark, fun h => hnamed (beq_iff_eq.mpr h), rfl⟩

/-- What holds of no options and is kept by every piece of a column holds of the options that are
read from the column. -/
theorem ofText_induction {P : Options → Prop} (hempty : P empty)
    (hstep : ∀ o, ∀ piece ∈ Text.split '&' (Text.trim raw), P o → P (o.addPiece piece)) :
    P (ofText raw) := by
  unfold ofText
  dsimp only
  split
  · exact hempty
  · exact List.foldlRecOn _ _ hempty fun o ho piece hpiece => hstep o piece hpiece ho

/-- The options that are read from a column can be written into one. -/
theorem plain_ofText (raw : String) : (ofText raw).Plain := by
  apply ofText_induction ⟨List.nodup_nil, List.forall_mem_nil _⟩
  intro o piece hpiece ho
  have hplain : ∀ c ∈ piece.toList, c ≠ '&' := fun c hc => (Text.mem_of_mem_split hpiece hc).1
  rcases addPiece_cases o piece with hsame | ⟨key, value, hjoin, hmark, hnamed, hset⟩
  · rw [hsame]
    exact ho
  · rw [hjoin] at hplain
    obtain ⟨hkey, hvalue⟩ := List.forall_mem_append.mp hplain
    rw [hset]
    refine ho.set (e := (Text.trim key, Text.trim value))
      ⟨hnamed, ?_, ?_, Text.tight_trim key, Text.tight_trim value⟩
    · intro c hc
      have hc := Text.mem_of_mem_trim hc
      exact ⟨fun heq => hmark (heq ▸ hc), hkey c hc⟩
    · intro c hc
      exact hvalue c (List.mem_cons_of_mem _ (Text.mem_of_mem_trim hc))

/-- The values of the options that are read from a column stand in the column. -/
theorem mem_of_mem_ofText (he : e ∈ (ofText raw).entries) (hc : c ∈ e.2.toList) :
    c ∈ raw.toList := by
  suffices hall : ∀ e ∈ (ofText raw).entries, ∀ c ∈ e.2.toList, c ∈ raw.toList from hall e he c hc
  apply ofText_induction (P := fun o => ∀ e ∈ o.entries, ∀ c ∈ e.2.toList, c ∈ raw.toList)
    (List.forall_mem_nil _)
  intro o piece hpiece ho
  rcases addPiece_cases o piece with hsame | ⟨key, value, hjoin, _, _, hset⟩
  · rw [hsame]
    exact ho
  · rw [hset]
    intro e he c hc
    rcases Keyed.mem_of_mem_put he with rfl | he
    · have hvalue : c ∈ value.toList := Text.mem_of_mem_trim hc
      have hin : c ∈ piece.toList := by
        rw [hjoin]
        exact List.mem_append_right _ (List.mem_cons_of_mem _ hvalue)
      exact Text.mem_of_mem_trim (Text.mem_of_mem_split hpiece hin).2
    · exact ho e he c hc

end Reading

end Options

end PetDuel
