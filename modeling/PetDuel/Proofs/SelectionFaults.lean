import PetDuel.Proofs.Selections

/-!
Faults of selections. The first field says which fields have to follow and which form each of them
has. A selection is read exactly when these fields are all there in their forms; otherwise the first
one that is not is blamed.
-/

namespace PetDuel

namespace Number

structure Digits (ds : List Char) : Prop where
  nonempty : ds ≠ []
  digit : ∀ d ∈ ds, d.isDigit = true

inductive Writes : List Char → Int → Prop
  | bare {ds : List Char} (h : Digits ds) : Writes ds (Nat.ofDigitChars 10 ds 0)
  | plus {ds : List Char} (h : Digits ds) : Writes ('+' :: ds) (Nat.ofDigitChars 10 ds 0)
  | minus {ds : List Char} (h : Digits ds) : Writes ('-' :: ds) (-(Nat.ofDigitChars 10 ds 0 : Int))

variable {cs ds : List Char} {s : String} {n : Int}

theorem digits?_eq_some_iff {m : Nat} :
    digits? ds = some m ↔ Digits ds ∧ Nat.ofDigitChars 10 ds 0 = m := by
  have hdigits : (ds.isEmpty || !ds.all Char.isDigit) = false ↔ Digits ds := by
    rw [Bool.or_eq_false_iff, List.isEmpty_eq_false_iff, Bool.not_eq_false', List.all_eq_true]
    exact ⟨fun h => ⟨h.1, h.2⟩, fun h => ⟨h.nonempty, h.digit⟩⟩
  rw [digits?, ← hdigits]
  cases ds.isEmpty || !ds.all Char.isDigit <;> simp

/-- No sign is a digit. -/
theorem not_digits_cons {c : Char} (hc : c.isDigit = false) : ¬Digits (c :: ds) := by
  intro h
  have hdigit := h.digit c List.mem_cons_self
  rw [hc] at hdigit
  cases hdigit

/-- A number is read exactly when it is written without a minus in front. -/
theorem natList?_eq_some_iff {m : Nat} :
    natList? cs = some m ↔ cs.head? ≠ some '-' ∧ Writes cs m := by
  unfold natList?
  -- A plus in front is taken off before the digits, and a minus is not.
  split
  · rename_i ds
    rw [digits?_eq_some_iff]
    constructor
    · rintro ⟨h, rfl⟩
      exact ⟨by simp, .plus h⟩
    · rintro ⟨_, hwrites⟩
      generalize hm : (m : Int) = n at hwrites
      cases hwrites with
      | bare h => exact absurd h (not_digits_cons rfl)
      | plus h => exact ⟨h, (Int.ofNat.inj hm).symm⟩
  · rename_i hplus
    rw [digits?_eq_some_iff]
    constructor
    · rintro ⟨h, rfl⟩
      refine ⟨fun hminus => ?_, .bare h⟩
      obtain ⟨ds, rfl⟩ := List.head?_eq_some_iff.mp hminus
      exact not_digits_cons rfl h
    · rintro ⟨hminus, hwrites⟩
      generalize hm : (m : Int) = n at hwrites
      cases hwrites with
      | bare h => exact ⟨h, (Int.ofNat.inj hm).symm⟩
      | plus h => exact absurd rfl (hplus _)
      | minus h => exact absurd rfl hminus

theorem intList?_minus (ds : List Char) :
    intList? ('-' :: ds) = (digits? ds).map fun m : Nat => -(m : Int) := by
  rw [intList?]
  cases digits? ds <;> rfl

theorem intList?_of_head?_ne (h : cs.head? ≠ some '-') :
    intList? cs = (natList? cs).map fun m : Nat => (m : Int) := by
  unfold intList?
  split
  · exact absurd rfl h
  · cases natList? cs <;> rfl

/-- A whole number is read exactly when it is written, with at most one sign. -/
theorem intList?_eq_some_iff : intList? cs = some n ↔ Writes cs n := by
  by_cases hminus : cs.head? = some '-'
  · obtain ⟨ds, rfl⟩ := List.head?_eq_some_iff.mp hminus
    rw [intList?_minus, Option.map_eq_some_iff]
    constructor
    · rintro ⟨m, hm, rfl⟩
      obtain ⟨h, rfl⟩ := digits?_eq_some_iff.mp hm
      exact .minus h
    · intro hwrites
      cases hwrites with
      | bare h => exact absurd h (not_digits_cons rfl)
      | minus h => exact ⟨_, digits?_eq_some_iff.mpr ⟨h, rfl⟩, rfl⟩
  · have hnat {m : Nat} (h : Writes cs m) : natList? cs = some m :=
      natList?_eq_some_iff.mpr ⟨hminus, h⟩
    rw [intList?_of_head?_ne hminus, Option.map_eq_some_iff]
    constructor
    · rintro ⟨m, hm, rfl⟩
      exact (natList?_eq_some_iff.mp hm).2
    · intro hwrites
      cases hwrites with
      | bare h => exact ⟨_, hnat (.bare h), rfl⟩
      | plus h => exact ⟨_, hnat (.plus h), rfl⟩
      | minus h => exact absurd rfl hminus

/-- A number of 32 bits is read exactly when it is written and in range. -/
theorem int32?_eq_some_iff {n : Int32} : int32? s = some n ↔ Writes s.toList n.toInt := by
  unfold int32?
  simp only [Option.bind_eq_some_iff, Bool.and_eq_true, decide_eq_true_eq,
    Option.ite_none_right_eq_some]
  constructor
  · rintro ⟨m, hm, ⟨hlow, hhigh⟩, hn⟩
    have hvalue : n.toInt = m := by
      rw [← Option.some.inj hn]
      exact Int32.toInt_ofInt_of_le hlow (Int.lt_of_le_of_lt hhigh (by decide))
    rw [hvalue]
    exact intList?_eq_some_iff.mp hm
  · intro hwrites
    refine ⟨n.toInt, intList?_eq_some_iff.mpr hwrites, ⟨n.minValue_le_toInt, n.toInt_le⟩, ?_⟩
    rw [Int32.ofInt_toInt]

/-- A slot is read exactly when it is written without a minus and fits into a word. -/
theorem index?_eq_some_iff {n : Nat} : index? s = some n ↔
    n < UInt64.size ∧ s.toList.head? ≠ some '-' ∧ Writes s.toList n := by
  unfold index?
  rw [Option.bind_eq_some_iff]
  constructor
  · rintro ⟨m, hm, hn⟩
    obtain ⟨hlt, hn⟩ := Option.ite_none_right_eq_some.mp hn
    obtain rfl := Option.some.inj hn
    exact ⟨hlt, natList?_eq_some_iff.mp hm⟩
  · rintro ⟨hlt, hwrites⟩
    exact ⟨n, natList?_eq_some_iff.mpr hwrites, if_pos hlt⟩

end Number

/-- A flag is read whatever the case of its letters. -/
theorem flag?_eq_some_iff {value : String} {b : Bool} :
    flag? value = some b ↔ Text.lowered (Text.trimList value.toList) = (showFlag b).toList := by
  generalize hword : Text.lowered (Text.trimList value.toList) = word
  have htexts : (showFlag true).toList ≠ (showFlag false).toList := by decide
  have hflag : flag? value = if word = (showFlag true).toList then some true
      else if word = (showFlag false).toList then some false else none := by
    simp only [flag?, hword, beq_iff_eq]
    rfl
  rw [hflag]
  split_ifs with htrue hfalse
  · cases b <;> simp [htrue, htexts]
  · cases b <;> simp [hfalse, htexts.symm]
  · cases b <;> simp [htrue, hfalse]

namespace Skill

inductive FieldForm
  | number
  | slot
  | flag
  deriving DecidableEq, Repr

/-- A field has a form, blanks around it allowed: a number of 32 bits with its sign, a number from 0
of 64 bits, or `true` or `false` in any case. -/
def FieldForm.Fits : FieldForm → String → Prop
  | number, value => ∃ n : Int32, Number.Writes (Text.trimList value.toList) n.toInt
  | slot, value => ∃ n < UInt64.size, (Text.trimList value.toList).head? ≠ some '-' ∧
      Number.Writes (Text.trimList value.toList) n
  | flag, value => ∃ b, Text.lowered (Text.trimList value.toList) = (showFlag b).toList

def formsAfter (kind : Int32) : List FieldForm :=
  if kind = -2 then [.number]
  else if kind = -3 then [.slot, .slot, .flag]
  else []

def leadingNumber? (fields : List String) : Option Int32 := fields.head?.bind fieldInt?

def requiredForms (fields : List String) : List FieldForm :=
  .number :: ((leadingNumber? fields).map formsAfter).getD []

/-- A field that has to be there is missing or does not have its form. -/
def FaultAt (fields : List String) (i : Nat) : Prop :=
  ∃ form ∈ (requiredForms fields)[i]?, ∀ value ∈ fields[i]?, ¬form.Fits value

/-- What is said of a faulty field: that there is no field at all, that the field is missing, or
that it does not have its form, with its text as it stands. -/
inductive Blames (fields : List String) : Nat → SelectionError → Prop
  | empty (h : fields = []) : Blames fields 0 .empty
  | missing {i : Nat} {kind : Int32} (hkind : leadingNumber? fields = some kind)
      (h : fields.length ≤ i) : Blames fields i (.missingField kind i)
  | malformed {i : Nat} {value : String} (h : fields[i]? = some value) :
    Blames fields i (.invalidField i value)

variable {fields : List String} {catalog : Catalog} {α : Type} {read : String → Option α}
  {form : FieldForm} {kind : Int32} {i : Nat}

def Reads (read : String → Option α) (form : FieldForm) : Prop :=
  ∀ value, form.Fits value ↔ ∃ x, read value = some x

theorem reads_number : Reads fieldInt? .number := by
  intro value
  refine exists_congr fun n => ?_
  rw [fieldInt?, Number.int32?_eq_some_iff, Text.toList_trim]

theorem reads_slot : Reads fieldSlot? .slot := by
  intro value
  refine exists_congr fun n => ?_
  rw [fieldSlot?, Number.index?_eq_some_iff, Text.toList_trim]

theorem reads_flag : Reads flag? .flag :=
  fun _ => exists_congr fun _ => flag?_eq_some_iff.symm

instance (form : FieldForm) (value : String) : Decidable (form.Fits value) :=
  match form with
  | .number => decidable_of_iff ((fieldInt? value).isSome = true)
    (Option.isSome_iff_exists.trans (reads_number value).symm)
  | .slot => decidable_of_iff ((fieldSlot? value).isSome = true)
    (Option.isSome_iff_exists.trans (reads_slot value).symm)
  | .flag => decidable_of_iff ((flag? value).isSome = true)
    (Option.isSome_iff_exists.trans (reads_flag value).symm)

instance (fields : List String) (i : Nat) : Decidable (FaultAt fields i) :=
  inferInstanceAs (Decidable (∃ form ∈ (requiredForms fields)[i]?, _))

/-- A faulty field is blamed in one way only: it is missing or it is there. -/
theorem Blames.eq_of_blames {e e' : SelectionError} (h : Blames fields i e)
    (h' : Blames fields i e') : e = e' := by
  cases h with
  | empty hnil =>
    cases h' with
    | empty => rfl
    | missing hkind => simp [hnil, leadingNumber?] at hkind
    | malformed hvalue => simp [hnil] at hvalue
  | missing hkind hlength =>
    cases h' with
    | empty hnil => simp [hnil, leadingNumber?] at hkind
    | missing hkind' => rw [Option.some.inj (hkind.symm.trans hkind')]
    | malformed hvalue =>
      rw [List.getElem?_eq_none hlength] at hvalue
      cases hvalue
  | malformed hvalue =>
    cases h' with
    | empty hnil => simp [hnil] at hvalue
    | missing _ hlength =>
      rw [List.getElem?_eq_none hlength] at hvalue
      cases hvalue
    | malformed hvalue' => rw [Option.some.inj (hvalue.symm.trans hvalue')]

/-- A result that is right about the fields from one on: there is a fault among them exactly when it
is an error, and then it blames the first one. -/
def SettlesFrom (fields : List String) (i : Nat) : Except SelectionError Skill → Prop
  | .ok _ => ∀ j, i ≤ j → ¬FaultAt fields j
  | .error e => ∃ k, i ≤ k ∧ FaultAt fields k ∧ (∀ j, i ≤ j → j < k → ¬FaultAt fields j) ∧
      Blames fields k e

/-- Nothing is wrong with the fields beyond the required ones. -/
theorem settlesFrom_ok (h : (requiredForms fields).length ≤ i) (s : Skill) :
    SettlesFrom fields i (.ok s) := by
  rintro j hj ⟨form, hform, _⟩
  rw [List.getElem?_eq_none (h.trans hj)] at hform
  cases hform

/-- The error of a field that cannot be read blames that field, and the field is faulty. -/
theorem blames_of_readField {e : SelectionError} (hkind : i = 0 ∨ leadingNumber? fields = some kind)
    (hread : Reads read form) (h : readField read fields kind i = .error e) :
    Blames fields i e ∧ ∀ value ∈ fields[i]?, ¬form.Fits value := by
  unfold readField at h
  cases hvalue : fields[i]? with
  | none =>
    have hlength : fields.length ≤ i := List.getElem?_eq_none_iff.mp hvalue
    rw [hvalue] at h
    cases h
    refine ⟨?_, nofun⟩
    rcases hkind with rfl | hkind
    · exact .empty (List.length_eq_zero_iff.mp (Nat.le_zero.mp hlength))
    · -- There is a first field, so the missing one is a later one.
      have hne : i ≠ 0 := by
        rintro rfl
        rw [List.length_eq_zero_iff.mp (Nat.le_zero.mp hlength)] at hkind
        cases hkind
      rw [if_neg hne]
      exact .missing hkind hlength
  | some value =>
    rw [hvalue] at h
    dsimp only at h
    split at h
    · cases h
    · rename_i hnone
      cases h
      refine ⟨.malformed hvalue, fun value' hvalue' hfits => ?_⟩
      obtain rfl := Option.some.inj hvalue'
      obtain ⟨x, hx⟩ := (hread _).mp hfits
      rw [hnone] at hx
      cases hx

/-- A field is read, and what is done with it settles the fields behind it. -/
theorem SettlesFrom.bind {f : α → Except SelectionError Skill}
    (hkind : i = 0 ∨ leadingNumber? fields = some kind)
    (hform : (requiredForms fields)[i]? = some form) (hread : Reads read form)
    (h : ∀ x, readField read fields kind i = .ok x → SettlesFrom fields (i + 1) (f x)) :
    SettlesFrom fields i (readField read fields kind i >>= f) := by
  cases hfield : readField read fields kind i with
  | error e =>
    obtain ⟨hblames, hunfit⟩ := blames_of_readField hkind hread hfield
    exact ⟨i, le_rfl, ⟨form, hform, hunfit⟩, fun j hij hji => absurd hij (not_le.mpr hji), hblames⟩
  | ok x =>
    -- A field that is read has no fault, so the first one is among the later fields.
    have hfine : ¬FaultAt fields i := by
      rintro ⟨form', hform', hunfit⟩
      obtain ⟨value, hvalue, hx⟩ := readField_eq_ok_iff.mp hfield
      obtain rfl := Option.some.inj (hform.symm.trans hform')
      exact hunfit value hvalue ((hread value).mpr ⟨x, hx⟩)
    have hlater := h x hfield
    change SettlesFrom fields i (f x)
    cases hresult : f x with
    | ok s =>
      rw [hresult] at hlater
      intro j hij
      rcases hij.eq_or_lt with rfl | hlt
      · exact hfine
      · exact hlater j hlt
    | error e =>
      rw [hresult] at hlater
      obtain ⟨k, hik, hfault, hfirst, hblames⟩ := hlater
      refine ⟨k, (Nat.le_succ i).trans hik, hfault, fun j hij hjk => ?_, hblames⟩
      rcases hij.eq_or_lt with rfl | hlt
      · exact hfine
      · exact hfirst j hlt hjk

/-- The first field is read before all others, so its number is the one that leads. -/
theorem leadingNumber?_of_readField (h : readField fieldInt? fields 0 0 = .ok kind) :
    leadingNumber? fields = some kind := by
  obtain ⟨value, hvalue, hkind⟩ := readField_eq_ok_iff.mp h
  rw [leadingNumber?, List.head?_eq_getElem?, hvalue, Option.bind_some, hkind]

theorem requiredForms_of_leadingNumber? (h : leadingNumber? fields = some kind) :
    requiredForms fields = .number :: formsAfter kind := by
  rw [requiredForms, h, Option.map_some, Option.getD_some]

/-- Reading a selection is right about all of its fields. -/
theorem settlesFrom_ofSelection (fields : List String) (catalog : Catalog) :
    SettlesFrom fields 0 (ofSelection fields catalog) := by
  unfold ofSelection
  refine .bind (.inl rfl) rfl reads_number fun kind hfirst => ?_
  have hkind := leadingNumber?_of_readField hfirst
  have hforms := requiredForms_of_leadingNumber? hkind
  -- Only the codes of two actions ask for more fields.
  have hplain (hitem : kind ≠ -2) (hswitch : kind ≠ -3) (s : Skill) :
      SettlesFrom fields 1 (.ok s) := by
    have hnone : formsAfter kind = [] := (if_neg hitem).trans (if_neg hswitch)
    exact settlesFrom_ok (by rw [hforms, hnone]; rfl) s
  cases hcode : SkillKind.ofCode? kind with
  | none =>
    refine hplain ?_ ?_ _
    · rintro rfl
      cases hcode
    · rintro rfl
      cases hcode
  | some k =>
    obtain rfl := SkillKind.code_of_ofCode? hcode
    cases k with
    | item =>
      have hlist : requiredForms fields = [.number, .number] := hforms
      refine .bind (.inr hkind) (by rw [hlist]; rfl) reads_number fun id _ => ?_
      exact settlesFrom_ok (by rw [hlist]; rfl) _
    | switchPet =>
      have hlist : requiredForms fields = [.number, .slot, .slot, .flag] := hforms
      refine .bind (.inr hkind) (by rw [hlist]; rfl) reads_slot fun source _ => ?_
      refine .bind (.inr hkind) (by rw [hlist]; rfl) reads_slot fun target _ => ?_
      refine .bind (.inr hkind) (by rw [hlist]; rfl) reads_flag fun passive _ => ?_
      exact settlesFrom_ok (by rw [hlist]; rfl) _
    | pass | escape | property | physical | special | super =>
      exact hplain (by decide) (by decide) _

/-- Fields beyond the one that is read next do not matter to it. -/
theorem bind_readField_take {n : Nat} {f g : α → Except SelectionError Skill} (hi : i < n)
    (h : ∀ x, readField read fields kind i = .ok x → f x = g x) :
    (readField read (fields.take n) kind i >>= f) = (readField read fields kind i >>= g) := by
  have hsame : readField read (fields.take n) kind i = readField read fields kind i := by
    rw [readField, readField, List.getElem?_take_of_lt hi]
  rw [hsame]
  cases hfield : readField read fields kind i with
  | error e => rfl
  | ok x => exact h x hfield

/-- A selection is read from the fields that have to be there, and from no others. -/
theorem ofSelection_take (fields : List String) (catalog : Catalog) :
    ofSelection (fields.take (requiredForms fields).length) catalog =
      ofSelection fields catalog := by
  unfold ofSelection
  refine bind_readField_take (Nat.succ_pos _) fun kind hfirst => ?_
  have hforms := requiredForms_of_leadingNumber? (leadingNumber?_of_readField hfirst)
  cases hcode : SkillKind.ofCode? kind with
  | none => rfl
  | some k =>
    obtain rfl := SkillKind.code_of_ofCode? hcode
    cases k with
    | item =>
      have hlength : (requiredForms fields).length = 2 := congrArg List.length hforms
      exact bind_readField_take (by omega) fun _ _ => rfl
    | switchPet =>
      have hlength : (requiredForms fields).length = 4 := congrArg List.length hforms
      refine bind_readField_take (by omega) fun source _ => ?_
      refine bind_readField_take (by omega) fun target _ => ?_
      exact bind_readField_take (by omega) fun _ _ => rfl
    | pass | escape | property | physical | special | super => rfl

theorem requiredForms_congr {fields' : List String} (h : fields'.head? = fields.head?) :
    requiredForms fields' = requiredForms fields := by
  rw [requiredForms, requiredForms, leadingNumber?, leadingNumber?, h]

end Skill

/-- A selection is read exactly when no field that has to be there is missing or malformed. When it
is not read, the first such field is blamed, and what stands behind the fields that have to be there
never matters. -/
theorem first_faulty_field_blamed (fields : List String) (catalog : Catalog) :
    ((∃ s, Skill.ofSelection fields catalog = .ok s) ↔ ∀ i, ¬Skill.FaultAt fields i) ∧
    (∀ e, Skill.ofSelection fields catalog = .error e ↔ ∃ i, Skill.FaultAt fields i ∧
      (∀ j < i, ¬Skill.FaultAt fields j) ∧ Skill.Blames fields i e) ∧
    ∀ fields' : List String,
      fields'.take (Skill.requiredForms fields).length =
        fields.take (Skill.requiredForms fields).length →
      Skill.ofSelection fields' catalog = Skill.ofSelection fields catalog := by
  have hsettles := Skill.settlesFrom_ofSelection fields catalog
  refine ⟨?_, fun e => ?_, fun fields' hsame => ?_⟩
  · cases hresult : Skill.ofSelection fields catalog with
    | ok s =>
      rw [hresult] at hsettles
      exact iff_of_true ⟨s, rfl⟩ fun i => hsettles i (Nat.zero_le i)
    | error e =>
      rw [hresult] at hsettles
      obtain ⟨i, _, hfault, _⟩ := hsettles
      exact iff_of_false nofun fun h => h i hfault
  · cases hresult : Skill.ofSelection fields catalog with
    | ok s =>
      rw [hresult] at hsettles
      refine iff_of_false nofun ?_
      rintro ⟨i, hfault, _⟩
      exact hsettles i (Nat.zero_le i) hfault
    | error e' =>
      rw [hresult] at hsettles
      obtain ⟨i, _, hfault, hfirst, hblames⟩ := hsettles
      have hbefore : ∀ j < i, ¬Skill.FaultAt fields j := fun j hj => hfirst j (Nat.zero_le j) hj
      constructor
      · intro he
        cases he
        exact ⟨i, hfault, hbefore, hblames⟩
      · rintro ⟨k, hfault', hbefore', hblames'⟩
        -- There is only one first fault, and one thing to say of it.
        obtain rfl : i = k := by
          apply le_antisymm
          · exact not_lt.mp fun h => hbefore k h hfault'
          · exact not_lt.mp fun h => hbefore' i h hfault
        rw [hblames.eq_of_blames hblames']
  · have hhead : fields'.head? = fields.head? := by
      have hne : (Skill.requiredForms fields).length ≠ 0 := Nat.succ_ne_zero _
      have htake := congrArg List.head? hsame
      rwa [List.head?_take, List.head?_take, if_neg hne, if_neg hne] at htake
    have hforms := Skill.requiredForms_congr hhead
    calc Skill.ofSelection fields' catalog
        = Skill.ofSelection (fields'.take (Skill.requiredForms fields').length) catalog :=
          (Skill.ofSelection_take fields' catalog).symm
      _ = Skill.ofSelection (fields.take (Skill.requiredForms fields).length) catalog := by
          rw [hforms, hsame]
      _ = Skill.ofSelection fields catalog := Skill.ofSelection_take fields catalog

/-- A switch with two malformed fields: the first one is blamed, whatever follows the last one. -/
theorem first_of_two_faults_blamed :
    let fields := ["-3", " +1", "x ", "maybe"]
    (fields ++ ["rest"]).take 4 = fields.take 4 ∧
      Skill.FaultAt fields 2 ∧ Skill.FaultAt fields 3 ∧
      Skill.ofSelection fields .empty = .error (.invalidField 2 "x ") ∧
      Skill.ofSelection (fields ++ ["rest"]) .empty = .error (.invalidField 2 "x ") := by
  intro fields
  obtain ⟨_, hblamed, hrest⟩ := first_faulty_field_blamed fields .empty
  have hfault : Skill.FaultAt fields 2 := by decide
  have herror : Skill.ofSelection fields .empty = .error (.invalidField 2 "x ") :=
    (hblamed _).mpr ⟨2, hfault, by decide, .malformed rfl⟩
  exact ⟨rfl, hfault, by decide, herror, (hrest (fields ++ ["rest"]) rfl).trans herror⟩

end PetDuel
