import Mathlib.Data.List.TakeWhile
import PetDuel.Proofs.Names

/-!
The lexemes of an operand. A text that has tokens is cut into the lexemes of these tokens, with
blanks between them and nothing else, and further blanks between two lexemes change nothing. A text
has no tokens when a number in it cannot be read, a call in it is never closed, or a character of it
belongs to no lexeme.
-/

namespace PetDuel.Operand

/-- What a name goes on with behind its first character: characters of a name, and calls, each with
everything up to the first closing parenthesis. -/
inductive NameTail : List Char → Prop
  | nil : NameTail []
  | char {c : Char} {cs : List Char} (hc : isNameChar c = true) (hcs : NameTail cs) :
    NameTail (c :: cs)
  | call {inner cs : List Char} (hinner : ')' ∉ inner) (hcs : NameTail cs) :
    NameTail ('(' :: (inner ++ ')' :: cs))

inductive Spells : Token → List Char → Prop
  | single {c : Char} {t : Token} (ht : single? c = some t) : Spells t [c]
  | number {run : List Char} {x : Double} (hne : run ≠ [])
      (hrun : ∀ c ∈ run, isNumberChar c = true) (hx : Double.ofText? (String.ofList run) = some x) :
    Spells (.number x) run
  | name {c : Char} {tail : List Char} (hc : isNameStart c = true) (htail : NameTail tail) :
    Spells (.name (String.ofList (c :: tail))) (c :: tail)

def Token.goesOn : Token → Char → Bool
  | number _, c => isNumberChar c
  | name _, c => isNameChar c || c == '('
  | _, _ => false

/-- A lexeme of the token ends where this text begins. -/
def EndsBefore (t : Token) (rest : List Char) : Prop := ∀ c ∈ rest.head?, t.goesOn c = false

inductive Piece
  | blank (c : Char)
  | lexeme (t : Token) (text : List Char)

def Piece.text : Piece → List Char
  | blank c => [c]
  | lexeme _ text => text

def Piece.token? : Piece → Option Token
  | blank _ => none
  | lexeme t _ => some t

def spell (ps : List Piece) : List Char := ps.flatMap Piece.text

def tokensOf (ps : List Piece) : List Token := ps.filterMap Piece.token?

/-- In front of a rest, a text is cut into blanks and lexemes, none of which goes on where the next
piece or the rest begins. -/
inductive Cut : List Piece → List Char → Prop
  | nil (rest : List Char) : Cut [] rest
  | blank {c : Char} {ps : List Piece} {rest : List Char} (hc : isSpace c = true)
      (hps : Cut ps rest) : Cut (.blank c :: ps) rest
  | lexeme {t : Token} {text : List Char} {ps : List Piece} {rest : List Char}
      (htext : Spells t text) (hend : EndsBefore t (spell ps ++ rest)) (hps : Cut ps rest) :
    Cut (.lexeme t text :: ps) rest

/-- What no blank and no lexeme stands in front of: a number that cannot be read, a name with a call
that is never closed, or a character that begins nothing. -/
inductive Stray : List Char → Prop
  | number {run rest : List Char} (hne : run ≠ []) (hrun : ∀ c ∈ run, isNumberChar c = true)
      (hrest : ∀ c ∈ rest.head?, isNumberChar c = false)
      (hbad : Double.ofText? (String.ofList run) = none) : Stray (run ++ rest)
  | call {c : Char} {tail rest : List Char} (hc : isNameStart c = true) (htail : NameTail tail)
      (hopen : ')' ∉ rest) : Stray (c :: (tail ++ '(' :: rest))
  | other {c : Char} {rest : List Char} (hspace : isSpace c = false) (hsingle : single? c = none)
      (hnumber : isNumberChar c = false) (hname : isNameStart c = false) : Stray (c :: rest)

/-- Pieces with further blanks between them. -/
inductive Respaced : List Piece → List Piece → Prop
  | nil : Respaced [] []
  | piece {ps qs : List Piece} (p : Piece) (h : Respaced ps qs) : Respaced (p :: ps) (p :: qs)
  | blank {c : Char} {ps qs : List Piece} (hc : isSpace c = true) (h : Respaced ps qs) :
    Respaced ps (.blank c :: qs)

theorem endsBefore_nil (t : Token) : EndsBefore t [] := nofun

theorem endsBefore_cons {t : Token} {c : Char} {rest : List Char} :
    EndsBefore t (c :: rest) ↔ t.goesOn c = false := by
  constructor
  · intro h
    exact h c rfl
  · intro h d hd
    obtain rfl := Option.some.inj hd
    exact h

theorem spell_cons (p : Piece) (ps : List Piece) : spell (p :: ps) = p.text ++ spell ps :=
  List.flatMap_cons

theorem spell_blank (c : Char) (ps : List Piece) : spell (.blank c :: ps) = c :: spell ps := rfl

theorem spell_lexeme (t : Token) (text : List Char) (ps : List Piece) :
    spell (.lexeme t text :: ps) = text ++ spell ps := rfl

theorem tokensOf_blank (c : Char) (ps : List Piece) : tokensOf (.blank c :: ps) = tokensOf ps := rfl

theorem tokensOf_lexeme (t : Token) (text : List Char) (ps : List Piece) :
    tokensOf (.lexeme t text :: ps) = t :: tokensOf ps := rfl

section Characters

variable {c : Char} {t : Token}

theorem mem_of_isSpace (h : isSpace c = true) : c ∈ [' ', '\t'] := by
  simpa [isSpace] using h

theorem mem_of_single? (h : single? c = some t) : c ∈ ['+', '-', '*', '/', '%', '(', ')'] := by
  unfold single? at h
  split at h
  case h_8 => cases h
  all_goals decide

/-- A blank ends every lexeme. -/
theorem goesOn_of_isSpace (h : isSpace c = true) (t : Token) : t.goesOn c = false := by
  rcases List.mem_pair.mp (mem_of_isSpace h) with rfl | rfl
  · cases t <;> rfl
  · cases t <;> rfl

/-- A token of one character takes in nothing more. -/
theorem goesOn_of_single? (h : single? c = some t) (d : Char) : t.goesOn d = false := by
  unfold single? at h
  split at h <;> cases h <;> rfl

theorem isSpace_of_single? (h : single? c = some t) : isSpace c = false := by
  unfold single? at h
  split at h
  case h_8 => cases h
  all_goals rfl

def IsPlain (c : Char) : Prop := isSpace c = false ∧ single? c = none

/-- A class of characters that has none of the marks in it is plain. The marks are few, so this is
decided for each class. -/
theorem isPlain_of {p : Char → Bool}
    (hp : ([' ', '\t', '+', '-', '*', '/', '%', '(', ')'].all fun d => !p d) = true)
    (h : p c = true) : IsPlain c := by
  have hmem : c ∉ [' ', '\t', '+', '-', '*', '/', '%', '(', ')'] := by
    intro hc
    have hnot := List.all_eq_true.mp hp c hc
    rw [h] at hnot
    cases hnot
  constructor
  · apply Bool.eq_false_iff.mpr
    intro hspace
    exact hmem (List.mem_append_left _ (mem_of_isSpace hspace))
  · apply Option.eq_none_iff_forall_ne_some.mpr
    intro t ht
    exact hmem (List.mem_append_right [' ', '\t'] (mem_of_single? ht))

theorem isPlain_of_isNumberChar (h : isNumberChar c = true) : IsPlain c :=
  isPlain_of rfl h

theorem isPlain_of_isNameStart (h : isNameStart c = true) : IsPlain c :=
  isPlain_of rfl h

theorem toNat_le_of_isNumberChar (h : isNumberChar c = true) : c.toNat ≤ '9'.toNat := by
  rcases Bool.or_eq_true_iff.mp h with hdigit | hdot
  · exact (Char.isDigit_iff_toNat.mp hdigit).2
  · rw [beq_iff_eq.mp hdot]
    decide

theorem le_toNat_of_isNameStart (h : isNameStart c = true) : 'A'.toNat ≤ c.toNat := by
  rcases Bool.or_eq_true_iff.mp h with hletter | hdash
  · rcases Bool.or_eq_true_iff.mp hletter with hupper | hlower
    · exact UInt32.le_iff_toNat_le.mp (of_decide_eq_true hupper).1
    · have hfirst : 'a'.toNat ≤ c.toNat :=
        UInt32.le_iff_toNat_le.mp (of_decide_eq_true (Bool.and_eq_true_iff.mp hlower).1)
      exact (by decide : 'A'.toNat ≤ 'a'.toNat).trans hfirst
  · rw [beq_iff_eq.mp hdash]
    decide

/-- A number and a name cannot start alike, for the characters of a number lie below the letters. -/
theorem isNumberChar_of_isNameStart (h : isNameStart c = true) : isNumberChar c = false := by
  apply Bool.eq_false_iff.mpr
  intro hnumber
  have hgap : '9'.toNat < 'A'.toNat := by decide
  have hhigh := toNat_le_of_isNumberChar hnumber
  have hlow := le_toNat_of_isNameStart h
  omega

end Characters

section Runs

variable {run tail inner rest : List Char}

theorem takeWhile_run {p : Char → Bool} (hrun : ∀ c ∈ run, p c = true)
    (hrest : ∀ c ∈ rest.head?, p c = false) : (run ++ rest).takeWhile p = run := by
  rw [List.takeWhile_append_of_pos hrun]
  cases rest with
  | nil => exact List.append_nil run
  | cons c rest =>
    rw [List.takeWhile_cons_of_neg (Bool.eq_false_iff.mp (hrest c rfl)), List.append_nil]

theorem dropWhile_run {p : Char → Bool} (hrun : ∀ c ∈ run, p c = true)
    (hrest : ∀ c ∈ rest.head?, p c = false) : (run ++ rest).dropWhile p = rest := by
  rw [List.dropWhile_append_of_pos hrun]
  cases rest with
  | nil => rfl
  | cons c rest => exact List.dropWhile_cons_of_neg (Bool.eq_false_iff.mp (hrest c rfl))

/-- A digit or a point begins a longest run of digits and points. -/
theorem exists_run {c : Char} (hc : isNumberChar c = true) (cs : List Char) :
    ∃ run rest, c :: cs = run ++ rest ∧ run ≠ [] ∧ (∀ d ∈ run, isNumberChar d = true) ∧
      ∀ d ∈ rest.head?, isNumberChar d = false := by
  refine ⟨c :: cs.takeWhile isNumberChar, cs.dropWhile isNumberChar, ?_, List.cons_ne_nil _ _,
    List.forall_mem_cons.mpr ⟨hc, fun d hd => List.mem_takeWhile_imp hd⟩, ?_⟩
  · rw [List.cons_append, List.takeWhile_append_dropWhile]
  · intro d hd
    have hstop := List.head?_dropWhile_not isNumberChar cs
    rw [hd] at hstop
    simpa using hstop

/-- A call takes in everything up to its closing parenthesis. -/
theorem nameRun_call (h : ')' ∉ inner) (cs : List Char) :
    nameRun true (inner ++ ')' :: cs) =
      (nameRun false cs).map fun p => (inner ++ ')' :: p.1, p.2) := by
  induction inner with
  | nil => rfl
  | cons c inner ih =>
    obtain ⟨hc, hinner⟩ := not_or.mp (List.mem_cons.not.mp h)
    have hgoes : (c != ')') = true := bne_iff_ne.mpr (Ne.symm hc)
    rw [List.cons_append, nameRun, hgoes, ih hinner, Option.map_map]
    rfl

/-- A call that is never closed is no name. -/
theorem nameRun_of_open (h : ')' ∉ inner) : nameRun true inner = none := by
  induction inner with
  | nil => rfl
  | cons c inner ih =>
    obtain ⟨hc, hinner⟩ := not_or.mp (List.mem_cons.not.mp h)
    have hgoes : (c != ')') = true := bne_iff_ne.mpr (Ne.symm hc)
    rw [nameRun, hgoes, ih hinner]
    rfl

/-- The run of a name takes in all that the name can go on with. -/
theorem NameTail.nameRun_append (h : NameTail tail) (rest : List Char) :
    nameRun false (tail ++ rest) = (nameRun false rest).map fun p => (tail ++ p.1, p.2) := by
  induction h with
  | nil => exact Option.map_id'.symm
  | @char c cs hc _ ih =>
    rw [List.cons_append, nameRun, if_pos hc, ih, Option.map_map]
    rfl
  | @call inner cs hinner _ ih =>
    have hopening : isNameChar '(' = false := by decide
    rw [List.cons_append, List.append_assoc, List.cons_append, nameRun, hopening,
      nameRun_call hinner, ih, Option.map_map]
    simp [Function.comp_def]

theorem nameRun_of_endsBefore {s : String} (h : EndsBefore (.name s) rest) :
    nameRun false rest = some ([], rest) := by
  cases rest with
  | nil => rfl
  | cons c rest =>
    obtain ⟨hchar, hopening⟩ := Bool.or_eq_false_iff.mp (endsBefore_cons.mp h)
    rw [nameRun, hchar, hopening]
    rfl

theorem nameRun_of_openCall (h : ')' ∉ rest) : nameRun false ('(' :: rest) = none := by
  have hopening : isNameChar '(' = false := by decide
  rw [nameRun, hopening, nameRun_of_open h]
  rfl

/-- Behind its first character, a name goes on up to a character that it does not take in, or up to
a call that is never closed. -/
theorem exists_nameTail (s : String) (cs : List Char) :
    ∃ tail rest, cs = tail ++ rest ∧ NameTail tail ∧
      (EndsBefore (.name s) rest ∨ ∃ inner, rest = '(' :: inner ∧ ')' ∉ inner) := by
  -- A call takes in many characters at once, so the induction is on the length of what is left.
  induction hn : cs.length using Nat.strong_induction_on generalizing cs with
  | _ n ih =>
    cases cs with
    | nil => exact ⟨[], [], rfl, .nil, .inl (endsBefore_nil _)⟩
    | cons c cs =>
      subst hn
      by_cases hchar : isNameChar c = true
      · obtain ⟨tail, rest, rfl, htail, hrest⟩ := ih cs.length (Nat.lt_succ_self _) cs rfl
        exact ⟨c :: tail, rest, rfl, .char hchar htail, hrest⟩
      · by_cases hopening : c = '('
        · subst hopening
          by_cases hclosed : ')' ∈ cs
          · obtain ⟨inner, behind, rfl, hinner⟩ := List.eq_append_cons_of_mem hclosed
            have hshorter : behind.length < ('(' :: (inner ++ ')' :: behind)).length := by
              rw [List.length_cons, List.length_append, List.length_cons]
              omega
            obtain ⟨tail, rest, rfl, htail, hrest⟩ := ih behind.length hshorter behind rfl
            refine ⟨'(' :: (inner ++ ')' :: tail), rest, ?_, .call hinner htail, hrest⟩
            rw [List.cons_append, List.append_assoc, List.cons_append]
          · exact ⟨[], '(' :: cs, rfl, .nil, .inr ⟨cs, rfl, hclosed⟩⟩
        · refine ⟨[], c :: cs, rfl, .nil, .inl (endsBefore_cons.mpr ?_)⟩
          exact Bool.or_eq_false_iff.mpr
            ⟨Bool.eq_false_iff.mpr hchar, beq_eq_false_iff_ne.mpr hopening⟩

end Runs

section Steps

variable {c : Char} {t : Token} {text cs rest : List Char} {ps : List Piece}

theorem tokensWithin_nil (n : Nat) : tokensWithin n [] = some [] := by
  cases n <;> rfl

theorem tokensWithin_of_isSpace (h : isSpace c = true) (n : Nat) (cs : List Char) :
    tokensWithin (n + 1) (c :: cs) = tokensWithin n cs := by
  rw [tokensWithin, if_pos h]

/-- A character that is neither blank nor a mark starts a number or a name, or is a stray one. -/
theorem tokensWithin_of_isPlain (h : IsPlain c) (n : Nat) (cs : List Char) :
    tokensWithin (n + 1) (c :: cs) =
      if isNumberChar c then
        (numberToken? (c :: cs.takeWhile isNumberChar)).bind fun t =>
          (tokensWithin n (cs.dropWhile isNumberChar)).map (t :: ·)
      else if isNameStart c then
        (nameRun false cs).bind fun p =>
          (tokensWithin n p.2).map (.name (String.ofList (c :: p.1)) :: ·)
      else none := by
  rw [tokensWithin, h.1, h.2]
  rfl

theorem tokensWithin_of_run {run : List Char} (hne : run ≠ [])
    (hrun : ∀ c ∈ run, isNumberChar c = true) (hrest : ∀ c ∈ rest.head?, isNumberChar c = false)
    (n : Nat) : tokensWithin (n + 1) (run ++ rest) =
      (numberToken? run).bind fun t => (tokensWithin n rest).map (t :: ·) := by
  obtain ⟨c, run, rfl⟩ := List.exists_cons_of_ne_nil hne
  obtain ⟨hc, hrun⟩ := List.forall_mem_cons.mp hrun
  rw [List.cons_append, tokensWithin_of_isPlain (isPlain_of_isNumberChar hc), if_pos hc,
    takeWhile_run hrun hrest, dropWhile_run hrun hrest]

theorem tokensWithin_of_isNameStart (hc : isNameStart c = true) (n : Nat) (cs : List Char) :
    tokensWithin (n + 1) (c :: cs) = (nameRun false cs).bind fun p =>
      (tokensWithin n p.2).map (.name (String.ofList (c :: p.1)) :: ·) := by
  rw [tokensWithin_of_isPlain (isPlain_of_isNameStart hc), isNumberChar_of_isNameStart hc,
    if_pos hc]
  rfl

/-- A lexeme is read as its token, whatever follows it. -/
theorem tokensWithin_of_spells (h : Spells t text) (hend : EndsBefore t rest) (n : Nat) :
    tokensWithin (n + 1) (text ++ rest) = (tokensWithin n rest).map (t :: ·) := by
  cases h with
  | @single c _ ht =>
    rw [List.singleton_append, tokensWithin, isSpace_of_single? ht, ht]
    rfl
  | @number run x hne hrun hx =>
    rw [tokensWithin_of_run hne hrun hend, numberToken?, hx]
    rfl
  | @name c tail hc htail =>
    rw [List.cons_append, tokensWithin_of_isNameStart hc, htail.nameRun_append,
      nameRun_of_endsBefore hend]
    simp

/-- What no piece stands in front of has no tokens. -/
theorem tokensWithin_of_stray (h : Stray cs) (n : Nat) : tokensWithin n cs = none := by
  cases n with
  | zero =>
    cases h with
    | @number run rest hne =>
      obtain ⟨c, run, rfl⟩ := List.exists_cons_of_ne_nil hne
      rfl
    | call => rfl
    | other => rfl
  | succ n =>
    cases h with
    | number hne hrun hrest hbad =>
      rw [tokensWithin_of_run hne hrun hrest, numberToken?, hbad]
      rfl
    | call hc htail hopen =>
      rw [tokensWithin_of_isNameStart hc, htail.nameRun_append, nameRun_of_openCall hopen]
      rfl
    | other hspace hsingle hnumber hname =>
      rw [tokensWithin_of_isPlain ⟨hspace, hsingle⟩, hnumber, hname]
      rfl

theorem Spells.ne_nil (h : Spells t text) : text ≠ [] := by
  cases h with
  | single => exact List.cons_ne_nil _ _
  | number hne => exact hne
  | name => exact List.cons_ne_nil _ _

/-- Every text begins with a blank or a lexeme, or with what no piece stands in front of. -/
theorem exists_piece (h : cs ≠ []) :
    (∃ c rest, cs = c :: rest ∧ isSpace c = true) ∨
    (∃ t text rest, cs = text ++ rest ∧ Spells t text ∧ EndsBefore t rest) ∨
    Stray cs := by
  obtain ⟨c, cs, rfl⟩ := List.exists_cons_of_ne_nil h
  by_cases hspace : isSpace c = true
  · exact .inl ⟨c, cs, rfl, hspace⟩
  right
  -- The first character tells which kind of lexeme can begin here.
  cases hsingle : single? c with
  | some t =>
    exact .inl ⟨t, [c], cs, rfl, .single hsingle, fun d _ => goesOn_of_single? hsingle d⟩
  | none =>
    by_cases hnumber : isNumberChar c = true
    · obtain ⟨run, rest, hsplit, hne, hrun, hrest⟩ := exists_run hnumber cs
      rw [hsplit]
      cases hx : Double.ofText? (String.ofList run) with
      | some x => exact .inl ⟨.number x, run, rest, rfl, .number hne hrun hx, hrest⟩
      | none => exact .inr (.number hne hrun hrest hx)
    · by_cases hname : isNameStart c = true
      · obtain ⟨tail, rest, rfl, htail, hrest⟩ := exists_nameTail "" cs
        rcases hrest with hrest | ⟨inner, rfl, hinner⟩
        · exact .inl ⟨.name (String.ofList (c :: tail)), c :: tail, rest, rfl,
            .name hname htail, hrest⟩
        · exact .inr (.call hname htail hinner)
      · exact .inr (.other (Bool.eq_false_iff.mpr hspace) hsingle (Bool.eq_false_iff.mpr hnumber)
          (Bool.eq_false_iff.mpr hname))

/-- Every text is cut into pieces up to its end, or up to what no piece stands in front of. -/
theorem exists_cut (cs : List Char) :
    ∃ ps rest, cs = spell ps ++ rest ∧ Cut ps rest ∧ (rest = [] ∨ Stray rest) := by
  induction hn : cs.length using Nat.strong_induction_on generalizing cs with
  | _ n ih =>
    subst hn
    by_cases hcs : cs = []
    · exact ⟨[], [], hcs, .nil [], .inl rfl⟩
    rcases exists_piece hcs with ⟨c, below, rfl, hc⟩ | ⟨t, text, below, rfl, htext, hend⟩ | h
    · obtain ⟨ps, rest, rfl, hps, hrest⟩ := ih below.length (Nat.lt_succ_self _) below rfl
      exact ⟨.blank c :: ps, rest, rfl, .blank hc hps, hrest⟩
    · have hshorter : below.length < (text ++ below).length := by
        have hpos := List.length_pos_iff.mpr htext.ne_nil
        rw [List.length_append]
        omega
      obtain ⟨ps, rest, rfl, hps, hrest⟩ := ih below.length hshorter below rfl
      refine ⟨.lexeme t text :: ps, rest, ?_, .lexeme htext hend hps, hrest⟩
      rw [spell_lexeme, List.append_assoc]
    · exact ⟨[], cs, rfl, .nil cs, .inr h⟩

/-- Pieces are read as their tokens, one step for each piece. -/
theorem Cut.tokensWithin (h : Cut ps rest) (n : Nat) :
    Operand.tokensWithin (n + ps.length) (spell ps ++ rest) =
      (Operand.tokensWithin n rest).map (tokensOf ps ++ ·) := by
  induction h with
  | nil rest => exact Option.map_id'.symm
  | @blank c ps rest hc _ ih =>
    rw [spell_blank, tokensOf_blank, List.length_cons, ← Nat.add_assoc, List.cons_append,
      tokensWithin_of_isSpace hc, ih]
  | @lexeme t text ps rest htext hend _ ih =>
    rw [spell_lexeme, tokensOf_lexeme, List.length_cons, ← Nat.add_assoc, List.append_assoc,
      tokensWithin_of_spells htext hend, ih, Option.map_map]
    rfl

/-- There are no more pieces than characters. -/
theorem Cut.length_le (h : Cut ps rest) : ps.length ≤ (spell ps).length := by
  induction h with
  | nil => exact Nat.le_refl 0
  | @blank c ps _ _ _ ih =>
    rw [spell_blank, List.length_cons, List.length_cons]
    omega
  | @lexeme t text ps _ htext _ _ ih =>
    have hpos : 0 < text.length := List.length_pos_iff.mpr htext.ne_nil
    rw [spell_lexeme, List.length_append, List.length_cons]
    omega

/-- The tokens of a text are those of its first pieces and those of the rest. -/
theorem Cut.tokens? (h : Cut ps rest) : ∃ n,
    Operand.tokens? (String.ofList (spell ps ++ rest)) =
      (Operand.tokensWithin n rest).map (tokensOf ps ++ ·) := by
  -- The steps allowed are as many as the characters, which is more than the pieces need.
  have hlength := h.length_le
  refine ⟨(spell ps ++ rest).length - ps.length, ?_⟩
  rw [Operand.tokens?, String.toList_ofList, ← h.tokensWithin]
  congr 1
  rw [List.length_append]
  omega

end Steps

section Blanks

variable {t : Token} {ps qs : List Piece} {rest : List Char}

theorem Respaced.tokensOf_eq (h : Respaced ps qs) : tokensOf qs = tokensOf ps := by
  induction h with
  | nil => rfl
  | piece p _ ih =>
    cases p with
    | blank c => rw [tokensOf_blank, tokensOf_blank, ih]
    | lexeme t text => rw [tokensOf_lexeme, tokensOf_lexeme, ih]
  | blank _ _ ih => rw [tokensOf_blank, ih]

/-- A lexeme that ends in front of some pieces ends in front of them with further blanks, too. -/
theorem Respaced.endsBefore (h : Respaced ps qs) (hend : EndsBefore t (spell ps ++ rest)) :
    EndsBefore t (spell qs ++ rest) := by
  induction h with
  | nil => exact hend
  | @piece ps qs p _ ih =>
    rw [spell_cons, List.append_assoc] at hend ⊢
    -- Only a piece without any text lets the lexeme see the pieces behind it.
    cases htext : p.text with
    | nil =>
      rw [htext] at hend
      exact ih hend
    | cons c text =>
      rw [htext] at hend
      exact hend
  | blank hc _ _ => exact endsBefore_cons.mpr (goesOn_of_isSpace hc t)

/-- Further blanks leave a cut a cut, for no lexeme goes on with a blank. -/
theorem Respaced.cut (h : Respaced ps qs) (hps : Cut ps rest) : Cut qs rest := by
  induction h with
  | nil => exact hps
  | piece p h ih =>
    cases hps with
    | blank hc hps => exact .blank hc (ih hps)
    | lexeme htext hend hps => exact .lexeme htext (h.endsBefore hend) (ih hps)
  | blank hc _ ih => exact .blank hc (ih hps)

end Blanks

/-- A text that is cut into pieces up to its end has their tokens. -/
theorem tokens?_of_cut {ps : List Piece} (h : Cut ps []) :
    tokens? (String.ofList (spell ps)) = some (tokensOf ps) := by
  obtain ⟨n, hn⟩ := h.tokens?
  rw [List.append_nil, tokensWithin_nil] at hn
  rw [hn, Option.map_some, List.append_nil]

theorem tokens?_of_stray {ps : List Piece} {rest : List Char} (h : Cut ps rest)
    (hrest : Stray rest) : tokens? (String.ofList (spell ps ++ rest)) = none := by
  obtain ⟨n, hn⟩ := h.tokens?
  rw [hn, tokensWithin_of_stray hrest]
  rfl

/-- A text has tokens when it is cut into the lexemes of these tokens, in order, with nothing but
blanks between them; further blanks between two lexemes do not change the tokens; and a text has no
tokens when somewhere in it no blank and no lexeme begins. -/
theorem tokens?_lexemes (s : String) :
    (∀ ts, tokens? s = some ts ↔ ∃ ps, Cut ps [] ∧ spell ps = s.toList ∧ tokensOf ps = ts) ∧
    (∀ ps qs, Cut ps [] → spell ps = s.toList → Respaced ps qs →
      tokens? (String.ofList (spell qs)) = tokens? s) ∧
    (tokens? s = none ↔
      ∃ ps rest, Cut ps rest ∧ spell ps ++ rest = s.toList ∧ Stray rest) := by
  have hwhole {ps : List Piece} (hps : Cut ps []) (hspell : spell ps = s.toList) :
      tokens? s = some (tokensOf ps) := by
    rw [← tokens?_of_cut hps, hspell, String.ofList_toList]
  have hstray {ps : List Piece} {rest : List Char} (hps : Cut ps rest)
      (hspell : spell ps ++ rest = s.toList) (hrest : Stray rest) : tokens? s = none := by
    rw [← tokens?_of_stray hps hrest, hspell, String.ofList_toList]
  -- Every text has a cut up to its end or up to a stray place, which settles all directions.
  obtain ⟨ps, rest, hspell, hps, hrest⟩ := exists_cut s.toList
  refine ⟨fun ts => ⟨fun hts => ?_, ?_⟩, ?_, ⟨fun hnone => ?_, ?_⟩⟩
  · rcases hrest with rfl | hrest
    · rw [List.append_nil] at hspell
      have htokens := hwhole hps hspell.symm
      rw [hts] at htokens
      exact ⟨ps, hps, hspell.symm, (Option.some.inj htokens).symm⟩
    · rw [hstray hps hspell.symm hrest] at hts
      cases hts
  · rintro ⟨ps, hps, hspell, rfl⟩
    exact hwhole hps hspell
  · intro ps qs hps hspell hrespaced
    rw [hwhole hps hspell, tokens?_of_cut (hrespaced.cut hps), hrespaced.tokensOf_eq]
  · rcases hrest with rfl | hrest
    · rw [List.append_nil] at hspell
      rw [hwhole hps hspell.symm] at hnone
      cases hnone
    · exact ⟨ps, rest, hps, hspell.symm, hrest⟩
  · rintro ⟨ps, rest, hps, hspell, hrest⟩
    exact hstray hps hspell hrest

/-- Blanks on both sides of an operator, and a call that is never closed. -/
theorem tokens?_blanks_around_times :
    tokens? "hp(7) *\t2" = tokens? "hp(7)*2" ∧ tokens? "2*hp(7" = none := by
  obtain ⟨x, hx⟩ : ∃ x, Double.ofText? (String.ofList ['2']) = some x := ⟨_, rfl⟩
  have hname : Spells (.name "hp(7)") "hp(7)".toList :=
    .name rfl (.char rfl (@NameTail.call ['7'] [] (by decide) .nil))
  have htimes : Spells .times ['*'] := .single rfl
  have hnumber : Spells (.number x) ['2'] :=
    .number (List.cons_ne_nil _ _) (List.forall_mem_singleton.mpr rfl) hx
  constructor
  · let ps : List Piece := [.lexeme (.name "hp(7)") "hp(7)".toList, .lexeme .times ['*'],
      .lexeme (.number x) ['2']]
    let qs : List Piece := [.lexeme (.name "hp(7)") "hp(7)".toList, .blank ' ',
      .lexeme .times ['*'], .blank '\t', .lexeme (.number x) ['2']]
    have hcut : Cut ps [] :=
      .lexeme hname (endsBefore_cons.mpr rfl) (.lexeme htimes (endsBefore_cons.mpr rfl)
        (.lexeme hnumber (endsBefore_nil _) (.nil [])))
    have hrespaced : Respaced ps qs :=
      .piece _ (.blank rfl (.piece _ (.blank rfl (.piece _ .nil))))
    exact (tokens?_lexemes "hp(7)*2").2.1 ps qs hcut rfl hrespaced
  · have hcut : Cut [.lexeme (.number x) ['2'], .lexeme .times ['*']] "hp(7".toList :=
      .lexeme hnumber (endsBefore_cons.mpr rfl) (.lexeme htimes (endsBefore_cons.mpr rfl) (.nil _))
    have hstray : Stray "hp(7".toList :=
      @Stray.call 'h' ['p'] ['7'] rfl (.char rfl .nil) (by decide)
    exact (tokens?_lexemes "2*hp(7").2.2.mpr ⟨_, _, hcut, rfl, hstray⟩

end PetDuel.Operand
