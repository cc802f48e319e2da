import PetDuel.Operand.Scope

/-!
The grammar of operands. A list of tokens has a value exactly when the grammar derives an operand
from all of it and that operand has a value; the grammar derives at most one operand from a list.
-/

namespace PetDuel.Operand

inductive Phrase
  | sum
  | term
  | unary
  | primary

/-- The operands that the grammar derives from a list of tokens:

    sum     := term (('+' | '-') term)*
    term    := unary (('*' | '/' | '%') unary)*
    unary   := '-' unary | primary
    primary := NUMBER | NAME | '(' sum ')'

A repetition is read from the left: what has been read so far is the left operand of what comes
next. -/
inductive Derives : Phrase → List Token → Expr → Prop
  | term {ts : List Token} {e : Expr} : Derives .term ts e → Derives .sum ts e
  | add {ts us : List Token} {l r : Expr} : Derives .sum ts l → Derives .term us r →
    Derives .sum (ts ++ .plus :: us) (.binary .add l r)
  | sub {ts us : List Token} {l r : Expr} : Derives .sum ts l → Derives .term us r →
    Derives .sum (ts ++ .minus :: us) (.binary .sub l r)
  | unary {ts : List Token} {e : Expr} : Derives .unary ts e → Derives .term ts e
  | mul {ts us : List Token} {l r : Expr} : Derives .term ts l → Derives .unary us r →
    Derives .term (ts ++ .times :: us) (.binary .mul l r)
  | div {ts us : List Token} {l r : Expr} : Derives .term ts l → Derives .unary us r →
    Derives .term (ts ++ .over :: us) (.binary .div l r)
  | rem {ts us : List Token} {l r : Expr} : Derives .term ts l → Derives .unary us r →
    Derives .term (ts ++ .modulo :: us) (.binary .rem l r)
  | neg {ts : List Token} {e : Expr} : Derives .unary ts e → Derives .unary (.minus :: ts) (.neg e)
  | primary {ts : List Token} {e : Expr} : Derives .primary ts e → Derives .unary ts e
  | number (x : Double) : Derives .primary [.number x] (.number x)
  | name (s : String) : Derives .primary [.name s] (.name s)
  | parens {ts : List Token} {e : Expr} : Derives .sum ts e →
    Derives .primary (.opening :: (ts ++ [.closing])) e

/-- The values that an operand takes. A quotient and a remainder have one only for a right operand
that is not equal to zero. -/
inductive Expr.Evaluates (resolve : String → Option Double) : Expr → Double → Prop
  | number (x : Double) : Evaluates resolve (.number x) x
  | name {s : String} {x : Double} : resolve s = some x → Evaluates resolve (.name s) x
  | neg {e : Expr} {x : Double} : Evaluates resolve e x → Evaluates resolve (.neg e) (-x)
  | add {l r : Expr} {x y : Double} : Evaluates resolve l x → Evaluates resolve r y →
    Evaluates resolve (.binary .add l r) (x + y)
  | sub {l r : Expr} {x y : Double} : Evaluates resolve l x → Evaluates resolve r y →
    Evaluates resolve (.binary .sub l r) (x - y)
  | mul {l r : Expr} {x y : Double} : Evaluates resolve l x → Evaluates resolve r y →
    Evaluates resolve (.binary .mul l r) (x * y)
  | div {l r : Expr} {x y : Double} : Evaluates resolve l x → Evaluates resolve r y →
    (y == 0.0) = false → Evaluates resolve (.binary .div l r) (x / y)
  | rem {l r : Expr} {x y : Double} : Evaluates resolve l x → Evaluates resolve r y →
    (y == 0.0) = false → Evaluates resolve (.binary .rem l r) (Double.remainder x y)

def BinaryOp.divides : BinaryOp → Bool
  | .div | .rem => true
  | .add | .sub | .mul => false

def Expr.names : Expr → List String
  | .number _ => []
  | .name s => [s]
  | .neg e => e.names
  | .binary _ l r => l.names ++ r.names

def Expr.divisors : Expr → List Expr
  | .number _ | .name _ => []
  | .neg e => e.divisors
  | .binary op l r => l.divisors ++ r.divisors ++ if op.divides then [r] else []

def Scope.valueOf? (c : Scope) (ts : List Token) : Option Double :=
  (ofTokens? ts).bind fun e => e.value? c.resolve?

section Soundness

variable {n : Nat} {l e : Expr} {ts us rest : List Token} {t : Token} {op : BinaryOp}

theorem Derives.sumOp (hl : Derives .sum us l) (ht : sumOp? t = some op)
    (hr : Derives .term ts e) : Derives .sum (us ++ t :: ts) (.binary op l e) := by
  cases t <;> cases ht
  · exact .add hl hr
  · exact .sub hl hr

theorem Derives.termOp (hl : Derives .term us l) (ht : termOp? t = some op)
    (hr : Derives .unary ts e) : Derives .term (us ++ t :: ts) (.binary op l e) := by
  cases t <;> cases ht
  · exact .mul hl hr
  · exact .div hl hr
  · exact .rem hl hr

/-- What the five readings of some depth give is derived from the tokens that they use up. -/
structure Sound (n : Nat) : Prop where
  sum : ∀ ts e rest, readSum n ts = some (e, rest) → ∃ us, ts = us ++ rest ∧ Derives .sum us e
  sumRest : ∀ us l ts e rest, Derives .sum us l → readSumRest n l ts = some (e, rest) →
    ∃ vs, ts = vs ++ rest ∧ Derives .sum (us ++ vs) e
  term : ∀ ts e rest, readTerm n ts = some (e, rest) → ∃ us, ts = us ++ rest ∧ Derives .term us e
  termRest : ∀ us l ts e rest, Derives .term us l → readTermRest n l ts = some (e, rest) →
    ∃ vs, ts = vs ++ rest ∧ Derives .term (us ++ vs) e
  factor : ∀ ts e rest, readFactor n ts = some (e, rest) →
    ∃ us, ts = us ++ rest ∧ Derives .unary us e

theorem Sound.readSum_succ (h : Sound n) (hread : readSum (n + 1) ts = some (e, rest)) :
    ∃ us, ts = us ++ rest ∧ Derives .sum us e := by
  rw [readSum] at hread
  obtain ⟨⟨l, ts'⟩, hterm, hrest⟩ := Option.bind_eq_some_iff.mp hread
  obtain ⟨us, rfl, hl⟩ := h.term ts l ts' hterm
  obtain ⟨vs, rfl, he⟩ := h.sumRest us l ts' e rest (.term hl) hrest
  exact ⟨us ++ vs, (List.append_assoc us vs rest).symm, he⟩

/-- What has been read so far is the left operand, so the derivation grows at its right end. -/
theorem Sound.readSumRest_succ (h : Sound n) (hl : Derives .sum us l)
    (hread : readSumRest (n + 1) l ts = some (e, rest)) :
    ∃ vs, ts = vs ++ rest ∧ Derives .sum (us ++ vs) e := by
  have hend (hsame : some (l, ts) = some (e, rest)) :
      ∃ vs, ts = vs ++ rest ∧ Derives .sum (us ++ vs) e := by
    cases hsame
    exact ⟨[], rfl, (List.append_nil us).symm ▸ hl⟩
  cases ts with
  | nil => exact hend hread
  | cons t ts =>
    rw [readSumRest] at hread
    cases ht : sumOp? t with
    | none =>
      rw [ht] at hread
      exact hend hread
    | some op =>
      rw [ht] at hread
      obtain ⟨⟨r, ts'⟩, hterm, hrest⟩ := Option.bind_eq_some_iff.mp hread
      obtain ⟨vs, rfl, hr⟩ := h.term ts r ts' hterm
      -- The operand on the left grows by the operator and the term.
      obtain ⟨ws, rfl, he⟩ := h.sumRest _ _ ts' e rest (hl.sumOp ht hr) hrest
      refine ⟨t :: (vs ++ ws), ?_, ?_⟩
      · rw [List.cons_append, List.append_assoc]
      · rw [List.append_assoc, List.cons_append] at he
        exact he

theorem Sound.readTerm_succ (h : Sound n) (hread : readTerm (n + 1) ts = some (e, rest)) :
    ∃ us, ts = us ++ rest ∧ Derives .term us e := by
  rw [readTerm] at hread
  obtain ⟨⟨l, ts'⟩, hfactor, hrest⟩ := Option.bind_eq_some_iff.mp hread
  obtain ⟨us, rfl, hl⟩ := h.factor ts l ts' hfactor
  obtain ⟨vs, rfl, he⟩ := h.termRest us l ts' e rest (.unary hl) hrest
  exact ⟨us ++ vs, (List.append_assoc us vs rest).symm, he⟩

theorem Sound.readTermRest_succ (h : Sound n) (hl : Derives .term us l)
    (hread : readTermRest (n + 1) l ts = some (e, rest)) :
    ∃ vs, ts = vs ++ rest ∧ Derives .term (us ++ vs) e := by
  -- Where no operator follows, what has been read is the whole term.
  have hend (hsame : some (l, ts) = some (e, rest)) :
      ∃ vs, ts = vs ++ rest ∧ Derives .term (us ++ vs) e := by
    cases hsame
    exact ⟨[], rfl, (List.append_nil us).symm ▸ hl⟩
  cases ts with
  | nil => exact hend hread
  | cons t ts =>
    rw [readTermRest] at hread
    cases ht : termOp? t with
    | none =>
      rw [ht] at hread
      exact hend hread
    | some op =>
      rw [ht] at hread
      obtain ⟨⟨r, ts'⟩, hfactor, hrest⟩ := Option.bind_eq_some_iff.mp hread
      obtain ⟨vs, rfl, hr⟩ := h.factor ts r ts' hfactor
      obtain ⟨ws, rfl, he⟩ := h.termRest _ _ ts' e rest (hl.termOp ht hr) hrest
      refine ⟨t :: (vs ++ ws), ?_, ?_⟩
      · rw [List.cons_append, List.append_assoc]
      · rw [List.append_assoc, List.cons_append] at he
        exact he

/-- A factor is a negation, a number, a name or a sum in parentheses, and each of these uses up what
it derives. -/
theorem Sound.readFactor_succ (h : Sound n) (hread : readFactor (n + 1) ts = some (e, rest)) :
    ∃ us, ts = us ++ rest ∧ Derives .unary us e := by
  cases ts with
  | nil => cases hread
  | cons t ts =>
    cases t with
    | minus =>
      rw [readFactor] at hread
      obtain ⟨⟨x, ts'⟩, hfactor, heq⟩ := Option.map_eq_some_iff.mp hread
      cases heq
      obtain ⟨us, rfl, hx⟩ := h.factor ts x ts' hfactor
      exact ⟨.minus :: us, rfl, .neg hx⟩
    | number x =>
      cases hread
      exact ⟨[.number x], rfl, .primary (.number x)⟩
    | name s =>
      cases hread
      exact ⟨[.name s], rfl, .primary (.name s)⟩
    | opening =>
      rw [readFactor] at hread
      -- Only a sum that a closing parenthesis follows is accepted.
      split at hread
      · rename_i x ts' hsum
        cases hread
        obtain ⟨us, rfl, hx⟩ := h.sum ts e _ hsum
        refine ⟨.opening :: (us ++ [.closing]), ?_, .primary (.parens hx)⟩
        rw [List.cons_append, List.append_assoc, List.singleton_append]
      · cases hread
    | _ => cases hread

/-- The readings are sound at every depth: by induction on the depth, all five together. -/
theorem sound (n : Nat) : Sound n := by
  -- Every reading hands on to readings of a smaller depth, and one of depth zero gives nothing.
  induction n with
  | zero =>
    refine ⟨?_, ?_, ?_, ?_, ?_⟩
    · intro ts e rest h
      cases h
    · intro us l ts e rest _ h
      cases h
    · intro ts e rest h
      cases h
    · intro us l ts e rest _ h
      cases h
    · intro ts e rest h
      cases h
  | succ n ih =>
    exact ⟨fun _ _ _ => ih.readSum_succ, fun _ _ _ _ _ => ih.readSumRest_succ,
      fun _ _ _ => ih.readTerm_succ, fun _ _ _ _ _ => ih.readTermRest_succ,
      fun _ _ _ => ih.readFactor_succ⟩

end Soundness

def Stops (op? : Token → Option BinaryOp) : List Token → Prop
  | [] => True
  | t :: _ => op? t = none

/-- A phrase is read in front of whatever follows it, given three levels for each token. A sum or a
term hands its operand to the reading of what follows. -/
def Reads : Phrase → List Token → Expr → Prop
  | .sum, ts, e => ∀ rest out n, Stops termOp? rest → 3 * (ts ++ rest).length + 3 ≤ n →
    (∀ m, 3 * rest.length + 1 ≤ m → readSumRest m e rest = some out) →
    readSum n (ts ++ rest) = some out
  | .term, ts, e => ∀ rest out n, 3 * (ts ++ rest).length + 2 ≤ n →
    (∀ m, 3 * rest.length + 1 ≤ m → readTermRest m e rest = some out) →
    readTerm n (ts ++ rest) = some out
  | .unary, ts, e | .primary, ts, e => ∀ rest n, 3 * (ts ++ rest).length + 1 ≤ n →
    readFactor n (ts ++ rest) = some (e, rest)

section Completeness

variable {n : Nat} {l r e : Expr} {ts us rest : List Token} {t : Token} {op : BinaryOp}

/-- A sum ends where no operator of a sum follows. -/
theorem readSumRest_of_stops (h : Stops sumOp? rest) (hn : 1 ≤ n) (e : Expr) :
    readSumRest n e rest = some (e, rest) := by
  obtain ⟨n, rfl⟩ := Nat.exists_eq_add_of_le' hn
  cases rest with
  | nil => rfl
  | cons t rest =>
    have ht : sumOp? t = none := h
    rw [readSumRest, ht]

theorem readTermRest_of_stops (h : Stops termOp? rest) (hn : 1 ≤ n) (e : Expr) :
    readTermRest n e rest = some (e, rest) := by
  obtain ⟨n, rfl⟩ := Nat.exists_eq_add_of_le' hn
  cases rest with
  | nil => rfl
  | cons t rest =>
    have ht : termOp? t = none := h
    rw [readTermRest, ht]

theorem Reads.sum_of_term (h : Reads .term ts e) : Reads .sum ts e := by
  intro rest out n hstops hn hout
  obtain ⟨n, rfl⟩ := Nat.exists_eq_add_of_le' (show 1 ≤ n by omega)
  have hlength : (ts ++ rest).length = ts.length + rest.length := List.length_append
  have hterm : readTerm n (ts ++ rest) = some (e, rest) :=
    h rest (e, rest) n (by omega) fun m hm => readTermRest_of_stops hstops (by omega) e
  rw [readSum, hterm]
  exact hout n (by omega)

/-- A sum goes on with an operator and a term. What follows the left operand is no operator of a
term, so that operand ends in front of it. -/
theorem Reads.sum_more (ht : sumOp? t = some op) (hstop : termOp? t = none) (hl : Reads .sum ts l)
    (hr : Reads .term us r) : Reads .sum (ts ++ t :: us) (.binary op l r) := by
  intro rest out n hstops hn hout
  rw [List.append_assoc, List.cons_append] at hn ⊢
  refine hl (t :: (us ++ rest)) out n hstop hn fun m hm => ?_
  -- After the left operand comes the operator, then a term, then whatever follows.
  have hcons : (t :: (us ++ rest)).length = (us ++ rest).length + 1 := List.length_cons
  have hlength : (us ++ rest).length = us.length + rest.length := List.length_append
  obtain ⟨m, rfl⟩ := Nat.exists_eq_add_of_le' (show 1 ≤ m by omega)
  have hterm : readTerm m (us ++ rest) = some (r, rest) :=
    hr rest (r, rest) m (by omega) fun k hk => readTermRest_of_stops hstops (by omega) r
  rw [readSumRest, ht]
  dsimp only
  rw [hterm]
  exact hout m (by omega)

theorem Reads.term_of_unary (h : Reads .unary ts e) : Reads .term ts e := by
  intro rest out n hn hout
  obtain ⟨n, rfl⟩ := Nat.exists_eq_add_of_le' (show 1 ≤ n by omega)
  have hlength : (ts ++ rest).length = ts.length + rest.length := List.length_append
  rw [readTerm, h rest n (by omega)]
  exact hout n (by omega)

/-- A term goes on with an operator and a unary. -/
theorem Reads.term_more (ht : termOp? t = some op) (hl : Reads .term ts l)
    (hr : Reads .unary us r) :
    Reads .term (ts ++ t :: us) (.binary op l r) := by
  intro rest out n hn hout
  rw [List.append_assoc, List.cons_append] at hn ⊢
  refine hl (t :: (us ++ rest)) out n hn fun m hm => ?_
  have hcons : (t :: (us ++ rest)).length = (us ++ rest).length + 1 := List.length_cons
  have hlength : (us ++ rest).length = us.length + rest.length := List.length_append
  obtain ⟨m, rfl⟩ := Nat.exists_eq_add_of_le' (show 1 ≤ m by omega)
  rw [readTermRest, ht]
  dsimp only
  rw [hr rest m (by omega)]
  exact hout m (by omega)

theorem Reads.neg (h : Reads .unary ts e) : Reads .unary (.minus :: ts) (.neg e) := by
  intro rest n hn
  have hcons : (Token.minus :: ts ++ rest).length = (ts ++ rest).length + 1 := List.length_cons
  obtain ⟨n, rfl⟩ := Nat.exists_eq_add_of_le' (show 1 ≤ n by omega)
  rw [List.cons_append, readFactor, h rest n (by omega)]
  rfl

/-- A sum in parentheses ends at the closing one, which goes on with nothing. -/
theorem Reads.parens (h : Reads .sum ts e) :
    Reads .primary (.opening :: (ts ++ [.closing])) e := by
  intro rest n hn
  obtain ⟨n, rfl⟩ := Nat.exists_eq_add_of_le' (show 1 ≤ n by omega)
  rw [List.cons_append, List.append_assoc, List.singleton_append] at hn ⊢
  have hcons : (Token.opening :: (ts ++ .closing :: rest)).length =
      (ts ++ .closing :: rest).length + 1 := List.length_cons
  have hstops : Stops sumOp? (.closing :: rest) := rfl
  have hsum : readSum n (ts ++ .closing :: rest) = some (e, .closing :: rest) :=
    h (.closing :: rest) (e, .closing :: rest) n rfl (by omega)
      fun m hm => readSumRest_of_stops hstops (by omega) e
  rw [readFactor, hsum]

/-- Whatever is derived is read: by induction on the derivation. -/
theorem Derives.reads {p : Phrase} (h : Derives p ts e) : Reads p ts e := by
  have hone (t : Token) (e : Expr)
      (hread : ∀ n rest, readFactor (n + 1) (t :: rest) = some (e, rest)) :
      Reads .primary [t] e := by
    intro rest n hn
    obtain ⟨n, rfl⟩ := Nat.exists_eq_add_of_le' (show 1 ≤ n by omega)
    exact hread n rest
  induction h with
  | term _ ih => exact ih.sum_of_term
  | add _ _ ihl ihr | sub _ _ ihl ihr => exact ihl.sum_more rfl rfl ihr
  | unary _ ih => exact ih.term_of_unary
  | mul _ _ ihl ihr | div _ _ ihl ihr | rem _ _ ihl ihr => exact ihl.term_more rfl ihr
  | neg _ ih => exact ih.neg
  | primary _ ih => exact ih
  | number x => exact hone (.number x) (.number x) fun _ _ => rfl
  | name s => exact hone (.name s) (.name s) fun _ _ => rfl
  | parens _ ih => exact ih.parens

end Completeness

/-- The reading of a whole list of tokens is the derivation of a sum. -/
theorem ofTokens?_eq_some_iff {ts : List Token} {e : Expr} :
    ofTokens? ts = some e ↔ Derives .sum ts e := by
  constructor
  · intro h
    unfold ofTokens? at h
    split at h
    · rename_i e' hread
      cases h
      obtain ⟨us, rfl, he⟩ := (sound _).sum ts e [] hread
      rwa [List.append_nil]
    · cases h
  · intro h
    have hstops : Stops sumOp? [] := trivial
    -- The depth that is allowed suffices for every derivation of this length.
    have henough : 3 * (ts ++ []).length + 3 ≤ enoughDepth ts := by
      rw [List.append_nil]
      exact Nat.le_refl _
    have hread : readSum (enoughDepth ts) (ts ++ []) = some (e, []) :=
      h.reads [] (e, []) (enoughDepth ts) trivial henough
        fun m hm => readSumRest_of_stops hstops (by omega) e
    rw [List.append_nil] at hread
    rw [ofTokens?, hread]

namespace Expr

variable {resolve : String → Option Double} {e : Expr} {v : Double}

/-- A value that is computed is one that the operand takes. -/
theorem evaluates_of_value? (h : e.value? resolve = some v) : e.Evaluates resolve v := by
  induction e generalizing v with
  | number x =>
    cases h
    exact .number x
  | name s => exact .name h
  | neg e ih =>
    obtain ⟨x, hx, rfl⟩ := Option.map_eq_some_iff.mp h
    exact .neg (ih hx)
  | binary op l r ihl ihr =>
    obtain ⟨x, hx, h⟩ := Option.bind_eq_some_iff.mp h
    obtain ⟨y, hy, happly⟩ := Option.bind_eq_some_iff.mp h
    cases op with
    | add =>
      cases happly
      exact .add (ihl hx) (ihr hy)
    | sub =>
      cases happly
      exact .sub (ihl hx) (ihr hy)
    | mul =>
      cases happly
      exact .mul (ihl hx) (ihr hy)
    | div =>
      obtain ⟨hzero, hv⟩ := Option.ite_none_left_eq_some.mp happly
      cases hv
      exact .div (ihl hx) (ihr hy) (Bool.eq_false_iff.mpr hzero)
    | rem =>
      obtain ⟨hzero, hv⟩ := Option.ite_none_left_eq_some.mp happly
      cases hv
      exact .rem (ihl hx) (ihr hy) (Bool.eq_false_iff.mpr hzero)

/-- A value that the operand takes is the one that is computed. -/
theorem value?_of_evaluates (h : e.Evaluates resolve v) : e.value? resolve = some v := by
  induction h with
  | number x => rfl
  | name h => exact h
  | neg _ ih => rw [value?, ih, Option.map_some]
  | add _ _ ihl ihr | sub _ _ ihl ihr | mul _ _ ihl ihr =>
    rw [value?, ihl, Option.bind_some, ihr, Option.bind_some]
    rfl
  | div _ _ hzero ihl ihr | rem _ _ hzero ihl ihr =>
    rw [value?, ihl, Option.bind_some, ihr, Option.bind_some, BinaryOp.apply?, hzero]
    rfl

theorem value?_eq_some_iff : e.value? resolve = some v ↔ e.Evaluates resolve v :=
  ⟨evaluates_of_value?, value?_of_evaluates⟩

/-- Only the operators that divide have no result, and only by zero. -/
theorem apply?_eq_none_iff (op : BinaryOp) (x y : Double) :
    op.apply? x y = none ↔ op.divides = true ∧ (y == 0.0) = true := by
  cases op <;> simp [BinaryOp.divides, BinaryOp.apply?]

/-- An operand without a value has a name without a value somewhere, or divides by zero
somewhere. -/
theorem value?_eq_none_iff : e.value? resolve = none ↔ (∃ s ∈ e.names, resolve s = none) ∨
    ∃ d ∈ e.divisors, ∃ y, d.Evaluates resolve y ∧ (y == 0.0) = true := by
  induction e with
  | number x => simp [value?, names, divisors]
  | name s => simp [value?, names, divisors]
  | neg e ih => rw [value?, Option.map_eq_none_iff, ih, names, divisors]
  | binary op l r ihl ihr =>
    -- The operator itself fails only when both of its operands have values.
    have hfails : (Expr.binary op l r).value? resolve = none ↔ l.value? resolve = none ∨
        r.value? resolve = none ∨
        (op.divides = true ∧ ∃ y, r.value? resolve = some y ∧ (y == 0.0) = true) := by
      rw [value?]
      cases l.value? resolve with
      | none => simp
      | some x =>
        cases r.value? resolve with
        | none => simp
        | some y => simp [apply?_eq_none_iff]
    have hlast : (∃ d ∈ if op.divides = true then [r] else [],
          ∃ y, d.Evaluates resolve y ∧ (y == 0.0) = true) ↔
        op.divides = true ∧ ∃ y, r.value? resolve = some y ∧ (y == 0.0) = true := by
      simp only [value?_eq_some_iff]
      cases op.divides <;> simp
    rw [hfails, ihl, ihr, names, divisors]
    simp only [List.mem_append, or_and_right, exists_or, hlast]
    grind

end Expr

/-- A list of tokens has exactly the values of what the grammar derives from it, which is at most
one operand. It has none exactly when nothing is derived from it, when a name anywhere in the
operand has no value, or when a divisor anywhere in it is equal to zero. The value of a text is that
of its tokens. -/
theorem valueOf?_iff_derives (c : Scope) (ts : List Token) :
    (∀ v, c.valueOf? ts = some v ↔ ∃ e, Derives .sum ts e ∧ e.Evaluates c.resolve? v) ∧
      (c.valueOf? ts = none ↔ (¬∃ e, Derives .sum ts e) ∨
        ∃ e, Derives .sum ts e ∧ ((∃ s ∈ e.names, c.resolve? s = none) ∨
          ∃ d ∈ e.divisors, ∃ y, d.Evaluates c.resolve? y ∧ (y == 0.0) = true)) ∧
      (∀ e e', Derives .sum ts e → Derives .sum ts e' → e = e') ∧
      ∀ text, c.value? text = (tokens? text).bind c.valueOf? := by
  refine ⟨fun v => ?_, ?_, fun e e' he he' => ?_, fun text => ?_⟩
  · simp only [Scope.valueOf?, Option.bind_eq_some_iff, ofTokens?_eq_some_iff,
      Expr.value?_eq_some_iff]
  · simp only [← ofTokens?_eq_some_iff, ← Expr.value?_eq_none_iff, Scope.valueOf?]
    cases ofTokens? ts with
    | none => simp
    | some e => simp
  · have hsame : some e = some e' :=
      (ofTokens?_eq_some_iff.mpr he).symm.trans (ofTokens?_eq_some_iff.mpr he')
    exact Option.some.inj hsame
  · exact Option.bind_assoc (tokens? text) ofTokens? fun e => e.value? c.resolve?

end PetDuel.Operand
