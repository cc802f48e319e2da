import Mathlib.Data.List.Infix
import PetDuel.Proofs.Grammar

/-!
The names of an operand stand in its text, letter by letter, and its value depends on what these
names mean and on nothing else.
-/

namespace PetDuel

theorem Text.eq_append_of_afterList? {start cs rest : List Char}
    (h : afterList? start cs = some rest) : cs = start ++ rest := by
  induction start generalizing cs with
  | nil =>
    cases h
    rfl
  | cons s start ih =>
    cases cs with
    | nil => cases h
    | cons c cs =>
      obtain ⟨hc, hrest⟩ := Option.ite_none_right_eq_some.mp h
      rw [← hc, ih hrest, List.cons_append]

/-- What a text starts with stands in it. -/
theorem Text.infix_of_after? {start s rest : String} (h : after? start s = some rest) :
    start.toList <:+: s.toList := by
  obtain ⟨cs, hcs, _⟩ := Option.map_eq_some_iff.mp h
  rw [eq_append_of_afterList? hcs]
  exact (List.prefix_append start.toList cs).isInfix

namespace Operand

/-- An operand has the same value under two meanings that agree on its names. -/
theorem Expr.value?_congr {e : Expr} {resolve resolve' : String → Option Double}
    (h : ∀ s ∈ e.names, resolve s = resolve' s) : e.value? resolve = e.value? resolve' := by
  induction e with
  | number x => rfl
  | name s => exact h s List.mem_cons_self
  | neg e ih => rw [value?, value?, ih h]
  | binary op l r ihl ihr =>
    obtain ⟨hl, hr⟩ := List.forall_mem_append.mp h
    rw [value?, value?, ihl hl, ihr hr]

/-- The names of an operand are among its tokens. -/
theorem Derives.names_mem {p : Phrase} {ts : List Token} {e : Expr} (h : Derives p ts e) :
    ∀ s ∈ e.names, .name s ∈ ts := by
  induction h with
  | number x => exact List.forall_mem_nil _
  | name s => exact List.forall_mem_singleton.mpr List.mem_cons_self
  | term _ ih | unary _ ih | primary _ ih => exact ih
  | neg _ ih => exact fun s hs => List.mem_cons_of_mem _ (ih s hs)
  | parens _ ih =>
    intro s hs
    exact List.mem_cons_of_mem _ (List.mem_append_left _ (ih s hs))
  | add _ _ ihl ihr | sub _ _ ihl ihr | mul _ _ ihl ihr | div _ _ ihl ihr | rem _ _ ihl ihr =>
    intro s hs
    rcases List.mem_append.mp hs with hs | hs
    · exact List.mem_append_left _ (ihl s hs)
    · exact List.mem_append_right _ (List.mem_cons_of_mem _ (ihr s hs))

/-- A name and what is left make up the text that was read. -/
theorem eq_append_of_nameRun {inCall : Bool} {cs run rest : List Char}
    (h : nameRun inCall cs = some (run, rest)) : cs = run ++ rest := by
  induction cs generalizing inCall run with
  | nil =>
    cases inCall with
    | false =>
      cases h
      rfl
    | true => cases h
  | cons c cs ih =>
    -- Wherever the run goes on, it goes on with this letter.
    have hmore {b : Bool}
        (h : ((nameRun b cs).map fun p => (c :: p.1, p.2)) = some (run, rest)) :
        c :: cs = run ++ rest := by
      obtain ⟨⟨run', rest'⟩, hrun, hp⟩ := Option.map_eq_some_iff.mp h
      cases hp
      rw [List.cons_append, ih hrun]
    cases inCall with
    | true => exact hmore h
    | false =>
      unfold nameRun at h
      split at h
      · exact hmore h
      · split at h
        · exact hmore h
        · cases h
          rfl

theorem ne_name_of_single? {c : Char} {t : Token} (h : single? c = some t) (s : String) :
    .name s ≠ t := by
  rintro rfl
  unfold single? at h
  split at h <;> cases h

/-- The tokens of a text are those of a rest of it and at most one more, which is spelled by what
stands before this rest when it is a name. -/
theorem tokensWithin_cons {n : Nat} {c : Char} {cs : List Char} {ts : List Token}
    (h : tokensWithin (n + 1) (c :: cs) = some ts) :
    ∃ first rest ts', c :: cs = first ++ rest ∧ tokensWithin n rest = some ts' ∧
      ∀ s, .name s ∈ ts → s.toList = first ∨ .name s ∈ ts' := by
  -- A blank, a mark, a number and a name; only the last one makes a name of what it takes off.
  unfold tokensWithin at h
  split at h
  · exact ⟨[c], cs, ts, rfl, h, fun _ hs => Or.inr hs⟩
  · split at h
    · rename_i t ht
      obtain ⟨ts', hts', rfl⟩ := Option.map_eq_some_iff.mp h
      exact ⟨[c], cs, ts', rfl, hts', fun s hs =>
        Or.inr ((List.mem_cons.mp hs).resolve_left (ne_name_of_single? ht s))⟩
    · split at h
      · obtain ⟨t, ht, h⟩ := Option.bind_eq_some_iff.mp h
        obtain ⟨ts', hts', rfl⟩ := Option.map_eq_some_iff.mp h
        obtain ⟨x, _, rfl⟩ := Option.map_eq_some_iff.mp ht
        refine ⟨c :: cs.takeWhile isNumberChar, _, ts', ?_, hts', fun s hs => Or.inr ?_⟩
        · rw [List.cons_append, List.takeWhile_append_dropWhile]
        · exact (List.mem_cons.mp hs).resolve_left nofun
      · split at h
        · obtain ⟨⟨run, rest⟩, hrun, h⟩ := Option.bind_eq_some_iff.mp h
          obtain ⟨ts', hts', rfl⟩ := Option.map_eq_some_iff.mp h
          refine ⟨c :: run, rest, ts', ?_, hts', fun s hs => ?_⟩
          · rw [eq_append_of_nameRun hrun, List.cons_append]
          · refine (List.mem_cons.mp hs).imp_left fun hname => ?_
            cases hname
            exact String.toList_ofList
        · cases h

/-- A name among the tokens of a text stands in the text. -/
theorem infix_of_mem_tokensWithin {n : Nat} {cs : List Char} {ts : List Token} {s : String}
    (h : tokensWithin n cs = some ts) (hs : .name s ∈ ts) : s.toList <:+: cs := by
  induction n generalizing cs ts with
  | zero =>
    cases cs with
    | nil =>
      cases h
      cases hs
    | cons c cs => cases h
  | succ n ih =>
    cases cs with
    | nil =>
      cases h
      cases hs
    | cons c cs =>
      obtain ⟨first, rest, ts', heq, hrest, hnames⟩ := tokensWithin_cons h
      rw [heq]
      rcases hnames s hs with hfirst | hmem
      · rw [hfirst]
        exact (List.prefix_append first rest).isInfix
      · exact (ih hrest hmem).trans (List.suffix_append first rest).isInfix

/-- An operand has the same value in two scopes that agree on all names that stand in its text. -/
theorem Scope.value?_congr {c d : Scope} {operand : String}
    (h : ∀ s : String, s.toList <:+: operand.toList → c.resolve? s = d.resolve? s) :
    c.value? operand = d.value? operand := by
  unfold Scope.value?
  refine Option.bind_congr fun e he => Expr.value?_congr fun s hs => h s ?_
  obtain ⟨ts, hts, hread⟩ := Option.bind_eq_some_iff.mp he
  have hderives : Derives .sum ts e := ofTokens?_eq_some_iff.mp hread
  exact infix_of_mem_tokensWithin hts (hderives.names_mem s hs)

end Operand

end PetDuel
