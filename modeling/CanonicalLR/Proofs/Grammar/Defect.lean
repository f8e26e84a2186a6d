import CanonicalLR.Proofs.Grammar.Check
import Mathlib.Data.List.Sort

/-!
Contract: what keeps a list of productions from having a parse table.

Owns:
- the defects that the checks look for, said of the productions alone;
- which occurrence of a defect counts as the first one;
- that each check fails at the first occurrence of its own defect, and at nothing else.

Does not own: conflicts, which only show in the parse table.
-/

namespace CanonicalLR.Grammar

/-- Some production carries the start mark. -/
def Marked (grammar : Grammar) : Prop :=
  ∃ production ∈ grammar.productions, production.isStart = true

/-- Some production has the nonterminal as its left-hand side. -/
def Defines (grammar : Grammar) (nonterminal : String) : Prop :=
  ∃ production ∈ grammar.productions, production.lhs = nonterminal

def DefinesAll (grammar : Grammar) (symbols : List Symbol) : Prop :=
  ∀ name, .nonterminal name ∈ symbols → grammar.Defines name

/-- Right-hand sides use defined nonterminals only, wherever the start production leads. -/
def Defined (grammar : Grammar) : Prop :=
  ∀ production ∈ grammar.productions, grammar.DefinesAll production.rhs

/-- Of all places on right-hand sides, in the order of the productions and then of their
symbols, the first one with an undefined nonterminal has this one, in a production of
`lhs`. -/
def FirstUndefined (grammar : Grammar) (nonterminal lhs : String) : Prop :=
  ∃ before production after front back,
    grammar.productions = before ++ production :: after ∧ production.lhs = lhs ∧
    production.rhs = front ++ .nonterminal nonterminal :: back ∧
    ¬ grammar.Defines nonterminal ∧
    (∀ earlier ∈ before, grammar.DefinesAll earlier.rhs) ∧ grammar.DefinesAll front

def DistinctRightHandSides (grammar : Grammar) : Prop :=
  (grammar.productions.map Production.rhs).Nodup

/-- The first production that repeats an earlier right-hand side has this one, and
`indices` are those of all productions with it, in increasing order. -/
def FirstRepeated (grammar : Grammar) (rhs : List Symbol) (indices : List Nat) : Prop :=
  (∃ before production after, grammar.productions = before ++ production :: after ∧
    production.rhs = rhs ∧ rhs ∈ before.map Production.rhs ∧
    (before.map Production.rhs).Nodup) ∧
  indices.Pairwise (· < ·) ∧
  ∀ index, index ∈ indices ↔
    ∃ production, grammar.productions[index]? = some production ∧ production.rhs = rhs

variable {grammar : Grammar}

/-! ### The start mark -/

theorem startProduction?_eq_none_iff : grammar.startProduction? = none ↔ ¬ grammar.Marked := by
  unfold startProduction? Marked
  rw [Option.map_eq_none_iff, List.find?_eq_none]
  constructor
  · rintro none ⟨production, member, marked⟩
    obtain ⟨index, found⟩ := List.getElem?_of_mem member
    exact none (production, index) (List.mem_zipIdx_iff_getElem?.2 found) marked
  · rintro none ⟨production, index⟩ member marked
    exact none ⟨production, List.mem_of_getElem? (List.mem_zipIdx_iff_getElem?.1 member), marked⟩

/-! ### Undefined nonterminals -/

theorem isDefined_eq_true_iff {nonterminal : String} :
    grammar.isDefined nonterminal = true ↔ grammar.Defines nonterminal := by
  simp [isDefined, Defines]

/-- Whether the symbol is an undefined nonterminal. -/
private def lacks (grammar : Grammar) (symbol : Symbol) : Bool :=
  symbol.nonterminal?.any fun name => !grammar.isDefined name

private theorem lacks_eq_true_iff {symbol : Symbol} :
    grammar.lacks symbol = true ↔
      ∃ name, symbol = .nonterminal name ∧ ¬ grammar.Defines name := by
  simp only [lacks, ← isDefined_eq_true_iff]
  cases symbol <;> simp [Symbol.nonterminal?]

private theorem definesAll_iff {symbols : List Symbol} :
    grammar.DefinesAll symbols ↔ ∀ symbol ∈ symbols, ¬ grammar.lacks symbol = true := by
  constructor
  · intro defined symbol member isLacking
    obtain ⟨name, rfl, undefined⟩ := lacks_eq_true_iff.1 isLacking
    exact undefined (defined name member)
  · intro noneLacking name member
    by_contra undefined
    exact noneLacking _ member (lacks_eq_true_iff.2 ⟨name, rfl, undefined⟩)

/-- The uses of one production are searched symbol by symbol. -/
private theorem find?_uses_eq (production : Production) :
    ((production.rhs.filterMap Symbol.nonterminal?).map (production.lhs, ·)).find?
        (fun (_, name) => !grammar.isDefined name) =
      ((production.rhs.find? grammar.lacks).bind Symbol.nonterminal?).map (production.lhs, ·) := by
  rw [List.find?_map]
  exact congrArg _ List.find?_filterMap

private theorem find?_uses_eq_none_iff {production : Production} :
    ((production.rhs.filterMap Symbol.nonterminal?).map (production.lhs, ·)).find?
        (fun (_, name) => !grammar.isDefined name) = none ↔ grammar.DefinesAll production.rhs := by
  rw [find?_uses_eq, Option.map_eq_none_iff, definesAll_iff, ← List.find?_eq_none]
  constructor
  · intro nothing
    by_contra found
    obtain ⟨symbol, isFirst⟩ := Option.ne_none_iff_exists'.1 found
    obtain ⟨name, rfl, -⟩ := lacks_eq_true_iff.1 (List.find?_some isFirst)
    rw [isFirst] at nothing
    contradiction
  · intro nothing
    rw [nothing]
    rfl

private theorem find?_uses_eq_some_iff {production : Production} {lhs nonterminal : String} :
    ((production.rhs.filterMap Symbol.nonterminal?).map (production.lhs, ·)).find?
        (fun (_, name) => !grammar.isDefined name) = some (lhs, nonterminal) ↔
      production.lhs = lhs ∧ ∃ front back,
        production.rhs = front ++ .nonterminal nonterminal :: back ∧
        ¬ grammar.Defines nonterminal ∧ grammar.DefinesAll front := by
  rw [find?_uses_eq]
  constructor
  · intro first
    obtain ⟨name, found, same⟩ := Option.map_eq_some_iff.1 first
    cases same
    obtain ⟨symbol, isFirst, named⟩ := Option.bind_eq_some_iff.1 found
    obtain ⟨isLacking, front, back, split, before⟩ := List.find?_eq_some_iff_append.1 isFirst
    obtain ⟨other, rfl, undefined⟩ := lacks_eq_true_iff.1 isLacking
    cases named
    exact ⟨rfl, front, back, split, undefined, definesAll_iff.2 (by simpa using before)⟩
  · rintro ⟨rfl, front, back, split, undefined, definedBefore⟩
    have isFirst : production.rhs.find? grammar.lacks = some (.nonterminal nonterminal) :=
      List.find?_eq_some_iff_append.2 ⟨lacks_eq_true_iff.2 ⟨nonterminal, rfl, undefined⟩,
        front, back, split, by simpa using definesAll_iff.1 definedBefore⟩
    rw [isFirst]
    rfl

private theorem find?_uses_iff {nonterminal lhs : String} :
    grammar.uses.find? (fun (_, name) => !grammar.isDefined name) = some (lhs, nonterminal) ↔
      grammar.FirstUndefined nonterminal lhs := by
  rw [uses, List.find?_flatMap, List.findSome?_eq_some_iff]
  simp only [find?_uses_eq_none_iff, find?_uses_eq_some_iff]
  constructor
  · rintro ⟨before, production, after, split, ⟨sameLhs, front, back, rhs, undefined, inFront⟩,
      earlier⟩
    exact ⟨before, production, after, front, back, split, sameLhs, rhs, undefined, earlier,
      inFront⟩
  · rintro ⟨before, production, after, front, back, split, sameLhs, rhs, undefined, earlier,
      inFront⟩
    exact ⟨before, production, after, split, ⟨sameLhs, front, back, rhs, undefined, inFront⟩,
      earlier⟩

/-- The check fails at the first undefined nonterminal. -/
theorem checkDefined_eq_error_iff {cause : GenerationError} :
    grammar.checkDefined = .error cause ↔
      ∃ nonterminal lhs, cause = .undefinedNonterminal nonterminal lhs ∧
        grammar.FirstUndefined nonterminal lhs := by
  simp only [← find?_uses_iff]
  unfold checkDefined
  split
  case h_1 lhs nonterminal found => simp [found, eq_comm]
  case h_2 nothing => simp [nothing]

theorem checkDefined_eq_ok_iff : grammar.checkDefined = .ok () ↔ grammar.Defined := by
  have searched : grammar.uses.find? (fun (_, name) => !grammar.isDefined name) = none ↔
      grammar.Defined := by
    rw [uses, List.find?_flatMap, List.findSome?_eq_none_iff]
    simp only [find?_uses_eq_none_iff]
    rfl
  rw [← searched]
  unfold checkDefined
  split
  case h_1 found => simp [found]
  case h_2 nothing => simp [nothing]

/-! ### Repeated right-hand sides -/

section Values

variable {Value : Type} [DecidableEq Value] {earlier values : List Value} {value : Value}

private theorem firstRepeated?_eq_none_iff :
    firstRepeated? earlier values = none ↔ values.Nodup ∧ ∀ value ∈ values, value ∉ earlier := by
  induction values generalizing earlier with
  | nil => simp [firstRepeated?]
  | cons head rest inductionHypothesis =>
      unfold firstRepeated?
      by_cases repeated : head ∈ earlier
      · simp [repeated]
      · rw [if_neg repeated, inductionHypothesis, List.nodup_cons, List.forall_mem_cons]
        constructor
        · rintro ⟨distinct, unseen⟩
          exact ⟨⟨fun member => unseen head member List.mem_cons_self, distinct⟩, repeated,
            fun other member => mt (List.mem_cons_of_mem head) (unseen other member)⟩
        · rintro ⟨⟨notInRest, distinct⟩, -, unseen⟩
          refine ⟨distinct, fun other member => ?_⟩
          rw [List.mem_cons, not_or]
          exact ⟨fun same => notInRest (same ▸ member), unseen other member⟩

private theorem firstRepeated?_eq_some_iff :
    firstRepeated? earlier values = some value ↔
      ∃ before after, values = before ++ value :: after ∧ before.Nodup ∧
        (∀ other ∈ before, other ∉ earlier) ∧ (value ∈ earlier ∨ value ∈ before) := by
  induction values generalizing earlier with
  | nil => simp [firstRepeated?]
  | cons head rest inductionHypothesis =>
      unfold firstRepeated?
      by_cases repeated : head ∈ earlier
      · rw [if_pos repeated]
        constructor
        · rintro ⟨rfl⟩
          exact ⟨[], rest, rfl, .nil, by simp, .inl repeated⟩
        · rintro ⟨before, after, split, -, unseen, -⟩
          cases before with
          | nil => rw [(List.cons.inj split).1]
          | cons first others =>
              obtain ⟨rfl, -⟩ := List.cons.inj split
              exact absurd repeated (unseen head List.mem_cons_self)
      · rw [if_neg repeated, inductionHypothesis]
        constructor
        · rintro ⟨before, after, rfl, distinct, unseen, seen⟩
          refine ⟨head :: before, after, rfl, ?_, ?_, ?_⟩
          · rw [List.nodup_cons]
            exact ⟨fun member => unseen head member List.mem_cons_self, distinct⟩
          · rw [List.forall_mem_cons]
            exact ⟨repeated, fun other member =>
              mt (List.mem_cons_of_mem head) (unseen other member)⟩
          · simpa only [List.mem_cons, or_assoc, or_left_comm] using seen
        · rintro ⟨before, after, split, distinct, unseen, seen⟩
          cases before with
          | nil =>
              obtain ⟨rfl, -⟩ := List.cons.inj split
              exact absurd seen (by simp [repeated])
          | cons first others =>
              obtain ⟨rfl, rfl⟩ := List.cons.inj split
              rw [List.nodup_cons] at distinct
              rw [List.forall_mem_cons] at unseen
              refine ⟨others, after, rfl, distinct.2, fun other member => ?_, ?_⟩
              · rw [List.mem_cons, not_or]
                exact ⟨fun same => distinct.1 (same ▸ member), unseen.2 other member⟩
              · simpa only [List.mem_cons, or_assoc, or_left_comm] using seen

end Values

private theorem mem_indicesOf {rhs : List Symbol} {index : Nat} :
    index ∈ grammar.indicesOf rhs ↔
      ∃ production, grammar.productions[index]? = some production ∧ production.rhs = rhs := by
  unfold indicesOf
  constructor
  · intro member
    obtain ⟨⟨production, position⟩, listed, rfl⟩ := List.mem_map.1 member
    obtain ⟨inProductions, same⟩ := List.mem_filter.1 listed
    exact ⟨production, List.mem_zipIdx_iff_getElem?.1 inProductions, of_decide_eq_true same⟩
  · rintro ⟨production, found, same⟩
    exact List.mem_map.2 ⟨(production, index), List.mem_filter.2
      ⟨List.mem_zipIdx_iff_getElem?.2 found, decide_eq_true same⟩, rfl⟩

private theorem indicesOf_increasing (rhs : List Symbol) :
    (grammar.indicesOf rhs).Pairwise (· < ·) := by
  have sublist : (grammar.indicesOf rhs).Sublist (grammar.productions.zipIdx.map Prod.snd) :=
    List.filter_sublist.map Prod.snd
  rw [List.zipIdx_map_snd] at sublist
  exact List.Pairwise.sublist sublist List.pairwise_lt_range'

private theorem firstRepeated_iff {rhs : List Symbol} {indices : List Nat} :
    firstRepeated? [] (grammar.productions.map Production.rhs) = some rhs ∧
        indices = grammar.indicesOf rhs ↔
      grammar.FirstRepeated rhs indices := by
  have sameIndices : indices = grammar.indicesOf rhs ↔ indices.Pairwise (· < ·) ∧
      ∀ index, index ∈ indices ↔
        ∃ production, grammar.productions[index]? = some production ∧ production.rhs = rhs := by
    simp only [← mem_indicesOf]
    constructor
    · rintro rfl
      exact ⟨indicesOf_increasing rhs, fun _ => Iff.rfl⟩
    · rintro ⟨increasing, sameMembers⟩
      exact increasing.eq_of_mem_iff (indicesOf_increasing rhs) sameMembers
  rw [FirstRepeated, ← sameIndices, firstRepeated?_eq_some_iff]
  refine and_congr_left fun _ => ?_
  constructor
  · rintro ⟨before, after, split, distinct, -, seen⟩
    obtain ⟨earlier, rest, whole, rfl, atRest⟩ := List.map_eq_append_iff.1 split
    obtain ⟨production, later, rfl, sameRhs, -⟩ := List.map_eq_cons_iff.1 atRest
    exact ⟨earlier, production, later, whole, sameRhs, by simpa using seen, distinct⟩
  · rintro ⟨earlier, production, later, whole, rfl, seen, distinct⟩
    exact ⟨earlier.map Production.rhs, later.map Production.rhs, by simp [whole], distinct,
      by simp, .inr seen⟩

/-- The check fails at the first repeated right-hand side. -/
theorem checkDistinctRightHandSides_eq_error_iff {cause : GenerationError} :
    grammar.checkDistinctRightHandSides = .error cause ↔
      ∃ rhs indices, cause = .duplicateRightHandSide rhs indices ∧
        grammar.FirstRepeated rhs indices := by
  simp only [← firstRepeated_iff]
  unfold checkDistinctRightHandSides
  split
  case h_1 found => simp [found, eq_comm]
  case h_2 nothing => simp [nothing]

theorem checkDistinctRightHandSides_eq_ok_iff :
    grammar.checkDistinctRightHandSides = .ok () ↔ grammar.DistinctRightHandSides := by
  have searched : firstRepeated? [] (grammar.productions.map Production.rhs) = none ↔
      grammar.DistinctRightHandSides := by
    simp [firstRepeated?_eq_none_iff, DistinctRightHandSides]
  rw [← searched]
  unfold checkDistinctRightHandSides
  split
  case h_1 found => simp [found]
  case h_2 nothing => simp [nothing]

/-! ### The checks together -/

theorem exists_firstUndefined_iff :
    (∃ nonterminal lhs, grammar.FirstUndefined nonterminal lhs) ↔ ¬ grammar.Defined := by
  rw [← checkDefined_eq_ok_iff]
  constructor
  · rintro ⟨nonterminal, lhs, isFirst⟩ passes
    rw [checkDefined_eq_error_iff.2 ⟨nonterminal, lhs, rfl, isFirst⟩] at passes
    contradiction
  · intro fails
    cases checked : grammar.checkDefined with
    | ok => exact absurd checked fails
    | error cause =>
        obtain ⟨nonterminal, lhs, -, isFirst⟩ := checkDefined_eq_error_iff.1 checked
        exact ⟨nonterminal, lhs, isFirst⟩

theorem exists_firstRepeated_iff :
    (∃ rhs indices, grammar.FirstRepeated rhs indices) ↔ ¬ grammar.DistinctRightHandSides := by
  rw [← checkDistinctRightHandSides_eq_ok_iff]
  constructor
  · rintro ⟨rhs, indices, isFirst⟩ passes
    rw [checkDistinctRightHandSides_eq_error_iff.2 ⟨rhs, indices, rfl, isFirst⟩] at passes
    contradiction
  · intro fails
    cases checked : grammar.checkDistinctRightHandSides with
    | ok => exact absurd checked fails
    | error cause =>
        obtain ⟨rhs, indices, -, isFirst⟩ := checkDistinctRightHandSides_eq_error_iff.1 checked
        exact ⟨rhs, indices, isFirst⟩

theorem exists_checkedStart_iff :
    (∃ start, grammar.checkedStart = .ok start) ↔
      grammar.Marked ∧ grammar.Defined ∧ grammar.DistinctRightHandSides := by
  simp only [checkedStart_eq_ok, checkDefined_eq_ok_iff, checkDistinctRightHandSides_eq_ok_iff,
    exists_and_right]
  refine and_congr_left fun _ => ?_
  rw [← Option.isSome_iff_exists, Option.isSome_iff_ne_none, ne_eq, startProduction?_eq_none_iff,
    not_not]

/-- A missing start mark comes before undefined nonterminals, and these come before repeated
right-hand sides. -/
theorem checkedStart_eq_error_iff {cause : GenerationError} :
    grammar.checkedStart = .error cause ↔
      (¬ grammar.Marked ∧ cause = .missingStartProduction) ∨
      (grammar.Marked ∧ ∃ nonterminal lhs, cause = .undefinedNonterminal nonterminal lhs ∧
        grammar.FirstUndefined nonterminal lhs) ∨
      (grammar.Marked ∧ grammar.Defined ∧ ∃ rhs indices,
        cause = .duplicateRightHandSide rhs indices ∧ grammar.FirstRepeated rhs indices) := by
  rw [← checkDefined_eq_error_iff, ← checkDefined_eq_ok_iff,
    ← checkDistinctRightHandSides_eq_error_iff]
  unfold checkedStart
  cases started : grammar.startProduction? with
  | none =>
      have unmarked := startProduction?_eq_none_iff.1 started
      simp [unmarked, eq_comm]
  | some start =>
      have marked : grammar.Marked := by
        by_contra unmarked
        rw [startProduction?_eq_none_iff.2 unmarked] at started
        contradiction
      cases grammar.checkDefined with
      | error other => simp [marked, bind, Except.bind]
      | ok =>
          cases grammar.checkDistinctRightHandSides with
          | error other => simp [marked, bind, Except.bind]
          | ok => simp [marked, bind, Except.bind, pure, Except.pure]

/-- Two defects at once, as a sample: a right-hand side stands twice, and a production that
the start production never reaches uses an undefined nonterminal. -/
def faulty : Grammar :=
  ofProductions "eof"
    [⟨"S", [.terminal "a"], false⟩,
      ⟨"S", [.terminal "a"], false⟩,
      ⟨"X", [.nonterminal "S", .nonterminal "Y"], false⟩]

theorem faulty_repeats : ¬ faulty.DistinctRightHandSides := by
  unfold DistinctRightHandSides
  decide

theorem faulty_marked : faulty.Marked := by
  unfold Marked
  decide

theorem faulty_firstUndefined : faulty.FirstUndefined "Y" "X" := by
  refine ⟨faulty.productions.take 2, ⟨"X", [.nonterminal "S", .nonterminal "Y"], false⟩, [],
    [.nonterminal "S"], [], rfl, rfl, rfl, ?_, ?_, ?_⟩
  · unfold Defines
    decide
  · simp [DefinesAll, faulty, ofProductions, markStart]
  · simp [DefinesAll, Defines, faulty, ofProductions, markStart]

end CanonicalLR.Grammar
