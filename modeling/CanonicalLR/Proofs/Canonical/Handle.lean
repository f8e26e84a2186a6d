import CanonicalLR.Proofs.Canonical.Path
import CanonicalLR.Proofs.Rightmost
import CanonicalLR.Proofs.Table.Lookup

/-!
Contract: the last steps of rightmost derivations.

Owns:
- that a right sentential form determines its handle when valid items do not
  conflict;
- that two derivations of one form agree from the end;
- that a table without conflicts certifies unambiguity.

Does not own: derivations that come back to the start symbol.
-/

namespace CanonicalLR

namespace Grammar

variable {grammar : Grammar}

/-- No items that are valid behind one form call for different actions. -/
def Deterministic (grammar : Grammar) : Prop :=
  ∀ form, ¬ grammar.HasConflict {triple | grammar.Valid form triple}

/-- Each symbol of a form with a valid item has stood behind the dot of one. -/
theorem Valid.exists_expecting {form whole : List Symbol} {symbol : Symbol} {triple : Triple}
    (valid : grammar.Valid whole triple) (isPrefix : form ++ [symbol] <+: whole) :
    ∃ earlier behind, grammar.Valid form earlier ∧
      grammar.behind? earlier = some (symbol :: behind) := by
  induction valid with
  | start => simp at isPrefix
  | advance valid behindDot inductionHypothesis =>
      rcases List.prefix_concat_iff.1 isPrefix with same | shorter
      · obtain ⟨rfl, sameSymbol⟩ := List.append_inj' same rfl
        cases sameSymbol
        exact ⟨_, _, valid, behindDot⟩
      · exact inductionHypothesis shorter
  | call _ _ _ _ inductionHypothesis => exact inductionHypothesis isPrefix

namespace Deterministic

variable (deterministic : grammar.Deterministic) (readable : grammar.Readable)

include deterministic readable

/-! ### Handles -/

/-- The handle that ends first leaves no room for another one: the terminal behind
it would be read or reduced at once. -/
private theorem handle_unique_of_le {before otherBefore between : List Symbol} {index other : Nat}
    {production otherProduction : Production} {after otherAfter : List String}
    (expands : grammar.Expands before index production after)
    (otherExpands : grammar.Expands otherBefore other otherProduction otherAfter)
    (longer : otherBefore ++ otherProduction.rhs = before ++ production.rhs ++ between)
    (rest : after.map .terminal = between ++ otherAfter.map .terminal) :
    before = otherBefore ∧ index = other ∧ after = otherAfter := by
  have ⟨_, _, _, _, found, _⟩ := expands
  have ⟨_, _, _, _, otherFound, _⟩ := otherExpands
  obtain ⟨terminal, next⟩ := exists_head? after grammar.endMarker
  obtain ⟨otherTerminal, otherNext⟩ := exists_head? otherAfter grammar.endMarker
  have complete := expands.valid readable next
  have nothing : grammar.behind? ⟨index, production.rhs.length, terminal⟩ = some [] :=
    behind?_eq_some.2 ⟨production, found, List.drop_length⟩
  have otherValid := otherExpands.valid readable otherNext
  rw [longer] at otherValid
  cases between with
  | nil =>
      cases map_terminal_injective rest
      rw [List.append_nil] at longer otherValid
      cases next.symm.trans otherNext
      have otherNothing :
          grammar.behind? ⟨other, otherProduction.rhs.length, terminal⟩ = some [] :=
        behind?_eq_some.2 ⟨otherProduction, otherFound, List.drop_length⟩
      have sameIndex : index = other := by
        by_contra different
        exact deterministic _ ⟨_, complete, nothing,
          .inr ⟨_, otherValid, otherNothing, rfl, Ne.symm different⟩⟩
      subst sameIndex
      cases found.symm.trans otherFound
      exact ⟨(List.append_cancel_right longer).symm, rfl, rfl⟩
  | cons symbol between =>
      cases after with
      | nil => contradiction
      | cons name after =>
          cases Option.some.inj next
          cases (List.cons.inj rest).1
          have isPrefix : before ++ production.rhs ++ [.terminal terminal] <+:
              before ++ production.rhs ++ .terminal terminal :: between :=
            (List.prefix_append_right_inj _).2 ⟨between, rfl⟩
          obtain ⟨shifted, behind, valid, behindDot⟩ := otherValid.exists_expecting isPrefix
          exact absurd ⟨_, complete, nothing, .inl ⟨shifted, valid, behind, behindDot⟩⟩
            (deterministic _)

/-- A right sentential form tells which step has led to it. -/
theorem handle_unique {before otherBefore : List Symbol} {index other : Nat}
    {production otherProduction : Production} {after otherAfter : List String}
    (expands : grammar.Expands before index production after)
    (otherExpands : grammar.Expands otherBefore other otherProduction otherAfter)
    (same : before ++ production.rhs ++ after.map .terminal =
      otherBefore ++ otherProduction.rhs ++ otherAfter.map .terminal) :
    before = otherBefore ∧ index = other ∧ after = otherAfter := by
  rcases List.append_eq_append_iff.1 same with ⟨between, longer, rest⟩ | ⟨between, longer, rest⟩
  · exact handle_unique_of_le deterministic readable expands otherExpands longer rest
  · obtain ⟨rfl, rfl, rfl⟩ :=
      handle_unique_of_le deterministic readable otherExpands expands longer rest
    exact ⟨rfl, rfl, rfl⟩

/-! ### Derivations -/

/-- Of two derivations of one form, the longer one ends with the shorter one. What
it does before that leads from the start symbol to the start symbol. -/
theorem exists_earlier {start : Nat} {first : Production}
    (started : grammar.startProduction? = some (start, first)) {left right : List Nat}
    {form : List Symbol} (leftDerivation : grammar.Rightmost left [.nonterminal first.lhs] form)
    (rightDerivation : grammar.Rightmost right [.nonterminal first.lhs] form)
    (leftStarts : left.head? = some start) (rightStarts : right.head? = some start)
    (shorter : left.length ≤ right.length) :
    ∃ earlier, right = earlier ++ left ∧
      grammar.Rightmost earlier [.nonterminal first.lhs] [.nonterminal first.lhs] := by
  induction left using List.reverseRecOn generalizing right form with
  | nil => contradiction
  | append_singleton left index inductionHypothesis =>
      obtain rfl | ⟨right, other, rfl⟩ := List.eq_nil_or_concat' right
      · contradiction
      obtain ⟨before, production, after, found, leftBeginning, rfl⟩ := leftDerivation.last_step
      obtain ⟨otherBefore, otherProduction, otherAfter, otherFound, rightBeginning, same⟩ :=
        rightDerivation.last_step
      obtain ⟨rfl, rfl, rfl⟩ := deterministic.handle_unique readable
        ⟨start, first, left, started, found, leftBeginning, leftStarts⟩
        ⟨start, first, right, started, otherFound, rightBeginning, rightStarts⟩ same
      cases found.symm.trans otherFound
      cases left with
      | nil =>
          rw [leftBeginning.target_unique (.refl _)] at rightBeginning
          exact ⟨right, rfl, rightBeginning⟩
      | cons head left =>
          cases right with
          | nil => simp at shorter
          | cons rightHead right =>
              have stillShorter : (head :: left).length ≤ (rightHead :: right).length := by
                simpa using shorter
              obtain ⟨earlier, ending, returning⟩ := inductionHypothesis leftBeginning
                rightBeginning leftStarts rightStarts stillShorter
              refine ⟨earlier, ?_, returning⟩
              rw [ending, List.append_assoc]

private theorem rightmost_eq_of_le {start : Nat} {first : Production}
    (started : grammar.startProduction? = some (start, first))
    (acyclic : ¬ grammar.Derives first.rhs [.nonterminal first.lhs]) {left right : List Nat}
    {form : List Symbol}
    (leftDerivation : grammar.Rightmost (start :: left) [.nonterminal first.lhs] form)
    (rightDerivation : grammar.Rightmost (start :: right) [.nonterminal first.lhs] form)
    (shorter : left.length ≤ right.length) : left = right := by
  obtain ⟨earlier, ending, returning⟩ := deterministic.exists_earlier readable started
    leftDerivation rightDerivation rfl rfl (Nat.succ_le_succ shorter)
  cases earlier with
  | nil => exact (List.cons.inj ending).2.symm
  | cons head earlier =>
      cases (List.cons.inj ending).1
      obtain ⟨production, found, -, rest⟩ := returning.first_step
      cases (getElem?_of_startProduction? started).symm.trans found
      exact absurd rest.derives acyclic

/-- A form has one derivation that begins with the start production, unless the
start symbol alone comes back on the way. -/
theorem rightmost_unique {start : Nat} {first : Production}
    (started : grammar.startProduction? = some (start, first))
    (acyclic : ¬ grammar.Derives first.rhs [.nonterminal first.lhs]) {left right : List Nat}
    {form : List Symbol}
    (leftDerivation : grammar.Rightmost (start :: left) [.nonterminal first.lhs] form)
    (rightDerivation : grammar.Rightmost (start :: right) [.nonterminal first.lhs] form) :
    left = right := by
  rcases Nat.le_total left.length right.length with shorter | longer
  · exact rightmost_eq_of_le deterministic readable started acyclic leftDerivation
      rightDerivation shorter
  · exact (rightmost_eq_of_le deterministic readable started acyclic rightDerivation
      leftDerivation longer).symm

end Deterministic

end Grammar

theorem ParseTable.Generated.deterministic {policy : ConflictPolicy} {table : ParseTable}
    (generated : table.Generated policy) (none : table.conflicts = [])
    (readable : table.grammar.Readable) : table.grammar.Deterministic :=
  generated.not_hasConflict_valid readable none

/-- A grammar that has a table without conflicts is unambiguous: a word has at most
one rightmost derivation that begins with the start production, unless the start
symbol alone comes back on the way. -/
theorem unambiguous_of_generate {endMarker source : String} {grammar : Grammar}
    {table : ParseTable} {index : Nat} {production : Production}
    (parsed : Grammar.parse endMarker source = .ok grammar)
    (generation : ParseTable.generate .fail grammar = .ok table)
    (started : grammar.startProduction? = some (index, production))
    (acyclic : ¬ grammar.Derives production.rhs [.nonterminal production.lhs])
    {word : List String} {left right : List Nat}
    (leftDerivation : grammar.Rightmost (index :: left) [.nonterminal production.lhs]
      (word.map .terminal))
    (rightDerivation : grammar.Rightmost (index :: right) [.nonterminal production.lhs]
      (word.map .terminal)) :
    left = right := by
  obtain ⟨rfl, generated⟩ := ParseTable.generated_of_generateWith generation
  have readable := Grammar.parse_readable parsed
  have deterministic := generated.deterministic (generated.conflicts_eq_nil rfl) readable
  exact deterministic.rightmost_unique readable started acyclic leftDerivation rightDerivation

/-- The only derivation of a sum. -/
theorem unambiguous_of_generate_sum :
    ∃ table, ParseTable.generate .fail Grammar.sums = .ok table ∧
      Grammar.sums.Rightmost [0, 1, 2] [.nonterminal "S"] (["n", "+", "n"].map .terminal) ∧
      ∀ right, Grammar.sums.Rightmost (0 :: right) [.nonterminal "S"]
        (["n", "+", "n"].map .terminal) → right = [1, 2] := by
  obtain ⟨table, generation⟩ := ParseTable.exists_generate_sums
  have acyclic : ¬ Grammar.sums.Derives [.nonterminal "E"] [.nonterminal "S"] := by
    intro derives
    have inNoRhs : ∀ production ∈ Grammar.sums.productions,
        .nonterminal "S" ∉ production.rhs := by
      decide
    rcases derives.mem (List.mem_singleton_self _) with inForm | ⟨production, member, inRhs⟩
    · simp at inForm
    · exact inNoRhs production member inRhs
  have summand : Grammar.sums.Rightmost [2]
      [.nonterminal "E", .terminal "+", .terminal "n"] (["n", "+", "n"].map .terminal) :=
    @Grammar.Rightmost.step _ 2 ⟨"E", [.terminal "n"], false⟩ _ _ rfl [] ["+", "n"] (.refl _)
  have sum : Grammar.sums.Rightmost [0, 1, 2] [.nonterminal "S"]
      (["n", "+", "n"].map .terminal) :=
    @Grammar.Rightmost.step _ 0 ⟨"S", [.nonterminal "E"], true⟩ _ _ rfl [] []
      (@Grammar.Rightmost.step _ 1
        ⟨"E", [.nonterminal "E", .terminal "+", .terminal "n"], false⟩ _ _ rfl [] [] summand)
  refine ⟨table, generation, sum, fun right derivation => ?_⟩
  exact (unambiguous_of_generate Grammar.parse_sums generation Grammar.startProduction?_sums
    acyclic sum derivation).symm

end CanonicalLR
