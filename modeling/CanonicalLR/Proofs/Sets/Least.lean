import CanonicalLR.Proofs.Sets.Follow

/-!
Contract: the FIRST and FOLLOW sets as the least solution of their equations.

Owns:
- the equations, as inclusions between the sets of any two families;
- that the computed families solve them, lie within every other solution and are left as they
  are by a further pass.

Does not own: how a single pass is made.

The grammar is any value: right-hand sides may be empty, nonterminals undefined and the listed
names arbitrary.
-/

namespace CanonicalLR

namespace Sets

/-- FIRST of a left-hand side contains FIRST of the first symbol. FOLLOW of a nonterminal
contains FIRST of the next symbol, and at the end of a right-hand side FOLLOW of the left-hand
side; FOLLOW of the start symbol contains the end of input if the start symbol is listed. -/
structure Solves (sets : Sets) (grammar : Grammar) : Prop where
  first : ∀ production ∈ grammar.productions, ∀ symbol behind,
    production.rhs = symbol :: behind →
      ∀ terminal ∈ sets.firstOf symbol, terminal ∈ sets.first.setOf production.lhs
  endMarker : grammar.start ∈ grammar.nonterminals →
    grammar.endMarker ∈ sets.follow.setOf grammar.start
  ahead : ∀ production ∈ grammar.productions, ∀ before name next behind,
    production.rhs = before ++ .nonterminal name :: next :: behind →
      ∀ terminal ∈ sets.firstOf next, terminal ∈ sets.follow.setOf name
  atEnd : ∀ production ∈ grammar.productions, ∀ before name,
    production.rhs = before ++ [.nonterminal name] →
      ∀ terminal ∈ sets.follow.setOf production.lhs, terminal ∈ sets.follow.setOf name

/-- Each set is contained in its counterpart. -/
structure Within (sets other : Sets) : Prop where
  first : ∀ name, ∀ terminal ∈ sets.first.setOf name, terminal ∈ other.first.setOf name
  follow : ∀ name, ∀ terminal ∈ sets.follow.setOf name, terminal ∈ other.follow.setOf name

section

variable {grammar : Grammar} {other : Sets}

theorem mem_first {name terminal : String} :
    terminal ∈ (ofGrammar grammar).first.setOf name ↔
      grammar.Starts (.nonterminal name) terminal :=
  @Grammar.mem_firstOf grammar (.nonterminal name) terminal

theorem ofGrammar_solves (grammar : Grammar) : (ofGrammar grammar).Solves grammar where
  first _ member _ _ rhs _ inFirst :=
    mem_first.2 (.nonterminal member rhs (Grammar.mem_firstOf.1 inFirst))
  endMarker listed := Grammar.mem_follow.2 (.endMarker listed)
  ahead _ member _ _ _ _ rhs _ inFirst :=
    Grammar.mem_follow.2 (.ahead member rhs (Grammar.mem_firstOf.1 inFirst))
  atEnd _ member _ _ rhs _ inFollow :=
    Grammar.mem_follow.2 (.atEnd member rhs (Grammar.mem_follow.1 inFollow))

theorem Solves.mem_firstOf (solves : other.Solves grammar) {symbol : Symbol} {terminal : String}
    (starts : grammar.Starts symbol terminal) : terminal ∈ other.firstOf symbol := by
  induction starts with
  | terminal name => exact NameSet.mem_singleton.2 rfl
  | nonterminal member rhs _ inductionHypothesis =>
      exact solves.first _ member _ _ rhs _ inductionHypothesis

theorem Solves.mem_follow (solves : other.Solves grammar) {name terminal : String}
    (follows : grammar.Follows name terminal) : terminal ∈ other.follow.setOf name := by
  induction follows with
  | endMarker listed => exact solves.endMarker listed
  | ahead member rhs starts => exact solves.ahead _ member _ _ _ _ rhs _ (solves.mem_firstOf starts)
  | atEnd member rhs _ inductionHypothesis =>
      exact solves.atEnd _ member _ _ rhs _ inductionHypothesis

/-- A solution for more productions solves for fewer of them. -/
theorem Solves.of_subset {fewer : Grammar} (solves : other.Solves grammar)
    (productions : ∀ production ∈ fewer.productions, production ∈ grammar.productions)
    (endMarker : fewer.start ∈ fewer.nonterminals →
      fewer.endMarker ∈ other.follow.setOf fewer.start) : other.Solves fewer where
  first production member := solves.first production (productions production member)
  endMarker := endMarker
  ahead production member := solves.ahead production (productions production member)
  atEnd production member := solves.atEnd production (productions production member)

end

/-- Passes that nothing limits come to an end, and FIRST and FOLLOW are what they come to: the
least families that satisfy all equations. A further pass reports no growth and changes
nothing. -/
theorem least_solution (grammar : Grammar) :
    (∃ passes, Settles (firstPass grammar) grammar.emptySets ((ofGrammar grammar).first, passes)) ∧
      (∃ passes, Settles (followPass grammar (ofGrammar grammar).first) grammar.followSeed
        ((ofGrammar grammar).follow, passes)) ∧
      (ofGrammar grammar).Solves grammar ∧
      (∀ other : Sets, other.Solves grammar → (ofGrammar grammar).Within other) ∧
      firstPass grammar (ofGrammar grammar).first = ⟨(ofGrammar grammar).first, false⟩ ∧
      followPass grammar (ofGrammar grammar).first (ofGrammar grammar).follow =
        ⟨(ofGrammar grammar).follow, false⟩ := by
  refine ⟨⟨_, grammar.settles_firstPass⟩, ⟨_, grammar.settles_followPass⟩,
    ofGrammar_solves grammar, fun other solves => ⟨?_, ?_⟩, grammar.firstPass_firstSolution,
    grammar.followPass_followSolution⟩
  · intro name terminal member
    exact solves.mem_firstOf (mem_first.1 member)
  · intro name terminal member
    exact solves.mem_follow (Grammar.mem_follow.1 member)

/-- Two nonterminals that begin with each other and one that has no production, with an empty
right-hand side besides. Only the undefined one and the start symbol are listed. -/
def entangled : Grammar where
  start := "A"
  endMarker := "end"
  productions :=
    [⟨"A", [.nonterminal "B", .terminal "x"], true⟩,
      ⟨"B", [.nonterminal "A", .nonterminal "C"], false⟩,
      ⟨"B", [], false⟩,
      ⟨"B", [.terminal "z"], false⟩]
  terminals := ∅
  nonterminals := .ofList ["C", "A"]

/-- What two more productions add is not in the least solution. -/
theorem least_solution_entangled :
    ∃ other : Sets, other.Solves entangled ∧ (ofGrammar entangled).Within other ∧
      (ofGrammar entangled).first.entries.map (fun (name, set) => (name, set.names)) =
        [("A", ["z"]), ("B", ["z"]), ("C", [])] ∧
      (ofGrammar entangled).follow.entries.map (fun (name, set) => (name, set.names)) =
        [("A", ["end"]), ("B", ["x"]), ("C", ["x"])] ∧
      "c" ∈ other.first.setOf "C" ∧ "c" ∈ other.follow.setOf "A" := by
  let larger : Grammar :=
    { entangled with productions := entangled.productions ++ [⟨"C", [.terminal "c"], false⟩] }
  have solves : (ofGrammar larger).Solves entangled :=
    (ofGrammar_solves larger).of_subset (fun _ member => List.mem_append_left _ member)
      (ofGrammar_solves larger).endMarker
  exact ⟨ofGrammar larger, solves, (least_solution entangled).2.2.2.1 _ solves, by decide +kernel,
    by decide +kernel, by decide +kernel, by decide +kernel⟩

end Sets

end CanonicalLR
