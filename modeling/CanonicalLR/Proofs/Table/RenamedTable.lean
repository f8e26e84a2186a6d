import CanonicalLR.Proofs.Table.Conflict
import CanonicalLR.Proofs.Table.RenamedRun
import CanonicalLR.Proofs.Table.Verdict

/-!
Contract: the tables of grammars that differ in their names alone.

Owns:
- tables and outcomes that are equal up to the names;
- that transitions and candidates, and so entries and conflicts, are equal up to the names
  when the states are;
- that generation gives equal outcomes, up to the names.

Does not own: what the policy `fail` reports, which is the first conflict in an order of names.
-/

namespace CanonicalLR

namespace Renaming

variable (rename : Renaming)

/-- The tables have the same states with the same numbers, and the same entries in every
row, up to the names. A conflict tells its state, so that the conflicts of each state are the
same too; those of one state may stand in another order. -/
structure SameTable (table other : ParseTable) : Prop where
  states_size : other.states.size = table.states.size
  exists_state : ∀ (id : Nat) (state : State), table.states[id]? = some state →
    ∃ image, other.states[id]? = some image ∧ rename.SameState state image
  action?_eq_some_iff : ∀ id image action, other.action? id image = some action ↔
    ∃ terminal, table.action? id terminal = some action ∧ rename.terminal terminal = image
  goto?_eq_some_iff : ∀ id image target, other.goto? id image = some target ↔
    ∃ nonterminal, table.goto? id nonterminal = some target ∧
      rename.nonterminal nonterminal = image
  conflicts_perm : other.conflicts.Perm (table.conflicts.map rename.conflict)

/-- Both give a table or neither does, and what they give is the same up to the names. -/
inductive SameOutcome :
    Except GenerationError ParseTable → Except GenerationError ParseTable → Prop where
  | table {table other : ParseTable} (same : rename.SameTable table other) :
      SameOutcome (.ok table) (.ok other)
  | failure (cause : GenerationError) : SameOutcome (.error cause) (.error (rename.cause cause))

end Renaming

theorem Action.Precedes.asymm {left right : Action} (precedes : left.Precedes right) :
    ¬ right.Precedes left := by
  intro converse
  cases precedes with
  | reduction before =>
      cases converse with
      | reduction beforeToo => exact Nat.lt_asymm before beforeToo
  | shift => cases converse

namespace ParseTable

open Construction

/-- An entry is the candidate that precedes all others. -/
theorem action?_eq_some_iff {lookup : StateLookup} {policy : ConflictPolicy} {grammar : Grammar}
    {table : ParseTable} (generation : generateWith lookup policy grammar = .ok table) {id : Nat}
    {terminal : String} {action : Action} :
    table.action? id terminal = some action ↔
      table.Candidate id terminal action ∧
        ∀ other, table.Candidate id terminal other → other = action ∨ action.Precedes other := by
  have generated := (generated_of_generateWith generation).2
  constructor
  · intro entry
    exact ⟨generated.candidate_of_action? _ _ _ entry, fun other candidate =>
      action?_precedes generation entry candidate⟩
  · rintro ⟨candidate, isFirst⟩
    obtain ⟨first, entry⟩ := generated.exists_action? _ _ _ candidate
    rcases isFirst first (generated.candidate_of_action? _ _ _ entry) with same | precedes
    · rw [entry, same]
    · rcases action?_precedes generation entry candidate with same | converse
      · rw [entry, same]
      · exact absurd converse precedes.asymm

end ParseTable

/-! ### Tables with the same states -/

namespace Renames

open ParseTable Construction

section Tables

variable {rename : Renaming} {lookup : StateLookup} {policy : ConflictPolicy}
  {table other : ParseTable} (renames : Renames rename table.grammar other.grammar)
  (generation : generateWith lookup policy table.grammar = .ok table)
  (generationToo : generateWith lookup policy other.grammar = .ok other)
  (sameSize : other.states.size = table.states.size)
  (sameStates : ∀ (id : Nat) (state : State), table.states[id]? = some state →
    ∃ image, other.states[id]? = some image ∧ rename.SameState state image)
  {id : Nat}

include renames generation generationToo sameStates

private theorem edge_renamed {symbol : Symbol} {target : Nat} (edge : table.Edge id symbol target) :
    other.Edge id (rename.symbol symbol) target := by
  have generated := (generated_of_generateWith generation).2
  have generatedToo := (generated_of_generateWith generationToo).2
  obtain ⟨state, transition, items, present, found, closed, targetPresent⟩ := edge
  obtain ⟨sameSymbol, -⟩ := ItemSet.transition?_eq_some found
  have itemsFit := generated.fits id state present
  have inTransitions : transition ∈ state.items.transitions :=
    ItemSet.mem_transitions.2 (sameSymbol.symm ▸ found)
  obtain ⟨image, imagePresent, same⟩ := sameStates id state present
  have inImage : rename.transition transition ∈ image.items.transitions := by
    rw [renames.transitions_eq itemsFit same.items_eq]
    exact List.mem_map_of_mem inTransitions
  rw [generated.sets_eq] at closed
  obtain ⟨closure, closedToo, sameItems⟩ :=
    renames.exists_close (itemsFit.seeds inTransitions) closed
  obtain ⟨⟨number, kernel, imageItems⟩, targetImage, sameTarget⟩ :=
    sameStates target _ targetPresent
  obtain ⟨sameNumber, sameKernel, sameTargetItems⟩ := sameTarget
  simp only at sameNumber sameKernel
  subst sameNumber sameKernel
  cases sameTargetItems.unique sameItems
  refine ⟨image, rename.transition transition, _, imagePresent, ?_, ?_, targetImage⟩
  · rw [← sameSymbol]
    exact ItemSet.mem_transitions.1 inImage
  · rw [generatedToo.sets_eq]
    exact closedToo

include sameSize

private theorem edge_iff {image : Symbol} {target : Nat} :
    other.Edge id image target ↔
      ∃ symbol, table.Edge id symbol target ∧ rename.symbol symbol = image := by
  have generated := (generated_of_generateWith generation).2
  have generatedToo := (generated_of_generateWith generationToo).2
  constructor
  · intro edge
    obtain ⟨imageState, imagePresent, imageItem, imageMember, imageNext⟩ := edge.awaits
    obtain ⟨state, present, same⟩ :=
      Renaming.exists_state_of_image sameSize sameStates imagePresent
    obtain ⟨item, member, rfl⟩ := same.items_eq.mem_iff.1 imageMember
    obtain ⟨symbol, next, rfl⟩ := Option.map_eq_some_iff.1
      ((Renaming.next?_core item.toCore).symm.trans imageNext)
    obtain ⟨found, sourceEdge⟩ := generated.exists_edge id state item symbol present member next
    have renamed := renames.edge_renamed generation generationToo sameStates sourceEdge
    rw [generatedToo.edge_unique edge renamed]
    exact ⟨symbol, sourceEdge, rfl⟩
  · rintro ⟨symbol, edge, rfl⟩
    exact renames.edge_renamed generation generationToo sameStates edge

private theorem candidate_iff {image : String} {action : Action} :
    other.Candidate id image action ↔
      ∃ terminal, table.Candidate id terminal action ∧ rename.terminal terminal = image := by
  have edges : ∀ {image : Symbol} {target : Nat}, other.Edge id image target ↔
      ∃ symbol, table.Edge id symbol target ∧ rename.symbol symbol = image :=
    renames.edge_iff generation generationToo sameSize sameStates
  constructor
  · intro candidate
    cases candidate with
    | shift edge =>
        obtain ⟨symbol, sourceEdge, renamed⟩ := edges.1 edge
        obtain ⟨terminal, rfl, named⟩ := Renaming.symbol_eq_terminal renamed
        exact ⟨terminal, .shift sourceEdge, named⟩
    | reduce imagePresent imageMember complete inLookahead =>
        obtain ⟨state, present, same⟩ :=
          Renaming.exists_state_of_image sameSize sameStates imagePresent
        obtain ⟨item, member, rfl⟩ := same.items_eq.mem_iff.1 imageMember
        obtain ⟨terminal, inSource, named⟩ := Renaming.mem_names.1 inLookahead
        have atEnd := Option.map_eq_none_iff.1
          ((Renaming.next?_core item.toCore).symm.trans complete)
        have reduces : table.Candidate id terminal (.reduce item.production) :=
          .reduce present member atEnd inSource
        exact ⟨terminal, reduces, named⟩
  · rintro ⟨terminal, candidate, rfl⟩
    cases candidate with
    | shift edge => exact .shift (edges.2 ⟨_, edge, rfl⟩)
    | @reduce state item present member complete inLookahead =>
        obtain ⟨image, imagePresent, same⟩ := sameStates id state present
        have atEnd : (rename.item item).next? = none :=
          (Renaming.next?_core item.toCore).trans (Option.map_eq_none_iff.2 complete)
        have reduces : other.Candidate id (rename.terminal terminal)
            (.reduce (rename.item item).production) :=
          .reduce imagePresent (same.items_eq.mem_iff.2 ⟨item, member, rfl⟩) atEnd
            (Renaming.mem_names.2 ⟨terminal, inLookahead, rfl⟩)
        exact reduces

omit generationToo sameStates sameSize in
private theorem terminal_eq {left right : String} {leftId rightId : Nat}
    {leftAction rightAction : Action}
    (leftCandidate : table.Candidate leftId left leftAction)
    (rightCandidate : table.Candidate rightId right rightAction)
    (same : rename.terminal left = rename.terminal right) : left = right := by
  have generated := (generated_of_generateWith generation).2
  exact renames.injective.terminals
    (generated.candidate_inRange renames.listed leftCandidate).1
    (generated.candidate_inRange renames.listed rightCandidate).1 same

private theorem action?_iff {image : String} {action : Action} :
    other.action? id image = some action ↔
      ∃ terminal, table.action? id terminal = some action ∧ rename.terminal terminal = image := by
  have candidates : ∀ {image : String} {action : Action}, other.Candidate id image action ↔
      ∃ terminal, table.Candidate id terminal action ∧ rename.terminal terminal = image :=
    renames.candidate_iff generation generationToo sameSize sameStates
  simp only [action?_eq_some_iff generationToo, action?_eq_some_iff generation]
  constructor
  · rintro ⟨candidate, isFirst⟩
    obtain ⟨terminal, sourceCandidate, rfl⟩ := candidates.1 candidate
    exact ⟨terminal, ⟨sourceCandidate, fun action candidate =>
      isFirst action (candidates.2 ⟨terminal, candidate, rfl⟩)⟩, rfl⟩
  · rintro ⟨terminal, ⟨candidate, isFirst⟩, rfl⟩
    refine ⟨candidates.2 ⟨terminal, candidate, rfl⟩, fun action otherCandidate => ?_⟩
    obtain ⟨origin, originCandidate, same⟩ := candidates.1 otherCandidate
    cases renames.terminal_eq generation originCandidate candidate same
    exact isFirst action originCandidate

private theorem goto?_iff {image : String} {target : Nat} :
    other.goto? id image = some target ↔
      ∃ nonterminal, table.goto? id nonterminal = some target ∧
        rename.nonterminal nonterminal = image := by
  have generated := (generated_of_generateWith generation).2
  have generatedToo := (generated_of_generateWith generationToo).2
  simp only [generated.goto?_eq_some, generatedToo.goto?_eq_some,
    renames.edge_iff generation generationToo sameSize sameStates]
  constructor
  · rintro ⟨symbol, edge, renamed⟩
    obtain ⟨nonterminal, rfl, named⟩ := Renaming.symbol_eq_nonterminal renamed
    exact ⟨nonterminal, edge, named⟩
  · rintro ⟨nonterminal, edge, rfl⟩
    exact ⟨_, edge, rfl⟩

private theorem mem_conflicts_iff {image : Conflict} :
    image ∈ other.conflicts ↔ ∃ conflict ∈ table.conflicts, rename.conflict conflict = image := by
  have generated := (generated_of_generateWith generation).2
  have generatedToo := (generated_of_generateWith generationToo).2
  simp only [generated.mem_conflicts, generatedToo.mem_conflicts,
    renames.candidate_iff generation generationToo sameSize sameStates,
    renames.action?_iff generation generationToo sameSize sameStates]
  constructor
  · rintro ⟨⟨terminal, candidate, named⟩, ⟨origin, entry, namedToo⟩, different⟩
    cases renames.terminal_eq generation candidate
      (generated.candidate_of_action? _ _ _ entry) (named.trans namedToo.symm)
    refine ⟨{ image with terminal := terminal }, ⟨candidate, entry, different⟩, ?_⟩
    show { image with terminal := rename.terminal terminal } = image
    rw [named]
  · rintro ⟨conflict, ⟨candidate, entry, different⟩, rfl⟩
    exact ⟨⟨_, candidate, rfl⟩, ⟨_, entry, rfl⟩, different⟩

private theorem conflicts_perm : other.conflicts.Perm (table.conflicts.map rename.conflict) := by
  have generated := (generated_of_generateWith generation).2
  have distinct : table.conflicts.Nodup :=
    List.nodup_iff_pairwise_ne.2 ((conflicts_ordered generation).imp And.right)
  have distinctToo : other.conflicts.Nodup :=
    List.nodup_iff_pairwise_ne.2 ((conflicts_ordered generationToo).imp And.right)
  have distinctImages : (table.conflicts.map rename.conflict).Nodup := by
    refine List.Nodup.map_on (fun left leftMember right rightMember same => ?_) distinct
    have leftCandidate := ((generated.mem_conflicts left).1 leftMember).1
    have rightCandidate := ((generated.mem_conflicts right).1 rightMember).1
    have sameImage : rename.terminal left.terminal = rename.terminal right.terminal :=
      congrArg Conflict.terminal same
    have sameTerminal := renames.terminal_eq generation leftCandidate rightCandidate sameImage
    cases left
    cases right
    simp_all [Renaming.conflict]
  rw [List.perm_ext_iff_of_nodup distinctToo distinctImages]
  intro image
  rw [renames.mem_conflicts_iff generation generationToo sameSize sameStates, List.mem_map]

end Tables

/-! ### Generation -/

variable {rename : Renaming} {source target : Grammar} (renames : Renames rename source target)

include renames

/-- With equal limits the two runs find the same states. -/
private theorem exists_sameStates {lookup : StateLookup} {index : Nat} {production : Production}
    {table : ParseTable} (started : source.startProduction? = some (index, production))
    (startedToo : target.startProduction? = some (index, rename.production production))
    (definedToo : target.checkDefined = .ok ())
    (distinctToo : target.checkDistinctRightHandSides = .ok ())
    (generation : generateWith lookup .report source = .ok table) :
    ∃ other, generateWith lookup .report target = .ok other ∧
      other.states.size = table.states.size ∧
      ∀ (id : Nat) (state : State), table.states[id]? = some state →
        ∃ image, other.states[id]? = some image ∧ rename.SameState state image := by
  rw [← draft_limit_add lookup .report source (limit target)] at generation
  obtain ⟨_, _, first, final, isStart, -, -, begun, ran, rfl⟩ := draft_eq_ok.1 generation
  cases isStart.symm.trans started
  obtain ⟨otherFirst, begunToo, mirrors⟩ := exists_initial_mirrors renames started begun
  obtain ⟨otherFinal, ranToo, finalMirrors⟩ := mirrors.run renames ran
  refine ⟨tableOf target otherFinal, ?_, finalMirrors.size_eq, finalMirrors.exists_state⟩
  rw [← draft_limit_add lookup .report target (limit source), Nat.add_comm]
  exact draft_eq_ok.2 ⟨index, _, otherFirst, otherFinal, startedToo, definedToo, distinctToo,
    begunToo, ranToo, rfl⟩

/-- Generation from a renamed grammar finds the same reason to fail or makes the same
table. -/
theorem generateWith_sameOutcome (lookup : StateLookup) :
    rename.SameOutcome (generateWith lookup .report source)
      (generateWith lookup .report target) := by
  cases checked : source.checkedStart with
  | error cause =>
      have checkedToo : target.checkedStart = .error (rename.cause cause) := by
        rw [renames.checkedStart_eq, checked]
        rfl
      rw [generateWith_of_failed checked, generateWith_of_failed checkedToo]
      exact .failure cause
  | ok start =>
      obtain ⟨index, production⟩ := start
      have checkedToo : target.checkedStart = .ok (index, rename.production production) := by
        rw [renames.checkedStart_eq, checked]
        rfl
      obtain ⟨started, defined, distinct⟩ := Grammar.checkedStart_eq_ok.1 checked
      obtain ⟨startedToo, definedToo, distinctToo⟩ := Grammar.checkedStart_eq_ok.1 checkedToo
      obtain ⟨table, generation⟩ := exists_generateWith_report lookup started defined distinct
      obtain ⟨other, generationToo, sameSize, sameStates⟩ :=
        renames.exists_sameStates started startedToo definedToo distinctToo generation
      obtain ⟨rfl, -⟩ := generated_of_generateWith generation
      obtain ⟨rfl, -⟩ := generated_of_generateWith generationToo
      rw [generation, generationToo]
      exact .table ⟨sameSize, sameStates,
        fun _ _ _ => renames.action?_iff generation generationToo sameSize sameStates,
        fun _ _ _ => renames.goto?_iff generation generationToo sameSize sameStates,
        renames.conflicts_perm generation generationToo sameSize sameStates⟩

end Renames

namespace ParseTable

/-- The names of symbols do not influence the automaton. Whatever new names the symbols get,
as long as different ones get different names, generation fails for the same reason or makes
the same table: with the same numbers for the same states, the same entries and the same
conflicts in each state. -/
theorem generate_renamed (rename : Renaming) (endMarker : String) (productions : List Production)
    (injective : rename.InjectiveOn (.ofProductions endMarker productions)) :
    rename.SameOutcome (generate .report (.ofProductions endMarker productions))
      (generate .report (.ofProductions (rename.terminal endMarker)
        (productions.map rename.production))) :=
  injective.renames.generateWith_sameOutcome (.hashed stateHash)

/-- Sums with the end marker and the summand changed round, and with nonterminals that are
called like terminals, as a sample. -/
def changedRound : Renaming where
  terminal name := if name = "eof" then "n" else if name = "n" then "eof" else name
  nonterminal name := if name = "S" then "n" else "+"

/-- The table of sums stays the same when the names change their order. -/
theorem generate_renamed_sums :
    ∃ table other, generate .report Grammar.sums = .ok table ∧
      generate .report (.ofProductions "n"
        (Grammar.sums.productions.map changedRound.production)) = .ok other ∧
      changedRound.SameTable table other := by
  have same : Grammar.ofProductions "eof" Grammar.sums.productions = Grammar.sums := by decide
  have injective : changedRound.InjectiveOn (.ofProductions "eof" Grammar.sums.productions) := by
    have terminals : ∀ left ∈ Grammar.sums.terminals.names,
        ∀ right ∈ Grammar.sums.terminals.names,
          changedRound.terminal left = changedRound.terminal right → left = right := by
      decide
    have nonterminals : ∀ left ∈ Grammar.sums.nonterminals.names,
        ∀ right ∈ Grammar.sums.nonterminals.names,
          changedRound.nonterminal left = changedRound.nonterminal right → left = right := by
      decide
    rw [same]
    exact ⟨fun left leftMember right rightMember => terminals left leftMember right rightMember,
      fun left leftMember right rightMember => nonterminals left leftMember right rightMember⟩
  obtain ⟨table, generation⟩ := exists_generateWith_report (.hashed stateHash)
    Grammar.startProduction?_sums (by decide) (by decide)
  have outcome := generate_renamed changedRound "eof" Grammar.sums.productions injective
  rw [same, generate, generation] at outcome
  generalize isOther : generate .report (.ofProductions (changedRound.terminal "eof")
    (Grammar.sums.productions.map changedRound.production)) = result at outcome
  cases outcome with
  | table sameTable => exact ⟨table, _, generation, isOther, sameTable⟩

end ParseTable

end CanonicalLR
