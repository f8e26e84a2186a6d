import CanonicalLR.Grammar.Edit
import CanonicalLR.Proofs.Sets.Follow
import CanonicalLR.Proofs.Table.Kernel
import CanonicalLR.Proofs.Table.Lookup

/-!
Contract: the lookaheads of a table and the FOLLOW sets of its grammar.

Owns:
- the induction over the facts of all states: the first fact, what facts call for and the
  moves of the dot;
- that lookaheads hold only what follows the left-hand side;
- that reductions, those that lost their entry included, stand on such terminals only.

Does not own: which of these terminals a state really has.

Right-hand sides may be empty and may use the end marker. Neither the closure nor the
construction looks at FOLLOW.
-/

namespace CanonicalLR

/-- The terminal of the fact, if there is one, follows the left-hand side. -/
def Fact.KeepsToFollow (grammar : Grammar) (fact : Fact) : Prop :=
  ∀ terminal ∈ fact.2, grammar.Follows fact.1.lhs terminal

/-- What a fact calls for keeps to FOLLOW if the fact does: the symbol behind the nonterminal
tells what follows it, and at the end of the right-hand side the left-hand side does. -/
theorem Closure.Calls.keepsToFollow {grammar : Grammar} {fact next : Fact}
    (calls : Closure.Calls grammar (Sets.ofGrammar grammar) fact next)
    (fits : fact.1.Fits grammar) (keeps : fact.KeepsToFollow grammar) :
    next.KeepsToFollow grammar := by
  intro terminal inNext
  obtain ⟨name, index, called, next?, listed, sameCore, lookaheads⟩ := calls.exists_production
  obtain ⟨-, rfl⟩ := Grammar.mem_productionsFor.1 listed
  obtain ⟨production, found, sameLhs, sameRhs, -⟩ := fits
  have member := List.mem_of_getElem? found
  obtain ⟨behind, drop⟩ := Core.exists_drop_of_next? next?
  have rhs : production.rhs =
      fact.1.rhs.take fact.1.dot ++ .nonterminal called.lhs :: behind := by
    rw [← sameRhs, ← drop, List.take_append_drop]
  rw [sameCore]
  show grammar.Follows called.lhs terminal
  rw [Core.afterNext?_of_drop drop] at lookaheads
  rcases lookaheads terminal inNext with ⟨symbol, isHead, inFirst⟩ | ⟨nothing, inherited⟩
  · obtain ⟨others, rfl⟩ := List.head?_eq_some_iff.1 isHead
    exact .ahead member rhs (Grammar.mem_firstOf.1 inFirst)
  · rw [List.head?_eq_none_iff.1 nothing] at rhs
    exact .atEnd member rhs (sameLhs ▸ keeps terminal inherited)

namespace ParseTable

variable {policy : ConflictPolicy} {grammar : Grammar} {table : ParseTable}

/-- Reducing by the production is justified by FOLLOW of its left-hand side. -/
def FollowsLhs (table : ParseTable) (index : Nat) (terminal : String) : Prop :=
  ∃ production follow, table.grammar.productions[index]? = some production ∧
    table.sets.follow.get? production.lhs = some follow ∧ terminal ∈ follow

/-- The lookaheads of all items, the actions and the conflicts keep to the FOLLOW sets. -/
structure KeepsToFollow (table : ParseTable) : Prop where
  lookahead : ∀ (id : Nat) (state : State), table.states[id]? = some state →
    ∀ item, item ∈ state.items ∨ item = state.kernel →
      ∃ follow, table.sets.follow.get? item.lhs = some follow ∧
        ∀ terminal ∈ item.lookahead, terminal ∈ follow
  action : ∀ id terminal index, table.action? id terminal = some (.reduce index) →
    table.FollowsLhs index terminal
  conflict : ∀ conflict ∈ table.conflicts, ∀ index,
    conflict.existing = .reduce index ∨ conflict.incoming = .reduce index →
      table.FollowsLhs index conflict.terminal

namespace Generated

variable (generated : table.Generated policy)

include generated

/-- A property of facts holds in all states if the start production with the end of input has
it, if it is passed on to what recorded facts call for, and if it does not hang on the dot. -/
theorem records_induction {property : Fact → Prop}
    (initially : ∀ index production,
      table.grammar.startProduction? = some (index, production) →
      ∀ terminal?, (∀ terminal ∈ terminal?, terminal = table.grammar.endMarker) →
      property (.start index production, terminal?))
    (calls : ∀ fact next, fact.Fits table.grammar →
      Closure.Calls table.grammar table.sets fact next → property fact → property next)
    (advance : ∀ core terminal?, property (core, terminal?) → property (core.advance, terminal?))
    {id : Nat} {fact : Fact} (records : table.Records id fact) : property fact := by
  have along : ∀ {id : Nat} {origin fact : Fact}, table.Records id origin → property origin →
      Relation.ReflTransGen (Closure.Calls table.grammar table.sets) origin fact →
      table.Records id fact ∧ property fact := by
    intro id origin fact records holds path
    induction path with
    | refl => exact ⟨records, holds⟩
    | tail _ called inductionHypothesis =>
        obtain ⟨earlierRecords, earlierHolds⟩ := inductionHypothesis
        exact ⟨generated.records_calls earlierRecords called,
          calls _ _ (generated.fits_of_records earlierRecords) called earlierHolds⟩
  induction id using Nat.strongRecOn generalizing fact with
  | ind id inductionHypothesis =>
      rcases Nat.eq_zero_or_pos id with rfl | positive
      · obtain ⟨index, production, _, started, -⟩ := generated.initial
        obtain ⟨terminal?, terminals, path⟩ := (generated.initial_records_iff started).1 records
        have first : table.Records 0 (.start index production, terminal?) :=
          (generated.initial_records_iff started).2 ⟨terminal?, terminals, .refl⟩
        exact (along first (initially index production started terminal? terminals) path).2
      · obtain ⟨source, before, symbol, edge⟩ := generated.reached id positive records.lt_size
        obtain ⟨core, terminal?, inSource, next, path⟩ := edge.records_iff.1 records
        have moved := edge.records_advance inSource next
        exact (along moved (advance _ _ (inductionHypothesis source before inSource)) path).2

theorem keepsToFollow_of_records (made : table.grammar.Made) {id : Nat} {fact : Fact}
    (records : table.Records id fact) : fact.KeepsToFollow table.grammar := by
  refine generated.records_induction ?_ ?_ ?_ records
  · intro index production started terminal? terminals terminal member
    have sameLhs := made.lhs_eq_start started
    have listed := made.listed.lhs production
      (List.mem_of_getElem? (Grammar.getElem?_of_startProduction? started))
    rw [terminals terminal member]
    show table.grammar.Follows production.lhs table.grammar.endMarker
    rw [sameLhs] at listed ⊢
    exact .endMarker listed
  · intro fact next fits calls keeps
    rw [generated.sets_eq] at calls
    exact calls.keepsToFollow fits.1 keeps
  · exact fun core terminal? keeps => keeps

/-- What follows the left-hand side of a recorded core is in the FOLLOW set of the table. -/
theorem exists_follow_of_records (made : table.grammar.Made) {id : Nat} {core : Core}
    (records : table.Records id (core, none)) :
    ∃ follow, table.sets.follow.get? core.lhs = some follow ∧
      ∀ terminal, table.Records id (core, some terminal) → terminal ∈ follow := by
  obtain ⟨⟨production, found, sameLhs, -⟩, -⟩ := generated.fits_of_records records
  have listed := made.listed.lhs production (List.mem_of_getElem? found)
  rw [← sameLhs] at listed
  obtain ⟨follow, foundFollow⟩ := Grammar.exists_follow listed
  rw [generated.sets_eq]
  refine ⟨follow, foundFollow, fun terminal recorded => ?_⟩
  have follows := generated.keepsToFollow_of_records made recorded terminal rfl
  have member := Grammar.mem_follow.2 follows
  rwa [NameMap.setOf, foundFollow] at member

theorem followsLhs_of_candidate (made : table.grammar.Made) {id index : Nat} {terminal : String}
    (candidate : table.Candidate id terminal (.reduce index)) :
    table.FollowsLhs index terminal := by
  obtain ⟨core, records, -, rfl⟩ := candidate_reduce_iff.1 candidate
  obtain ⟨⟨production, found, sameLhs, -⟩, -⟩ := generated.fits_of_records records
  obtain ⟨follow, foundFollow, within⟩ := generated.exists_follow_of_records made records.core
  exact ⟨production, follow, found, sameLhs ▸ foundFollow, within terminal records⟩

/-- The kernel of each state is recorded there: in the first state it is the seed. -/
theorem records_kernel {id : Nat} {state : State} (present : table.states[id]? = some state)
    {fact : Fact} (records : state.kernel.Records fact) : table.Records id fact := by
  rcases Nat.eq_zero_or_pos id with rfl | positive
  · obtain ⟨_, _, items, -, closed, initial⟩ := generated.initial
    cases present.symm.trans initial
    exact ⟨_, initial, (records_close closed fact).2 (.of_seed List.mem_cons_self records)⟩
  · exact ⟨state, present, state.kernel, (generated.isKernel positive present).member, records⟩

end Generated

/-- In every table of a grammar whose parts agree, each lookahead is contained in FOLLOW of the
left-hand side, so reductions are called for on terminals of FOLLOW only. -/
theorem keepsToFollow_of_generate (made : grammar.Made)
    (generation : generate policy grammar = .ok table) :
    table.sets = Sets.ofGrammar grammar ∧ table.KeepsToFollow := by
  obtain ⟨rfl, generated⟩ := generated_of_generateWith generation
  have reduction : ∀ {id terminal index action}, action = .reduce index →
      table.Candidate id terminal action → table.FollowsLhs index terminal := by
    intro id terminal index action isReduce candidate
    subst isReduce
    exact generated.followsLhs_of_candidate made candidate
  refine ⟨generated.sets_eq, ?_, ?_, ?_⟩
  · intro id state present item inState
    have records : ∀ fact, item.Records fact → table.Records id fact := by
      intro fact ofItem
      rcases inState with member | rfl
      · exact ⟨state, present, item, member, ofItem⟩
      · exact generated.records_kernel present ofItem
    obtain ⟨follow, found, within⟩ :=
      generated.exists_follow_of_records made (records _ item.records_core)
    exact ⟨follow, found, fun terminal member =>
      within terminal (records _ (Item.records_terminal member))⟩
  · intro id terminal index entry
    exact reduction rfl (generated.candidate_of_action? id terminal _ entry)
  · intro conflict member index isReduce
    obtain ⟨incoming, entry, -⟩ := (generated.mem_conflicts conflict).1 member
    rcases isReduce with isExisting | isIncoming
    · exact reduction isExisting (generated.candidate_of_action? _ _ _ entry)
    · exact reduction isIncoming incoming

/-- The sample made by hand, with its names listed: the conflict of its first state mentions a
reduction by an empty right-hand side. -/
theorem keepsToFollow_of_generate_samples :
    (∃ table, generate .fail Grammar.sums = .ok table ∧ table.KeepsToFollow) ∧
      ∃ table, generate .report Grammar.optional.rebuild = .ok table ∧ table.KeepsToFollow ∧
        table.conflicts = [⟨0, "a", .reduce 1, .shift 2⟩] ∧ table.FollowsLhs 1 "a" := by
  constructor
  · obtain ⟨table, generation⟩ := exists_generate_sums
    exact ⟨table, generation,
      (keepsToFollow_of_generate (.parsed Grammar.parse_sums) generation).2⟩
  · have computed : (generateWith .scan .report Grammar.optional.rebuild).toOption.bind
        (fun table => some table.conflicts) = some [⟨0, "a", .reduce 1, .shift 2⟩] := by
      decide +kernel
    obtain ⟨table, generation, conflicts⟩ := exists_generate_of_scan computed
    obtain ⟨-, keeps⟩ := keepsToFollow_of_generate (.built "eof" _) generation
    have listed : table.conflicts = [⟨0, "a", .reduce 1, .shift 2⟩] := Option.some.inj conflicts
    exact ⟨table, generation, keeps, listed,
      keeps.conflict _ (listed ▸ List.mem_singleton_self _) 1 (.inl rfl)⟩

end ParseTable

end CanonicalLR
