import CanonicalLR.Proofs.Closure.Embedding
import CanonicalLR.Proofs.Grammar.Defect
import CanonicalLR.Proofs.Table.Termination

/-!
Contract: productions that the start production never reaches.

Owns:
- which nonterminals the start production reaches;
- that a run only depends on how the seeds that come up in it close;
- that further productions of other nonterminals change neither the states of a table nor
  its entries and conflicts, although they may change FOLLOW sets and the lists of names.

Does not own: the checks, which look at all productions.
-/

namespace CanonicalLR

namespace Grammar

/-- The nonterminal occurs on the right-hand side of the start production, or on that of a
production of a reachable nonterminal. -/
inductive Reachable (grammar : Grammar) : String → Prop where
  | start {index : Nat} {production : Production} {name : String}
      (started : grammar.startProduction? = some (index, production))
      (occurs : .nonterminal name ∈ production.rhs) : Reachable grammar name
  | step {production : Production} {name : String} (reachable : Reachable grammar production.lhs)
      (member : production ∈ grammar.productions) (occurs : .nonterminal name ∈ production.rhs) :
      Reachable grammar name

/-- Nothing but a conflict keeps the grammar from having a table. -/
def PassesChecks (grammar : Grammar) : Prop :=
  grammar.Marked ∧ grammar.Defined ∧ grammar.DistinctRightHandSides

theorem passesChecks_of_isOk {grammar : Grammar} (checked : grammar.checkedStart.isOk = true) :
    grammar.PassesChecks := by
  cases passed : grammar.checkedStart with
  | error cause =>
      rw [passed] at checked
      contradiction
  | ok start => exact exists_checkedStart_iff.1 ⟨start, passed⟩

/-- In the sample with sums, only sums are reachable. -/
theorem eq_of_reachable_sums {name : String} (reachable : sums.Reachable name) : name = "E" := by
  induction reachable with
  | start started occurs =>
      cases started.symm.trans startProduction?_sums
      simpa using occurs
  | step _ member occurs _ =>
      have onlySums : ∀ production ∈ sums.productions, ∀ symbol ∈ production.rhs,
          ∀ name ∈ symbol.nonterminal?, name = "E" := by
        decide
      exact onlySums _ member _ occurs _ rfl

/-- A production beside those of sums, with a terminal behind a sum. -/
def unused : List Production :=
  [⟨"X", [.nonterminal "E", .terminal "b"], false⟩]

variable {endMarker : String} {productions extras : List Production}

/-- Productions that are appended to others come without the start mark. -/
theorem productions_append (someProduction : productions ≠ []) :
    (ofProductions endMarker (productions ++ extras)).productions =
      (ofProductions endMarker productions).productions ++
        extras.map fun production => { production with isStart := false } := by
  obtain ⟨first, others, rfl⟩ := List.exists_cons_of_ne_nil someProduction
  simp [ofProductions, markStart]

theorem startProduction?_append {start : Nat × Production} (someProduction : productions ≠ [])
    (started : (ofProductions endMarker productions).startProduction? = some start) :
    (ofProductions endMarker (productions ++ extras)).startProduction? = some start := by
  obtain ⟨entry, found, same⟩ := Option.map_eq_some_iff.1 started
  rw [startProduction?, productions_append someProduction, List.zipIdx_append, List.find?_append,
    found, Option.some_or, Option.map_some, same]

/-- The productions of the reachable nonterminals stay as they are when productions of other
nonterminals are appended. -/
theorem embeds_append (someProduction : productions ≠ [])
    (dead : ∀ extra ∈ extras, ¬ (ofProductions endMarker productions).Reachable extra.lhs) :
    Embeds .keep (ofProductions endMarker productions).Reachable
      (ofProductions endMarker productions) (ofProductions endMarker (productions ++ extras)) where
  mem_productionsFor := by
    intro name reachable index other
    show (index, other) ∈ productionsFor _ name ↔ _
    simp only [mem_productionsFor, productions_append someProduction, Renaming.keep_production,
      exists_eq_right]
    constructor
    · rintro ⟨found, rfl⟩
      rw [List.getElem?_append] at found
      split at found
      case isTrue => exact ⟨found, rfl⟩
      case isFalse =>
        obtain ⟨extra, inExtras, unmarked⟩ := List.mem_map.1 (List.mem_of_getElem? found)
        rw [← unmarked] at reachable
        exact absurd reachable (dead extra inExtras)
    · rintro ⟨found, sameLhs⟩
      have inRange := (List.getElem?_eq_some_iff.1 found).1
      exact ⟨by rw [List.getElem?_append_left inRange, found], sameLhs⟩
  live_rhs := fun _ member reachable _ occurs => .step reachable member occurs

end Grammar

/-! ### Runs with closures that agree -/

namespace Construction

variable {lookup : StateLookup} {policy : ConflictPolicy} {closure other : Closing}
  {kernel : Item} {items : ItemSet} {construction : Construction}

theorem follow_congr {transitions : List Transition}
    (agrees : ∀ transition ∈ transitions, other transition.seeds = closure transition.seeds)
    (construction : Construction) :
    construction.follow lookup other transitions =
      construction.follow lookup closure transitions := by
  induction transitions generalizing construction with
  | nil => rfl
  | cons transition rest inductionHypothesis =>
      have agreesOnRest := fun later inRest => agrees later (List.mem_cons_of_mem transition inRest)
      simp only [follow, agrees transition List.mem_cons_self, inductionHypothesis agreesOnRest]

theorem complete_congr {state : State}
    (agrees : ∀ transition ∈ state.items.transitions,
      other transition.seeds = closure transition.seeds) :
    construction.complete lookup policy other state =
      construction.complete lookup policy closure state := by
  unfold complete
  rw [follow_congr agrees]

/-- It is enough that the closures agree on the seeds that come up. -/
theorem run_congr (holds : Item → ItemSet → Prop) {completions : List Completion} (limit : Nat)
    (coherent : Coherent lookup policy closure kernel items construction completions)
    (initially : holds kernel items)
    (passes : ∀ (sourceKernel : Item) (source target : ItemSet) (transition : Transition),
      holds sourceKernel source → transition ∈ source.transitions →
        closure transition.seeds = .ok target → holds transition.kernel target)
    (agrees : ∀ (sourceKernel : Item) (source : ItemSet), holds sourceKernel source →
      ∀ transition ∈ source.transitions, other transition.seeds = closure transition.seeds) :
    run lookup policy other limit construction = run lookup policy closure limit construction := by
  induction limit generalizing construction completions with
  | zero => rfl
  | succ limit inductionHypothesis =>
      cases waits : construction.states[construction.rows.size]? with
      | none => rw [run_of_noneWaits waits, run_of_noneWaits waits]
      | some state =>
          have holdsHere := coherent.states_induction initially passes waits
          rw [run_succ_of_waits waits, run_succ_of_waits waits,
            complete_congr (agrees _ _ holdsHere)]
          cases completed : construction.complete lookup policy closure state with
          | error cause => rfl
          | ok extended =>
              obtain ⟨_, extendedCoherent, -⟩ := coherent.complete waits completed
              exact inductionHypothesis extendedCoherent

end Construction

/-! ### Tables -/

/-- Seeds over live symbols close alike in a grammar that has the same productions for
these. -/
theorem Embeds.close_eq {live : String → Prop} {source target : Grammar}
    (embeds : Embeds .keep live source target) {seeds : List Item} {set : ItemSet}
    (isLive : ∀ seed ∈ seeds, AllLive live seed.rhs)
    (closed : close source (Sets.ofGrammar source) seeds = .ok set) :
    close target (Sets.ofGrammar target) seeds = .ok set := by
  obtain ⟨other, closedToo, sameFacts⟩ := embeds.exists_close isLive closed
  have sameSet : other = set := ItemSet.ext_records fun fact => by simp [sameFacts]
  rwa [Renaming.keep_items, sameSet] at closedToo

/-- The items are over the grammar, and the nonterminals of their productions are live. -/
structure ItemSet.LiveOver (live : String → Prop) (grammar : Grammar) (set : ItemSet) : Prop where
  fits : set.Fits grammar
  live : ∀ item ∈ set, AllLive live item.rhs

theorem Embeds.liveOver_of_close {live : String → Prop} {source target : Grammar}
    (embeds : Embeds .keep live source target) {seeds : List Item} {set : ItemSet}
    (seedsFit : ∀ seed ∈ seeds, seed.Fits source)
    (isLive : ∀ seed ∈ seeds, AllLive live seed.rhs)
    (closed : close source (Sets.ofGrammar source) seeds = .ok set) : set.LiveOver live source where
  fits := fits_of_close closed seedsFit
  live := embeds.items_live isLive closed

theorem ItemSet.LiveOver.seeds {live : String → Prop} {grammar : Grammar} {set : ItemSet}
    {transition : Transition} (liveOver : set.LiveOver live grammar)
    (member : transition ∈ set.transitions) :
    ∀ seed ∈ transition.seeds, AllLive live seed.rhs := by
  intro seed inSeeds
  rw [(transition?_eq_some (mem_transitions.1 member)).2] at inSeeds
  obtain ⟨item, inSet, -, rfl⟩ := mem_advancedOver.1 inSeeds
  exact liveOver.live item inSet

namespace ParseTable

open Construction

/-- The same automaton, said to be that of another grammar. -/
def withGrammar (table : ParseTable) (grammar : Grammar) : ParseTable :=
  { table with
    grammar := grammar
    sets := Sets.ofGrammar grammar }

variable {source target : Grammar} {live : String → Prop}

/-- A grammar that keeps all that the start production leads to keeps the automaton. -/
private theorem draft_of_embeds (lookup : StateLookup) (policy : ConflictPolicy) (limit : Nat)
    (embeds : Embeds .keep live source target) (sameMarker : target.endMarker = source.endMarker)
    {index : Nat} {production : Production} (isLive : AllLive live production.rhs)
    (checked : source.checkedStart = .ok (index, production))
    (checkedToo : target.checkedStart = .ok (index, production)) :
    draft lookup policy limit target =
      (draft lookup policy limit source).map fun table => table.withGrammar target := by
  obtain ⟨started, defined, -⟩ := Grammar.checkedStart_eq_ok.1 checked
  obtain ⟨first, begun⟩ := exists_initial lookup started defined
  obtain ⟨items, closed, coherent⟩ := Coherent.of_initial policy begun
  have seedLive : ∀ seed ∈ [Item.start index production {source.endMarker}],
      AllLive live seed.rhs := by
    intro seed member
    rw [List.mem_singleton.1 member]
    exact isLive
  have begunToo : initial lookup (close target (Sets.ofGrammar target))
      (.start index production {target.endMarker}) = .ok first := by
    rw [sameMarker, initial, embeds.close_eq seedLive closed, ← closed]
    exact begun
  have sameRun : run lookup policy (close target (Sets.ofGrammar target)) limit first =
      run lookup policy (close source (Sets.ofGrammar source)) limit first := by
    refine run_congr (fun _ set => set.LiveOver live source) limit coherent ?_ ?_ ?_
    · exact embeds.liveOver_of_close (startSeeds_fit started) seedLive closed
    · intro _ set next transition liveOver member closedNext
      exact embeds.liveOver_of_close (liveOver.fits.seeds member) (liveOver.seeds member) closedNext
    · intro _ set liveOver transition member
      obtain ⟨next, closedNext⟩ := closes_of_fits defined (liveOver.fits.seeds member)
      rw [closedNext, embeds.close_eq (liveOver.seeds member) closedNext]
  rw [draft_eq, draft_eq, checked, checkedToo]
  simp only [bind, Except.bind, begun, begunToo, sameRun]
  cases run lookup policy (close source (Sets.ofGrammar source)) limit first <;> rfl

/-- Productions that the start production does not reach, appended to the others, change
nothing in the outcome but the grammar and its sets: not the conflict that the policy `fail`
gives up at, and not a single state or entry. -/
theorem generate_append_dead (policy : ConflictPolicy) (endMarker : String)
    (productions extras : List Production)
    (passes : (Grammar.ofProductions endMarker productions).PassesChecks)
    (passesToo : (Grammar.ofProductions endMarker (productions ++ extras)).PassesChecks)
    (dead : ∀ extra ∈ extras,
      ¬ (Grammar.ofProductions endMarker productions).Reachable extra.lhs) :
    generate policy (Grammar.ofProductions endMarker (productions ++ extras)) =
      (generate policy (Grammar.ofProductions endMarker productions)).map fun table =>
        table.withGrammar (Grammar.ofProductions endMarker (productions ++ extras)) := by
  have someProduction : productions ≠ [] := by
    rintro rfl
    obtain ⟨production, member, -⟩ := passes.1
    exact List.not_mem_nil member
  have embeds := Grammar.embeds_append someProduction dead
  obtain ⟨⟨index, production⟩, checked⟩ := Grammar.exists_checkedStart_iff.2 passes
  obtain ⟨other, checkedToo⟩ := Grammar.exists_checkedStart_iff.2 passesToo
  have started := (Grammar.checkedStart_eq_ok.1 checked).1
  have startedToo := (Grammar.checkedStart_eq_ok.1 checkedToo).1
  cases startedToo.symm.trans (Grammar.startProduction?_append someProduction started)
  have isLive : AllLive (Grammar.ofProductions endMarker productions).Reachable production.rhs :=
    fun _ occurs => .start started occurs
  -- The limits differ, so both constructions are given the sum of the two.
  rw [generate, generate, ← draft_limit_add _ _ (Grammar.ofProductions endMarker productions),
    ← draft_limit_add _ _ (Grammar.ofProductions endMarker (productions ++ extras)), Nat.add_comm]
  exact draft_of_embeds _ policy _ embeds rfl isLive checked checkedToo

/-- Sums keep their table beside a production that nothing reaches, although a further
terminal may then follow a sum. -/
theorem generate_append_dead_sums :
    ∃ table, generate .fail Grammar.sums = .ok table ∧
      generate .fail (Grammar.ofProductions "eof" (Grammar.sums.productions ++ Grammar.unused)) =
        .ok (table.withGrammar
          (Grammar.ofProductions "eof" (Grammar.sums.productions ++ Grammar.unused))) := by
  obtain ⟨table, generation⟩ := exists_generate_sums
  have same : Grammar.ofProductions "eof" Grammar.sums.productions = Grammar.sums := by decide
  have dead : ∀ extra ∈ Grammar.unused,
      ¬ (Grammar.ofProductions "eof" Grammar.sums.productions).Reachable extra.lhs := by
    intro extra member reachable
    rw [List.mem_singleton.1 member, same] at reachable
    exact absurd (Grammar.eq_of_reachable_sums reachable) (by decide)
  refine ⟨table, generation, ?_⟩
  rw [generate_append_dead .fail "eof" Grammar.sums.productions Grammar.unused
    (Grammar.passesChecks_of_isOk (by decide)) (Grammar.passesChecks_of_isOk (by decide)) dead,
    same, generation]
  rfl

end ParseTable

end CanonicalLR
