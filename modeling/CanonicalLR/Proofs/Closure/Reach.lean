import CanonicalLR.Proofs.Closure.Fact
import CanonicalLR.Proofs.Grammar.Readable
import Mathlib.Algebra.Order.BigOperators.Group.List
import Mathlib.Algebra.Order.Group.Nat
import Mathlib.Data.Finset.Option
import Mathlib.Data.Finset.Prod
import Mathlib.Logic.Relation

/-!
Contract: the closure of seeds as reachability between facts.

Owns:
- the facts that a fact calls for under the productions of a grammar;
- the invariant of expansion, one pending item at a time;
- that the limit on expansions is never reached;
- what the closure records, and when it fails.

Does not own: where seeds come from.
-/

namespace CanonicalLR

/-- The core of a production with the dot before the first symbol. -/
def Core.start (index : Nat) (production : Production) : Core :=
  ⟨index, production.lhs, production.rhs, 0⟩

namespace Closure

/-- What a fact calls for when a nonterminal stands behind the dot: the cores of
its productions, the terminals that the symbol after it starts with and, if no
symbol follows, the terminal of the fact itself. -/
inductive Calls (grammar : Grammar) (sets : Sets) : Fact → Fact → Prop where
  | core {core : Core} {name : String} {index : Nat} {production : Production}
      (next : core.next? = some (.nonterminal name))
      (found : (index, production) ∈ grammar.productionsFor name) :
      Calls grammar sets (core, none) (.start index production, none)
  | ahead {core : Core} {name : String} {index : Nat} {production : Production} {symbol : Symbol}
      {terminal : String} (next : core.next? = some (.nonterminal name))
      (found : (index, production) ∈ grammar.productionsFor name)
      (afterNext : core.afterNext? = some symbol) (member : terminal ∈ sets.firstOf symbol) :
      Calls grammar sets (core, none) (.start index production, some terminal)
  | inherited {core : Core} {name : String} {index : Nat} {production : Production}
      {terminal : String} (next : core.next? = some (.nonterminal name))
      (found : (index, production) ∈ grammar.productionsFor name)
      (atEnd : core.afterNext? = none) :
      Calls grammar sets (core, some terminal) (.start index production, some terminal)

/-- The facts that the seeds lead to. -/
def Reaches (grammar : Grammar) (sets : Sets) (seeds : List Item) (fact : Fact) : Prop :=
  ∃ seed ∈ seeds, ∃ origin, seed.Records origin ∧
    Relation.ReflTransGen (Calls grammar sets) origin fact

/-- The dot stands before a nonterminal without productions. -/
def Blocked (grammar : Grammar) (core : Core) (name : String) : Prop :=
  core.next? = some (.nonterminal name) ∧ grammar.productionsFor name = []

variable {grammar : Grammar} {sets : Sets} {seeds : List Item}

theorem Reaches.of_seed {seed : Item} {fact : Fact} (member : seed ∈ seeds)
    (records : seed.Records fact) : Reaches grammar sets seeds fact :=
  ⟨seed, member, fact, records, .refl⟩

theorem Reaches.calls {fact next : Fact} (reaches : Reaches grammar sets seeds fact)
    (calls : Calls grammar sets fact next) : Reaches grammar sets seeds next := by
  obtain ⟨seed, member, origin, records, path⟩ := reaches
  exact ⟨seed, member, origin, records, path.tail calls⟩

/-- What a fact calls for is the start of a production of the nonterminal behind the
dot, with terminals of FIRST of what follows or, where nothing follows, its own. -/
theorem Calls.exists_production {fact next : Fact} (calls : Calls grammar sets fact next) :
    ∃ name index production, fact.1.next? = some (.nonterminal name) ∧
      (index, production) ∈ grammar.productionsFor name ∧ next.1 = .start index production ∧
      ∀ terminal ∈ next.2,
        (∃ symbol, fact.1.afterNext? = some symbol ∧ terminal ∈ sets.firstOf symbol) ∨
          fact.1.afterNext? = none ∧ terminal ∈ fact.2 := by
  cases calls with
  | core next found => exact ⟨_, _, _, next, found, rfl, by simp⟩
  | ahead next found afterNext member =>
      refine ⟨_, _, _, next, found, rfl, fun terminal same => ?_⟩
      cases same
      exact .inl ⟨_, afterNext, member⟩
  | inherited next found atEnd =>
      exact ⟨_, _, _, next, found, rfl, fun terminal same => .inr ⟨atEnd, same⟩⟩

/-- What a fact leads to has the dot in front, unless it is the fact itself. -/
theorem eq_or_dot_eq_zero {fact later : Fact}
    (path : Relation.ReflTransGen (Calls grammar sets) fact later) :
    later = fact ∨ later.1.dot = 0 := by
  cases path with
  | refl => exact .inl rfl
  | tail _ calls =>
      obtain ⟨_, _, _, -, -, same, -⟩ := calls.exists_production
      exact .inr (congrArg Core.dot same)

/-! ### One item -/

theorem mem_inheritedLookahead {item : Item} {terminal : String} :
    terminal ∈ inheritedLookahead sets item ↔
      (∃ symbol, item.afterNext? = some symbol ∧ terminal ∈ sets.firstOf symbol) ∨
        item.afterNext? = none ∧ terminal ∈ item.lookahead := by
  unfold inheritedLookahead
  cases item.afterNext? with
  | none => simp
  | some symbol => simp

/-- The items that an item calls for record what its facts call for. -/
theorem derived_records {item : Item} {items : List Item}
    (derives : derived grammar sets item = .ok items) (next : Fact) :
    (∃ called ∈ items, called.Records next) ↔
      ∃ fact, item.Records fact ∧ Calls grammar sets fact next := by
  unfold derived at derives
  split at derives
  case h_1 name behindDot =>
    split at derives
    · contradiction
    case h_2 =>
      cases derives
      constructor
      · rintro ⟨called, inCalled, same, terminals⟩
        obtain ⟨⟨index, production⟩, found, rfl⟩ := List.mem_map.1 inCalled
        obtain ⟨core, terminal?⟩ := next
        simp only at same terminals
        subst same
        cases terminal? with
        | none => exact ⟨_, item.records_core, .core behindDot found⟩
        | some terminal =>
            rcases mem_inheritedLookahead.1 (terminals terminal rfl) with
              ⟨symbol, afterNext, member⟩ | ⟨atEnd, member⟩
            · exact ⟨_, item.records_core, .ahead behindDot found afterNext member⟩
            · exact ⟨_, Item.records_terminal member, .inherited behindDot found atEnd⟩
      · rintro ⟨fact, ⟨same, terminals⟩, calls⟩
        obtain ⟨other, index, production, next, found, sameCore, lookaheads⟩ :=
          calls.exists_production
        rw [← same] at next lookaheads
        cases next.symm.trans behindDot
        refine ⟨_, List.mem_map.2 ⟨_, found, rfl⟩, sameCore.symm, fun terminal member => ?_⟩
        apply mem_inheritedLookahead.2
        rcases lookaheads terminal member with ahead | ⟨atEnd, inherited⟩
        · exact .inl ahead
        · exact .inr ⟨atEnd, terminals terminal inherited⟩
  case h_2 noNonterminal =>
    cases derives
    constructor
    · simp
    · rintro ⟨fact, ⟨same, -⟩, calls⟩
      obtain ⟨name, _, _, next, -⟩ := calls.exists_production
      rw [← same] at next
      exact absurd next (noNonterminal name)

theorem derived_error {item : Item} {cause : GenerationError}
    (failed : derived grammar sets item = .error cause) :
    ∃ name, Blocked grammar item.toCore name ∧ cause = .undefinedNonterminal name item.lhs := by
  unfold derived at failed
  split at failed
  case h_1 name behindDot =>
    split at failed
    case h_1 nothing =>
      cases failed
      exact ⟨name, ⟨behindDot, nothing⟩, rfl⟩
    · contradiction
  · contradiction

theorem not_blocked_of_derived {item : Item} {items : List Item} {name : String}
    (derives : derived grammar sets item = .ok items) : ¬ Blocked grammar item.toCore name := by
  rintro ⟨next, nothing⟩
  have behindDot : item.next? = some (.nonterminal name) := next
  unfold derived at derives
  rw [behindDot] at derives
  simp only [nothing] at derives
  contradiction

/-! ### The expansion of pending items -/

/-- What is recorded comes from the seeds, and what it calls for is recorded too
unless the item that records it is still pending. -/
structure Expanding (grammar : Grammar) (sets : Sets) (seeds : List Item) (set : ItemSet)
    (pending : List Item) : Prop where
  seeded : ∀ seed ∈ seeds, ∀ fact, seed.Records fact → set.Records fact
  sound : ∀ fact, set.Records fact → Reaches grammar sets seeds fact
  pending_sound : ∀ item ∈ pending, ∀ fact, item.Records fact → Reaches grammar sets seeds fact
  settled : ∀ fact next, set.Records fact → Calls grammar sets fact next →
    set.Records next ∨ ∃ item ∈ pending, item.Records fact
  unblocked : ∀ core name, set.Records (core, none) → Blocked grammar core name →
    ∃ item ∈ pending, item.toCore = core

namespace Expanding

theorem initial : Expanding grammar sets seeds (mergeAll ∅ seeds).1 (mergeAll ∅ seeds).2 where
  seeded := fun seed member fact records => records_mergeAll.2 (.inr ⟨seed, member, records⟩)
  sound := by
    intro fact records
    rcases records_mergeAll.1 records with inEmpty | ⟨seed, member, ofSeed⟩
    · exact absurd inEmpty (ItemSet.not_records_empty fact)
    · exact .of_seed member ofSeed
  pending_sound := by
    intro item member fact records
    obtain ⟨seed, inSeeds, part⟩ := mem_mergeAll_added member
    exact .of_seed inSeeds (part fact records)
  settled := by
    intro fact next records _
    exact .inr ((mergeAll_covered records).resolve_left (ItemSet.not_records_empty fact))
  unblocked := by
    intro core name records _
    obtain ⟨item, member, ofItem⟩ :=
      (mergeAll_covered records).resolve_left (ItemSet.not_records_empty _)
    exact ⟨item, member, Item.records_none.1 ofItem⟩

/-- Expanding the first pending item settles its facts; whatever that adds
becomes pending. -/
theorem step {set : ItemSet} {item : Item} {pending items : List Item}
    (expanding : Expanding grammar sets seeds set (item :: pending))
    (derives : derived grammar sets item = .ok items) :
    Expanding grammar sets seeds (mergeAll set items).1 (pending ++ (mergeAll set items).2) := by
  have called : ∀ other ∈ items, ∀ fact, other.Records fact →
      Reaches grammar sets seeds fact := by
    intro other member fact records
    obtain ⟨origin, ofItem, calls⟩ := (derived_records derives fact).1 ⟨other, member, records⟩
    exact (expanding.pending_sound item List.mem_cons_self origin ofItem).calls calls
  refine ⟨?_, ?_, ?_, ?_, ?_⟩
  · intro seed member fact records
    exact records_mergeAll.2 (.inl (expanding.seeded seed member fact records))
  · intro fact records
    rcases records_mergeAll.1 records with before | ⟨other, member, ofItem⟩
    · exact expanding.sound fact before
    · exact called other member fact ofItem
  · intro other member fact records
    rcases List.mem_append.1 member with inPending | isNew
    · exact expanding.pending_sound other (List.mem_cons_of_mem item inPending) fact records
    · obtain ⟨source, inItems, part⟩ := mem_mergeAll_added isNew
      exact called source inItems fact (part fact records)
  · intro fact next records calls
    rcases mergeAll_covered records with before | ⟨added, isNew, ofAdded⟩
    · rcases expanding.settled fact next before calls with settled | ⟨waiting, member, ofWaiting⟩
      · exact .inl (records_mergeAll.2 (.inl settled))
      rcases List.mem_cons.1 member with rfl | inPending
      · have := (derived_records derives next).2 ⟨fact, ofWaiting, calls⟩
        exact .inl (records_mergeAll.2 (.inr this))
      · exact .inr ⟨waiting, List.mem_append_left _ inPending, ofWaiting⟩
    · exact .inr ⟨added, List.mem_append_right _ isNew, ofAdded⟩
  · intro core name records blocked
    rcases mergeAll_covered records with before | ⟨added, isNew, ofAdded⟩
    · obtain ⟨waiting, member, same⟩ := expanding.unblocked core name before blocked
      rcases List.mem_cons.1 member with rfl | inPending
      · subst same
        exact absurd blocked (not_blocked_of_derived derives)
      · exact ⟨waiting, List.mem_append_left _ inPending, same⟩
    · exact ⟨added, List.mem_append_right _ isNew, Item.records_none.1 ofAdded⟩

/-- With nothing pending, everything that the seeds lead to is recorded. -/
theorem records_iff {set : ItemSet} (expanded : Expanding grammar sets seeds set [])
    (fact : Fact) : set.Records fact ↔ Reaches grammar sets seeds fact := by
  constructor
  · exact expanded.sound fact
  · rintro ⟨seed, member, origin, records, path⟩
    induction path with
    | refl => exact expanded.seeded seed member origin records
    | tail _ calls inductionHypothesis =>
        exact (expanded.settled _ _ inductionHypothesis calls).resolve_right (by simp)

end Expanding

/-- Pending items are expanded until there are none, or until one of them fails: what
expansion comes to when nothing limits it, after that many items. -/
inductive Drains (grammar : Grammar) (sets : Sets) :
    ItemSet → List Item → Nat → Except GenerationError ItemSet → Prop where
  | finished (set : ItemSet) : Drains grammar sets set [] 0 (.ok set)
  | failed {set : ItemSet} {item : Item} {pending : List Item} {cause : GenerationError}
      (derives : derived grammar sets item = .error cause) :
      Drains grammar sets set (item :: pending) 1 (.error cause)
  | expanded {set : ItemSet} {item : Item} {pending items : List Item} {count : Nat}
      {outcome : Except GenerationError ItemSet} (derives : derived grammar sets item = .ok items)
      (rest : Drains grammar sets (mergeAll set items).1 (pending ++ (mergeAll set items).2)
        count outcome) :
      Drains grammar sets set (item :: pending) (count + 1) outcome

/-- The limit is not reached if it allows for the pending items and for each fact that is
not yet recorded: an item that is listed as new records such a fact. -/
theorem exists_drains {possible : Finset Fact} {limit : Nat} {set : ItemSet} {pending : List Item}
    (inPossible : ∀ fact next, Reaches grammar sets seeds fact → Calls grammar sets fact next →
      next ∈ possible)
    (enough : pending.length + possible.card ≤ limit + (population possible set).card)
    (expanding : Expanding grammar sets seeds set pending) :
    ∃ count ≤ limit,
      Drains grammar sets set pending count (expand grammar sets limit set pending) := by
  induction limit generalizing set pending with
  | zero =>
      cases pending with
      | nil => exact ⟨0, Nat.le_refl 0, .finished set⟩
      | cons item rest =>
          have := Finset.card_le_card (population_subset possible set)
          rw [List.length_cons] at enough
          omega
  | succ limit inductionHypothesis =>
      cases pending with
      | nil => exact ⟨0, Nat.zero_le _, .finished set⟩
      | cons item rest =>
          rw [expand]
          cases derives : derived grammar sets item with
          | error cause => exact ⟨1, by omega, .failed derives⟩
          | ok items =>
              have more : (population possible set).card + (mergeAll set items).2.length ≤
                  (population possible (mergeAll set items).1).card := by
                apply population_mergeAll
                intro other member fact records
                obtain ⟨origin, ofItem, calls⟩ :=
                  (derived_records derives fact).1 ⟨other, member, records⟩
                exact inPossible origin fact
                  (expanding.pending_sound item List.mem_cons_self origin ofItem) calls
              have enoughLater : (rest ++ (mergeAll set items).2).length + possible.card ≤
                  limit + (population possible (mergeAll set items).1).card := by
                rw [List.length_cons] at enough
                rw [List.length_append]
                omega
              obtain ⟨count, atMost, drains⟩ :=
                inductionHypothesis enoughLater (expanding.step derives)
              exact ⟨count + 1, by omega, .expanded derives drains⟩

/-- Expansion without a limit settles everything or meets a blocked core. -/
theorem Drains.spec {set : ItemSet} {pending : List Item} {count : Nat}
    {outcome : Except GenerationError ItemSet}
    (drains : Drains grammar sets set pending count outcome)
    (expanding : Expanding grammar sets seeds set pending) :
    (∃ final, outcome = .ok final ∧ Expanding grammar sets seeds final []) ∨
      ∃ core name, Reaches grammar sets seeds (core, none) ∧ Blocked grammar core name ∧
        outcome = .error (.undefinedNonterminal name core.lhs) := by
  induction drains with
  | finished set => exact .inl ⟨set, rfl, expanding⟩
  | @failed set item pending cause derives =>
      obtain ⟨name, blocked, rfl⟩ := derived_error derives
      have reaches := expanding.pending_sound item List.mem_cons_self _ item.records_core
      exact .inr ⟨item.toCore, name, reaches, blocked, rfl⟩
  | expanded derives _ inductionHypothesis => exact inductionHypothesis (expanding.step derives)

/-! ### The limit -/

/-- The terminals that can reach a lookahead: those of the seeds, of the FIRST
sets and of the right-hand sides. -/
def sources (grammar : Grammar) (sets : Sets) (seeds : List Item) : List String :=
  (seeds.flatMap fun seed => seed.lookahead.names ++ seed.rhs.filterMap Symbol.terminal?) ++
    ((sets.first.entries.flatMap fun (_, first) => first.names) ++
      grammar.productions.flatMap fun production => production.rhs.filterMap Symbol.terminal?)

theorem length_sources (grammar : Grammar) (sets : Sets) (seeds : List Item) :
    (sources grammar sets seeds).length ≤
      (seeds.map fun seed => seed.lookahead.size + seed.rhs.length).foldr (· + ·) 0 +
        terminalLimit grammar sets := by
  show _ ≤ (seeds.map fun seed => seed.lookahead.size + seed.rhs.length).sum + _
  unfold sources terminalLimit Grammar.rhsLengths
  rw [List.length_append, List.length_append, List.length_flatMap, List.length_flatMap,
    List.length_flatMap]
  apply Nat.add_le_add
  · apply List.sum_le_sum
    intro seed _
    rw [List.length_append]
    exact Nat.add_le_add_left (List.length_filterMap_le _ _) _
  · apply Nat.add_le_add_left
    apply List.sum_le_sum
    intro production _
    exact List.length_filterMap_le _ _

private theorem mem_filterMap_terminal {symbols : List Symbol} {terminal : String}
    (member : .terminal terminal ∈ symbols) :
    terminal ∈ symbols.filterMap Symbol.terminal? :=
  List.mem_filterMap.2 ⟨_, member, rfl⟩

private theorem mem_sources_of_firstOf {core : Core} {symbol : Symbol} {terminal : String}
    (known : (∃ seed ∈ seeds, seed.toCore = core) ∨
      ∃ index production, grammar.productions[index]? = some production ∧
        core = .start index production)
    (afterNext : core.afterNext? = some symbol) (member : terminal ∈ sets.firstOf symbol) :
    terminal ∈ sources grammar sets seeds := by
  unfold sources
  rw [List.mem_append, List.mem_append]
  cases symbol with
  | terminal name =>
      rw [Sets.firstOf, firstOf, NameSet.mem_singleton] at member
      subst member
      have inRhs : .terminal terminal ∈ core.rhs := List.mem_of_getElem? afterNext
      rcases known with ⟨seed, inSeeds, rfl⟩ | ⟨index, production, found, rfl⟩
      · refine .inl (List.mem_flatMap.2 ⟨seed, inSeeds, ?_⟩)
        exact List.mem_append_right _ (mem_filterMap_terminal inRhs)
      · exact .inr (.inr (List.mem_flatMap.2
          ⟨production, List.mem_of_getElem? found, mem_filterMap_terminal inRhs⟩))
  | nonterminal name =>
      rw [Sets.firstOf, firstOf, NameMap.setOf] at member
      cases entry : sets.first.get? name with
      | none =>
          rw [entry] at member
          exact absurd member (NameSet.not_mem_empty terminal)
      | some first =>
          rw [entry] at member
          exact .inr (.inl (List.mem_flatMap.2
            ⟨(name, first), NameMap.get?_eq_some_iff.1 entry, member⟩))

/-- Facts are about the seeds' cores and the productions' ones, and their
terminals come from known sources. -/
theorem Reaches.known {fact : Fact} (reaches : Reaches grammar sets seeds fact) :
    ((∃ seed ∈ seeds, seed.toCore = fact.1) ∨
        ∃ index production, grammar.productions[index]? = some production ∧
          fact.1 = .start index production) ∧
      ∀ terminal ∈ fact.2, terminal ∈ sources grammar sets seeds := by
  obtain ⟨seed, inSeeds, origin, ⟨same, terminals⟩, path⟩ := reaches
  induction path with
  | refl =>
      refine ⟨.inl ⟨seed, inSeeds, same⟩, fun terminal member => ?_⟩
      refine List.mem_append_left _ (List.mem_flatMap.2 ⟨seed, inSeeds, ?_⟩)
      exact List.mem_append_left _ (terminals terminal member)
  | tail _ calls inductionHypothesis =>
      obtain ⟨knownCore, knownTerminals⟩ := inductionHypothesis
      obtain ⟨_, index, production, -, found, sameCore, lookaheads⟩ := calls.exists_production
      refine ⟨.inr ⟨index, production, (Grammar.mem_productionsFor.1 found).1, sameCore⟩,
        fun terminal member => ?_⟩
      rcases lookaheads terminal member with ⟨symbol, afterNext, inFirst⟩ | ⟨-, inherited⟩
      · exact mem_sources_of_firstOf knownCore afterNext inFirst
      · exact knownTerminals terminal inherited

/-- The facts that expansion can add. -/
def callable (grammar : Grammar) (sets : Sets) (seeds : List Item) : Finset Fact :=
  (grammar.productions.zipIdx.map fun (production, index) =>
      Core.start index production).toFinset ×ˢ
    Finset.insertNone (sources grammar sets seeds).toFinset

theorem card_callable (grammar : Grammar) (sets : Sets) (seeds : List Item) :
    seeds.length + (callable grammar sets seeds).card ≤
      limit grammar (terminalLimit grammar sets) seeds := by
  have cores := List.toFinset_card_le
    (grammar.productions.zipIdx.map fun (production, index) => Core.start index production)
  have terminals := List.toFinset_card_le (sources grammar sets seeds)
  have bounded := length_sources grammar sets seeds
  rw [List.length_map, List.length_zipIdx] at cores
  unfold callable limit
  simp only
  rw [Finset.card_product, Finset.card_insertNone]
  exact Nat.add_le_add_left (Nat.mul_le_mul cores (by omega)) _

theorem mem_callable {fact next : Fact} (reaches : Reaches grammar sets seeds fact)
    (calls : Calls grammar sets fact next) : next ∈ callable grammar sets seeds := by
  obtain ⟨_, index, production, -, found, same, -⟩ := calls.exists_production
  apply Finset.mem_product.2
  constructor
  · apply List.mem_toFinset.2
    exact List.mem_map.2 ⟨(production, index),
      List.mem_zipIdx_iff_getElem?.2 (Grammar.mem_productionsFor.1 found).1, same.symm⟩
  · apply Finset.mem_insertNone.2
    intro terminal member
    exact List.mem_toFinset.2 ((reaches.calls calls).known.2 terminal member)

end Closure

/-! ### The closure of seeds -/

open Closure

variable {grammar : Grammar} {sets : Sets} {seeds : List Item}

/-- The closure is what expansion without a limit makes of the seeds. -/
theorem exists_drains_close (grammar : Grammar) (sets : Sets) (seeds : List Item) :
    ∃ count, Drains grammar sets (mergeAll ∅ seeds).1 (mergeAll ∅ seeds).2 count
      (close grammar sets seeds) := by
  have enough : (mergeAll ∅ seeds).2.length + (callable grammar sets seeds).card ≤
      limit grammar (terminalLimit grammar sets) seeds +
        (population (callable grammar sets seeds) (mergeAll ∅ seeds).1).card := by
    have added := length_mergeAll_added ∅ seeds
    have bound := card_callable grammar sets seeds
    omega
  obtain ⟨count, -, drains⟩ := exists_drains (fun _ _ => mem_callable) enough Expanding.initial
  exact ⟨count, drains⟩

/-- Either nothing that the seeds lead to is blocked, and the closure records all
of it, or the closure fails at a blocked core. -/
theorem close_spec (grammar : Grammar) (sets : Sets) (seeds : List Item) :
    (∃ set, close grammar sets seeds = .ok set ∧
        (∀ fact, set.Records fact ↔ Reaches grammar sets seeds fact) ∧
        ∀ core name, Reaches grammar sets seeds (core, none) → ¬ Blocked grammar core name) ∨
      ∃ core name, Reaches grammar sets seeds (core, none) ∧ Blocked grammar core name ∧
        close grammar sets seeds = .error (.undefinedNonterminal name core.lhs) := by
  obtain ⟨count, drains⟩ := exists_drains_close grammar sets seeds
  rcases drains.spec Expanding.initial with ⟨set, expanded, expanding⟩ | failed
  · refine .inl ⟨set, expanded, expanding.records_iff, fun core name reaches blocked => ?_⟩
    obtain ⟨item, member, -⟩ :=
      expanding.unblocked core name ((expanding.records_iff _).2 reaches) blocked
    exact List.not_mem_nil member
  · exact .inr failed

/-- The closure is the one set that records what the seeds lead to, provided that nothing of
it is blocked. -/
theorem close_eq_ok_iff {set : ItemSet} :
    close grammar sets seeds = .ok set ↔
      (∀ core name, Reaches grammar sets seeds (core, none) → ¬ Blocked grammar core name) ∧
        ∀ fact, set.Records fact ↔ Reaches grammar sets seeds fact := by
  rcases close_spec grammar sets seeds with
    ⟨other, closed, records, unblocked⟩ | ⟨core, name, reaches, blocked, failed⟩
  · rw [closed]
    constructor
    · intro same
      cases same
      exact ⟨unblocked, records⟩
    · rintro ⟨-, sameFacts⟩
      exact congrArg Except.ok
        (ItemSet.ext_records fun fact => (records fact).trans (sameFacts fact).symm)
  · rw [failed]
    exact ⟨fun same => by contradiction,
      fun ⟨unblocked, _⟩ => absurd blocked (unblocked _ _ reaches)⟩

theorem records_close {set : ItemSet} (closed : close grammar sets seeds = .ok set)
    (fact : Fact) : set.Records fact ↔ Reaches grammar sets seeds fact :=
  (close_eq_ok_iff.1 closed).2 fact

theorem exists_close
    (unblocked : ∀ core name, Reaches grammar sets seeds (core, none) →
      ¬ Blocked grammar core name) :
    ∃ set, close grammar sets seeds = .ok set := by
  rcases close_spec grammar sets seeds with ⟨set, closed, -⟩ | ⟨core, name, reaches, blocked, _⟩
  · exact ⟨set, closed⟩
  · exact absurd blocked (unblocked core name reaches)

end CanonicalLR
