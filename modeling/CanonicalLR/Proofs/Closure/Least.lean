import CanonicalLR.Proofs.Closure.Reach

/-!
Contract: the closure of seeds as the least closed item set.

Owns:
- the cores that seeds lead to, whatever the lookaheads are;
- the families of lookaheads that the seeds and the productions admit;
- that expansion ends, that it fails exactly if a core without productions is met, and that
  its result holds these cores with the least lookaheads.

Does not own: closures of several lists of seeds side by side.

The seeds are any items. Their dots may stand anywhere, their sides need not be those of a
production of the grammar, and their lookaheads may be empty.
-/

namespace CanonicalLR

namespace Closure

/-- The dot of `core` stands before a nonterminal, and `next` is one of its productions with
the dot in front. -/
def CallsCore (grammar : Grammar) (core next : Core) : Prop :=
  ∃ name index production, core.next? = some (.nonterminal name) ∧
    (index, production) ∈ grammar.productionsFor name ∧ next = .start index production

/-- The cores of the seeds and whatever these call for, one after the other. -/
def ReachesCore (grammar : Grammar) (seeds : List Item) (core : Core) : Prop :=
  ∃ seed ∈ seeds, Relation.ReflTransGen (CallsCore grammar) seed.toCore core

/-- Lookaheads of cores that hold what the seeds bring, and in the cores that a core calls for
what the symbol after the nonterminal starts with or, if no symbol follows, what the core
itself holds. -/
structure Admits (grammar : Grammar) (sets : Sets) (seeds : List Item)
    (lookahead : Core → NameSet) : Prop where
  seeded : ∀ seed ∈ seeds, ∀ terminal ∈ seed.lookahead, terminal ∈ lookahead seed.toCore
  ahead : ∀ core next symbol, ReachesCore grammar seeds core → CallsCore grammar core next →
    core.afterNext? = some symbol →
      ∀ terminal ∈ sets.firstOf symbol, terminal ∈ lookahead next
  inherited : ∀ core next, ReachesCore grammar seeds core → CallsCore grammar core next →
    core.afterNext? = none → ∀ terminal ∈ lookahead core, terminal ∈ lookahead next

/-- Each core that the seeds lead to occurs once, no other core occurs, and the lookaheads are
the least ones that are admitted. -/
structure LeastClosed (grammar : Grammar) (sets : Sets) (seeds : List Item) (set : ItemSet) :
    Prop where
  distinct : (set.items.map Item.toCore).Nodup
  mem_iff : ∀ core, (∃ item ∈ set, item.toCore = core) ↔ ReachesCore grammar seeds core
  admits : Admits grammar sets seeds set.lookaheadOf
  least : ∀ lookahead, Admits grammar sets seeds lookahead →
    ∀ item ∈ set, ∀ terminal ∈ item.lookahead, terminal ∈ lookahead item.toCore

variable {grammar : Grammar} {sets : Sets} {seeds : List Item}

theorem Calls.callsCore {fact next : Fact} (calls : Calls grammar sets fact next) :
    CallsCore grammar fact.1 next.1 := by
  obtain ⟨name, index, production, behindDot, found, same, -⟩ := calls.exists_production
  exact ⟨name, index, production, behindDot, found, same⟩

theorem Reaches.reachesCore {fact : Fact} (reaches : Reaches grammar sets seeds fact) :
    ReachesCore grammar seeds fact.1 := by
  obtain ⟨seed, member, origin, ⟨same, -⟩, path⟩ := reaches
  refine ⟨seed, member, ?_⟩
  rw [same]
  induction path with
  | refl => exact .refl
  | tail _ calls inductionHypothesis => exact inductionHypothesis.tail calls.callsCore

/-- Which cores are reached does not depend on terminals. -/
theorem reaches_core_iff {core : Core} :
    Reaches grammar sets seeds (core, none) ↔ ReachesCore grammar seeds core := by
  constructor
  · exact Reaches.reachesCore
  · rintro ⟨seed, member, path⟩
    induction path with
    | refl => exact .of_seed member seed.records_core
    | tail _ calls inductionHypothesis =>
        obtain ⟨name, index, production, behindDot, found, rfl⟩ := calls
        exact inductionHypothesis.calls (.core behindDot found)

/-- Admitted lookaheads hold every terminal that the seeds lead to. -/
theorem Admits.mem {lookahead : Core → NameSet}
    (admits : Admits grammar sets seeds lookahead) {fact : Fact}
    (reaches : Reaches grammar sets seeds fact) :
    ∀ terminal ∈ fact.2, terminal ∈ lookahead fact.1 := by
  obtain ⟨seed, member, origin, ⟨same, terminals⟩, path⟩ := reaches
  induction path with
  | refl => exact fun terminal ofSeed => same ▸ admits.seeded seed member _ (terminals _ ofSeed)
  | @tail fact next path calls inductionHypothesis =>
      have known : ReachesCore grammar seeds fact.1 :=
        Reaches.reachesCore ⟨seed, member, origin, ⟨same, terminals⟩, path⟩
      obtain ⟨_, _, _, -, -, -, lookaheads⟩ := calls.exists_production
      intro terminal called
      rcases lookaheads terminal called with ⟨symbol, afterNext, inFirst⟩ | ⟨atEnd, ofFact⟩
      · exact admits.ahead _ _ symbol known calls.callsCore afterNext terminal inFirst
      · exact admits.inherited _ _ known calls.callsCore atEnd terminal
          (inductionHypothesis terminal ofFact)

theorem admits_of_records {set : ItemSet}
    (records : ∀ fact, set.Records fact ↔ Reaches grammar sets seeds fact) :
    Admits grammar sets seeds set.lookaheadOf where
  seeded seed member terminal ofSeed := by
    rw [ItemSet.mem_lookaheadOf, records]
    exact .of_seed member (Item.records_terminal ofSeed)
  ahead core next symbol known calls afterNext terminal inFirst := by
    obtain ⟨name, index, production, behindDot, found, rfl⟩ := calls
    rw [ItemSet.mem_lookaheadOf, records]
    exact (reaches_core_iff.2 known).calls (.ahead behindDot found afterNext inFirst)
  inherited core next _ calls atEnd terminal ofCore := by
    obtain ⟨name, index, production, behindDot, found, rfl⟩ := calls
    rw [ItemSet.mem_lookaheadOf, records] at ofCore ⊢
    exact ofCore.calls (.inherited behindDot found atEnd)

theorem leastClosed_of_close {set : ItemSet} (closed : close grammar sets seeds = .ok set) :
    LeastClosed grammar sets seeds set where
  distinct := set.cores_nodup
  mem_iff core := by
    calc (∃ item ∈ set, item.toCore = core)
        ↔ set.Records (core, none) :=
          exists_congr fun item => and_congr_right fun _ => Item.records_none.symm
      _ ↔ ReachesCore grammar seeds core := (records_close closed _).trans reaches_core_iff
  admits := admits_of_records (records_close closed)
  least lookahead admits item member terminal ofItem :=
    admits.mem ((records_close closed _).1 ⟨item, member, Item.records_terminal ofItem⟩) terminal
      rfl

end Closure

open Closure

/-- Expansion without a limit ends, and the closure is what it comes to. It fails exactly if the
seeds lead to a dot before a nonterminal without productions; otherwise it is the least closed
item set. -/
theorem close_least (grammar : Grammar) (sets : Sets) (seeds : List Item) :
    (∃ count, Drains grammar sets (mergeAll ∅ seeds).1 (mergeAll ∅ seeds).2 count
        (close grammar sets seeds)) ∧
      ((∃ name lhs, close grammar sets seeds = .error (.undefinedNonterminal name lhs)) ↔
        ∃ core name, ReachesCore grammar seeds core ∧ Blocked grammar core name) ∧
      ((∀ core name, ReachesCore grammar seeds core → ¬ Blocked grammar core name) →
        ∃ set, close grammar sets seeds = .ok set ∧ LeastClosed grammar sets seeds set) := by
  refine ⟨exists_drains_close grammar sets seeds, ?_, ?_⟩
  · constructor
    · rintro ⟨name, lhs, failed⟩
      by_contra unblocked
      obtain ⟨set, closed⟩ := exists_close fun core name reaches blocked =>
        unblocked ⟨core, name, reaches.reachesCore, blocked⟩
      rw [failed] at closed
      contradiction
    · rintro ⟨core, name, reaches, blocked⟩
      rcases close_spec grammar sets seeds with
        ⟨_, -, -, unblocked⟩ | ⟨met, undefined, -, -, failed⟩
      · exact absurd blocked (unblocked core name (reaches_core_iff.2 reaches))
      · exact ⟨undefined, met.lhs, failed⟩
  · intro unblocked
    obtain ⟨set, closed⟩ := exists_close fun core name reaches =>
      unblocked core name (reaches_core_iff.1 reaches)
    exact ⟨set, closed, leastClosed_of_close closed⟩

/-- Two nonterminals that inherit from each other, behind one that is not defined, and a
production that needs an undefined one. -/
def Grammar.inheriting : Grammar where
  start := "S"
  endMarker := "end"
  productions :=
    [⟨"S", [.nonterminal "A", .nonterminal "C"], true⟩,
      ⟨"A", [.nonterminal "B"], false⟩,
      ⟨"B", [.nonterminal "A"], false⟩,
      ⟨"B", [.terminal "b"], false⟩,
      ⟨"D", [.nonterminal "C"], false⟩]
  terminals := ∅
  nonterminals := ∅

/-- A seed without lookahead and a seed that is called for as well, with FIRST sets that are not
those of the grammar; and a seed that fails. -/
theorem close_least_inheriting :
    ∃ sets : Sets, ∃ start called undefined : Item,
      start.lookahead = ∅ ∧ called.lookahead = {"z"} ∧
      (∃ set, close .inheriting sets [start, called, called] = .ok set ∧
        LeastClosed .inheriting sets [start, called, called] set ∧
        set.items.map (fun item => (item.production, item.lookahead.names)) =
          [(0, []), (1, ["p", "q", "z"]), (2, ["p", "q", "z"]), (3, ["p", "q", "z"])]) ∧
      ∃ name lhs, close .inheriting sets [start, undefined] =
        .error (.undefinedNonterminal name lhs) := by
  let sets : Sets := ⟨(∅ : NameMap NameSet).insert "C" (.ofList ["q", "p"]), ∅⟩
  let start : Item := ⟨⟨0, "S", [.nonterminal "A", .nonterminal "C"], 0⟩, ∅⟩
  let called : Item := ⟨⟨1, "A", [.nonterminal "B"], 0⟩, {"z"}⟩
  let undefined : Item := ⟨⟨4, "D", [.nonterminal "C"], 0⟩, ∅⟩
  have computed : (close .inheriting sets [start, called, called]).toOption.map
      (fun set => set.items.map fun item => (item.production, item.lookahead.names)) =
        some [(0, []), (1, ["p", "q", "z"]), (2, ["p", "q", "z"]), (3, ["p", "q", "z"])] := by
    decide +kernel
  have unblocked : ∀ core name, ReachesCore .inheriting [start, called, called] core →
      ¬ Blocked .inheriting core name := by
    intro core name reaches blocked
    obtain ⟨_, _, failed⟩ := (close_least .inheriting sets _).2.1.2 ⟨core, name, reaches, blocked⟩
    rw [failed] at computed
    contradiction
  have blocked : Blocked .inheriting undefined.toCore "C" := ⟨rfl, rfl⟩
  refine ⟨sets, start, called, undefined, rfl, rfl, ?_, (close_least .inheriting sets _).2.1.2
    ⟨undefined.toCore, "C", ⟨undefined, by simp, .refl⟩, blocked⟩⟩
  obtain ⟨set, closed, least⟩ := (close_least .inheriting sets _).2.2 unblocked
  rw [closed] at computed
  exact ⟨set, closed, least, Option.some.inj computed⟩

end CanonicalLR
