import CanonicalLR.Proofs.Closure.Reach
import CanonicalLR.Proofs.Grammar.Renaming

/-!
Contract: closures in a grammar that embeds another one.

Owns:
- that facts about live symbols call for the same facts in both grammars, up to the names;
- that seeds over live symbols close to the same facts in both, up to the names.

Does not own: which nonterminals are live.
-/

namespace CanonicalLR

open Closure

variable {rename : Renaming} {live : String → Prop} {source target : Grammar}

private theorem AllLive.afterNext {core : Core} (isLive : AllLive live core.rhs)
    {symbol : Symbol} (afterNext : core.afterNext? = some symbol) : AllLive live [symbol] := by
  intro name isSymbol
  apply isLive
  rw [List.mem_singleton.1 isSymbol]
  exact List.mem_of_getElem? afterNext

namespace Embeds

variable (embeds : Embeds rename live source target)

include embeds

/-- What a fact calls for is live again. -/
theorem calls_live {fact next : Fact} (isLive : AllLive live fact.1.rhs)
    (calls : Calls source (Sets.ofGrammar source) fact next) : AllLive live next.1.rhs := by
  obtain ⟨name, index, production, behindDot, found, same, -⟩ := calls.exists_production
  obtain ⟨inProductions, sameLhs⟩ := Grammar.mem_productionsFor.1 found
  have nameLive := isLive name (List.mem_of_getElem? behindDot)
  rw [same]
  exact embeds.live_rhs production (List.mem_of_getElem? inProductions) (sameLhs ▸ nameLive)

/-- A call in the target comes from one in the source. -/
private theorem calls_of_renamed {fact other : Fact} (isLive : AllLive live fact.1.rhs)
    (calls : Calls target (Sets.ofGrammar target) (rename.fact fact) other) :
    ∃ next, Calls source (Sets.ofGrammar source) fact next ∧ rename.fact next = other := by
  obtain ⟨core, terminal?⟩ := fact
  have called : ∀ {image : String} {index : Nat} {other : Production},
      (rename.core core).next? = some (.nonterminal image) →
      (index, other) ∈ target.productionsFor image → ∃ name production,
        core.next? = some (.nonterminal name) ∧
        (index, production) ∈ source.productionsFor name ∧
          rename.production production = other := by
    intro image index other next found
    obtain ⟨name, behindDot, rfl⟩ := Renaming.exists_next?_nonterminal next
    have nameLive := isLive name (List.mem_of_getElem? behindDot)
    obtain ⟨production, inSource, renamed⟩ :=
      (embeds.mem_productionsFor name nameLive index other).1 found
    exact ⟨name, production, behindDot, inSource, renamed⟩
  cases terminal? with
  | none =>
      change Calls target _ (rename.core core, none) other at calls
      cases calls with
      | core next found =>
          obtain ⟨name, production, behindDot, inSource, rfl⟩ := called next found
          exact ⟨_, .core behindDot inSource, rfl⟩
      | ahead next found afterNext member =>
          obtain ⟨name, production, behindDot, inSource, rfl⟩ := called next found
          rw [Renaming.afterNext?_core, Option.map_eq_some_iff] at afterNext
          obtain ⟨symbol, symbolAfter, rfl⟩ := afterNext
          obtain ⟨terminal, inFirst, rfl⟩ :=
            (embeds.mem_firstOf (isLive.afterNext symbolAfter)).1 member
          exact ⟨_, .ahead behindDot inSource symbolAfter inFirst, rfl⟩
  | some terminal =>
      change Calls target _ (rename.core core, some (rename.terminal terminal)) other at calls
      cases calls with
      | inherited next found atEnd =>
          obtain ⟨name, production, behindDot, inSource, rfl⟩ := called next found
          rw [Renaming.afterNext?_core, Option.map_eq_none_iff] at atEnd
          exact ⟨_, .inherited behindDot inSource atEnd, rfl⟩

private theorem calls_renamed {fact next : Fact} (isLive : AllLive live fact.1.rhs)
    (calls : Calls source (Sets.ofGrammar source) fact next) :
    Calls target (Sets.ofGrammar target) (rename.fact fact) (rename.fact next) := by
  have renamed : ∀ {core : Core} {name : String} {index : Nat} {production : Production},
      AllLive live core.rhs → core.next? = some (.nonterminal name) →
      (index, production) ∈ source.productionsFor name →
        (rename.core core).next? = some (.nonterminal (rename.nonterminal name)) ∧
        (index, rename.production production) ∈
          target.productionsFor (rename.nonterminal name) := by
    intro core name index production coreLive behindDot inSource
    have nameLive := coreLive name (List.mem_of_getElem? behindDot)
    refine ⟨?_, (embeds.mem_productionsFor name nameLive _ _).2 ⟨_, inSource, rfl⟩⟩
    rw [Renaming.next?_core, behindDot]
    rfl
  cases calls with
  | core behindDot inSource =>
      obtain ⟨next, found⟩ := renamed isLive behindDot inSource
      exact .core next found
  | @ahead core name index production symbol terminal behindDot inSource afterNext member =>
      obtain ⟨next, found⟩ := renamed isLive behindDot inSource
      have after : (rename.core core).afterNext? = some (rename.symbol symbol) := by
        rw [Renaming.afterNext?_core, afterNext]
        rfl
      exact .ahead next found after
        ((embeds.mem_firstOf (isLive.afterNext afterNext)).2 ⟨terminal, member, rfl⟩)
  | inherited behindDot inSource atEnd =>
      obtain ⟨next, found⟩ := renamed isLive behindDot inSource
      refine .inherited next found ?_
      rw [Renaming.afterNext?_core, atEnd]
      rfl

section Seeds

variable {seeds : List Item} (isLive : ∀ seed ∈ seeds, AllLive live seed.rhs)

include isLive

theorem reaches_live {fact : Fact}
    (reaches : Reaches source (Sets.ofGrammar source) seeds fact) : AllLive live fact.1.rhs := by
  obtain ⟨seed, member, origin, ofSeed, path⟩ := reaches
  induction path with
  | refl => exact ofSeed.1 ▸ isLive seed member
  | tail _ calls inductionHypothesis => exact embeds.calls_live inductionHypothesis calls

/-- All items of the closure of such seeds are over live symbols. -/
theorem items_live {set : ItemSet}
    (closed : close source (Sets.ofGrammar source) seeds = .ok set) :
    ∀ item ∈ set, AllLive live item.rhs := by
  intro item member
  have records := (records_close closed _).1 ⟨item, member, item.records_core⟩
  exact embeds.reaches_live isLive records

/-- From seeds over live symbols, both grammars lead to the same facts. -/
theorem reaches_iff {other : Fact} :
    Reaches target (Sets.ofGrammar target) (seeds.map rename.item) other ↔
      ∃ fact, Reaches source (Sets.ofGrammar source) seeds fact ∧ rename.fact fact = other := by
  constructor
  · rintro ⟨_, member, _, records, path⟩
    obtain ⟨seed, inSeeds, rfl⟩ := List.mem_map.1 member
    induction path with
    | refl =>
        obtain ⟨origin, ofSeed, rfl⟩ := Renaming.records_item.1 records
        exact ⟨origin, .of_seed inSeeds ofSeed, rfl⟩
    | tail _ calls inductionHypothesis =>
        obtain ⟨fact, reaches, rfl⟩ := inductionHypothesis
        obtain ⟨next, sourceCalls, rfl⟩ :=
          embeds.calls_of_renamed (embeds.reaches_live isLive reaches) calls
        exact ⟨next, reaches.calls sourceCalls, rfl⟩
  · rintro ⟨fact, ⟨seed, inSeeds, origin, ofSeed, path⟩, rfl⟩
    induction path with
    | refl =>
        exact .of_seed (List.mem_map_of_mem inSeeds)
          (Renaming.records_item.2 ⟨origin, ofSeed, rfl⟩)
    | tail path calls inductionHypothesis =>
        have factLive := embeds.reaches_live isLive ⟨seed, inSeeds, origin, ofSeed, path⟩
        exact inductionHypothesis.calls (embeds.calls_renamed factLive calls)

/-- Where the source knows productions of each nonterminal that the seeds lead to, so does
the target. -/
private theorem not_blocked
    (unblocked : ∀ core name, Reaches source (Sets.ofGrammar source) seeds (core, none) →
      ¬ Blocked source core name) {core : Core} {image : String}
    (reaches : Reaches target (Sets.ofGrammar target) (seeds.map rename.item) (core, none)) :
    ¬ Blocked target core image := by
  rintro ⟨next, nothing⟩
  obtain ⟨⟨origin, terminal?⟩, sourceReaches, renamed⟩ := (embeds.reaches_iff isLive).1 reaches
  obtain ⟨rfl, isCore⟩ := Prod.mk.inj renamed
  obtain rfl := Option.map_eq_none_iff.1 isCore
  obtain ⟨name, behindDot, rfl⟩ := Renaming.exists_next?_nonterminal next
  have originLive : AllLive live origin.rhs := embeds.reaches_live isLive sourceReaches
  have nameLive := originLive name (List.mem_of_getElem? behindDot)
  refine unblocked origin name sourceReaches ⟨behindDot, List.eq_nil_iff_forall_not_mem.2 ?_⟩
  rintro ⟨index, production⟩ inSource
  have inTarget :=
    (embeds.mem_productionsFor name nameLive index _).2 ⟨production, inSource, rfl⟩
  rw [nothing] at inTarget
  exact List.not_mem_nil inTarget

/-- Seeds over live symbols that close in the source close in the target to the same
facts. -/
theorem exists_close {set : ItemSet}
    (closed : close source (Sets.ofGrammar source) seeds = .ok set) :
    ∃ other, close target (Sets.ofGrammar target) (seeds.map rename.item) = .ok other ∧
      ∀ fact, other.Records fact ↔
        ∃ origin, set.Records origin ∧ rename.fact origin = fact := by
  obtain ⟨other, closedToo⟩ := CanonicalLR.exists_close fun _ _ reaches =>
    embeds.not_blocked isLive (close_eq_ok_iff.1 closed).1 reaches
  refine ⟨other, closedToo, fun fact => ?_⟩
  simp only [records_close closedToo, embeds.reaches_iff isLive, records_close closed]

end Seeds

end Embeds

end CanonicalLR
