import CanonicalLR.Proofs.Closure.Reach
import CanonicalLR.Proofs.Sets.First
import CanonicalLR.Proofs.Table.Coherent
import Mathlib.Data.Finset.Powerset
import Mathlib.Data.Fintype.Card

/-!
Contract: items over a grammar, and how many sets of them there are.

Owns:
- the cores of a grammar's productions and the facts about them;
- that closing and moving the dot keep to such facts;
- the bound on the number of states of an automaton over them.

Does not own: that the first item of an automaton is such an item.
-/

namespace CanonicalLR

/-- A production of the grammar with a dot in its right-hand side. -/
def Core.Fits (grammar : Grammar) (core : Core) : Prop :=
  ∃ production, grammar.productions[core.production]? = some production ∧
    core.lhs = production.lhs ∧ core.rhs = production.rhs ∧ core.dot ≤ production.rhs.length

/-- The fact is about a production and a terminal of the grammar. -/
def Fact.Fits (grammar : Grammar) (fact : Fact) : Prop :=
  fact.1.Fits grammar ∧ ∀ terminal ∈ fact.2, terminal ∈ grammar.alphabet

def Item.Fits (grammar : Grammar) (item : Item) : Prop :=
  item.toCore.Fits grammar ∧ ∀ terminal ∈ item.lookahead, terminal ∈ grammar.alphabet

def ItemSet.Fits (grammar : Grammar) (set : ItemSet) : Prop :=
  ∀ item ∈ set, item.Fits grammar

variable {grammar : Grammar}

theorem Core.Fits.of_start {index : Nat} {production : Production}
    (found : grammar.productions[index]? = some production) :
    (Core.start index production).Fits grammar :=
  ⟨production, found, rfl, rfl, Nat.zero_le _⟩

/-- A core agrees with the production at its index. -/
theorem Core.Fits.agrees {core : Core} (fits : core.Fits grammar) {production : Production}
    (found : grammar.productions[core.production]? = some production) :
    core.lhs = production.lhs ∧ core.rhs = production.rhs ∧
      core.dot ≤ production.rhs.length := by
  obtain ⟨other, otherFound, same⟩ := fits
  cases found.symm.trans otherFound
  exact same

/-- Cores with the same production and dot are equal. -/
theorem Core.Fits.ext {left right : Core} (leftFits : left.Fits grammar)
    (rightFits : right.Fits grammar) (sameProduction : left.production = right.production)
    (sameDot : left.dot = right.dot) : left = right := by
  obtain ⟨production, found, leftLhs, leftRhs, -⟩ := leftFits
  obtain ⟨other, otherFound, rightLhs, rightRhs, -⟩ := rightFits
  rw [← sameProduction, found] at otherFound
  cases otherFound
  cases left
  cases right
  simp_all

theorem Core.Fits.mem_alphabet {core : Core} (fits : core.Fits grammar) {terminal : String}
    (member : .terminal terminal ∈ core.rhs) : terminal ∈ grammar.alphabet := by
  obtain ⟨production, found, -, sameRhs, -⟩ := fits
  rw [sameRhs] at member
  exact Grammar.mem_alphabet.2 (.inr ⟨production, List.mem_of_getElem? found, member⟩)

theorem Item.Fits.records {item : Item} (fits : item.Fits grammar) {fact : Fact}
    (records : item.Records fact) : fact.Fits grammar :=
  ⟨records.1 ▸ fits.1, fun terminal member => fits.2 terminal (records.2 terminal member)⟩

theorem ItemSet.Fits.records {set : ItemSet} (fits : set.Fits grammar) {fact : Fact}
    (records : set.Records fact) : fact.Fits grammar := by
  obtain ⟨item, member, ofItem⟩ := records
  exact (fits item member).records ofItem

theorem ItemSet.fits_of_records {set : ItemSet}
    (fits : ∀ fact, set.Records fact → fact.Fits grammar) : set.Fits grammar := by
  intro item member
  refine ⟨(fits _ ⟨item, member, item.records_core⟩).1, fun terminal inLookahead => ?_⟩
  exact (fits _ ⟨item, member, Item.records_terminal inLookahead⟩).2 terminal rfl

theorem Item.Fits.advance {item : Item} (fits : item.Fits grammar) {symbol : Symbol}
    (next : item.next? = some symbol) : item.advance.Fits grammar := by
  obtain ⟨⟨production, found, sameLhs, sameRhs, -⟩, terminals⟩ := fits
  have inRange := (List.getElem?_eq_some_iff.1 next).1
  rw [sameRhs] at inRange
  exact ⟨⟨production, found, sameLhs, sameRhs, inRange⟩, terminals⟩

/-! ### Closing and moving the dot -/

theorem Closure.Calls.fits {fact next : Fact}
    (calls : Closure.Calls grammar (Sets.ofGrammar grammar) fact next)
    (fits : fact.Fits grammar) : next.Fits grammar := by
  obtain ⟨coreFits, terminals⟩ := fits
  obtain ⟨_, index, production, -, found, sameCore, lookaheads⟩ := calls.exists_production
  refine ⟨sameCore ▸ .of_start (Grammar.mem_productionsFor.1 found).1, fun terminal member => ?_⟩
  rcases lookaheads terminal member with ⟨symbol, afterNext, inFirst⟩ | ⟨-, inherited⟩
  · rcases (Grammar.mem_firstOf.1 inFirst).mem_alphabet with rfl | inAlphabet
    · exact coreFits.mem_alphabet (List.mem_of_getElem? afterNext)
    · exact inAlphabet
  · exact terminals terminal inherited

theorem fits_of_close {seeds : List Item} {set : ItemSet}
    (closed : close grammar (Sets.ofGrammar grammar) seeds = .ok set)
    (fits : ∀ seed ∈ seeds, seed.Fits grammar) : set.Fits grammar := by
  apply ItemSet.fits_of_records
  intro fact records
  obtain ⟨seed, member, origin, ofSeed, path⟩ := (records_close closed fact).1 records
  induction path with
  | refl => exact (fits seed member).records ofSeed
  | tail path calls inductionHypothesis =>
      have reaches : Closure.Reaches grammar (Sets.ofGrammar grammar) seeds _ :=
        ⟨seed, member, origin, ofSeed, path⟩
      exact calls.fits (inductionHypothesis ((records_close closed _).2 reaches))

theorem ItemSet.Fits.seeds {set : ItemSet} (fits : set.Fits grammar) {transition : Transition}
    (member : transition ∈ set.transitions) : ∀ seed ∈ transition.seeds, seed.Fits grammar := by
  have found := ItemSet.mem_transitions.1 member
  rw [(ItemSet.transition?_eq_some found).2]
  intro seed inSeeds
  obtain ⟨item, inItems, next, rfl⟩ := ItemSet.mem_advancedOver.1 inSeeds
  exact (fits item inItems).advance next

/-! ### The number of states -/

namespace Construction

/-- The productions of the grammar with each dot. -/
def cores (grammar : Grammar) : Finset Core :=
  (grammar.productions.zipIdx.flatMap fun (production, index) =>
    (List.range (production.rhs.length + 1)).map fun dot =>
      (⟨index, production.lhs, production.rhs, dot⟩ : Core)).toFinset

theorem mem_cores {core : Core} (fits : core.Fits grammar) : core ∈ cores grammar := by
  obtain ⟨production, found, sameLhs, sameRhs, inRange⟩ := fits
  refine List.mem_toFinset.2 (List.mem_flatMap.2 ⟨(production, core.production), ?_, ?_⟩)
  · exact List.mem_zipIdx_iff_getElem?.2 found
  · refine List.mem_map.2 ⟨core.dot, List.mem_range.2 (by omega), ?_⟩
    rw [← sameLhs, ← sameRhs]

theorem card_cores_le (grammar : Grammar) :
    (cores grammar).card ≤ grammar.productions.length + grammar.rhsLengths := by
  refine (List.toFinset_card_le _).trans (Nat.le_of_eq ?_)
  unfold Grammar.rhsLengths
  rw [List.length_flatMap]
  simp only [List.length_map, List.length_range]
  have general : ∀ (productions : List Production) (index : Nat),
      ((productions.zipIdx index).map fun (production, _) => production.rhs.length + 1).sum =
        productions.length + (productions.map fun production => production.rhs.length).sum := by
    intro productions
    induction productions with
    | nil => exact fun _ => rfl
    | cons production rest inductionHypothesis =>
        intro index
        rw [List.zipIdx_cons, List.map_cons, List.sum_cons, inductionHypothesis, List.map_cons,
          List.sum_cons, List.length_cons]
        simp only
        omega
  exact general grammar.productions 0

/-- The facts about the grammar. -/
def facts (grammar : Grammar) : Finset Fact :=
  cores grammar ×ˢ Finset.insertNone grammar.alphabet.names.toFinset

theorem mem_facts {fact : Fact} (fits : fact.Fits grammar) : fact ∈ facts grammar :=
  Finset.mem_product.2 ⟨mem_cores fits.1, Finset.mem_insertNone.2 fun terminal member =>
    List.mem_toFinset.2 (fits.2 terminal member)⟩

/-- A kernel with a set of items as the core, the lookahead and the facts that
tell it apart. -/
def signature (grammar : Grammar) (kernel : Item) (items : ItemSet) :
    Core × Finset String × Finset Fact :=
  (kernel.toCore, kernel.lookahead.names.toFinset, Closure.population (facts grammar) items)

theorem signature_injective {leftKernel rightKernel : Item} {left right : ItemSet}
    (leftFits : left.Fits grammar) (rightFits : right.Fits grammar)
    (same : signature grammar leftKernel left = signature grammar rightKernel right) :
    leftKernel = rightKernel ∧ left = right := by
  obtain ⟨sameCore, sameNames, sameFacts⟩ : _ ∧ _ ∧ _ := by
    simpa only [signature, Prod.mk.injEq] using same
  constructor
  · have sameLookahead : leftKernel.lookahead = rightKernel.lookahead := by
      ext terminal
      rw [← NameSet.mem_names, ← List.mem_toFinset, sameNames, List.mem_toFinset,
        NameSet.mem_names]
    cases leftKernel
    cases rightKernel
    simp_all
  · apply ItemSet.ext_records
    intro fact
    have inLeft : left.Records fact ↔ fact ∈ Closure.population (facts grammar) left :=
      ⟨fun records => Finset.mem_filter.2 ⟨mem_facts (leftFits.records records), records⟩,
        fun member => (Finset.mem_filter.1 member).2⟩
    have inRight : right.Records fact ↔ fact ∈ Closure.population (facts grammar) right :=
      ⟨fun records => Finset.mem_filter.2 ⟨mem_facts (rightFits.records records), records⟩,
        fun member => (Finset.mem_filter.1 member).2⟩
    rw [inLeft, inRight, sameFacts]

/-- As many signatures as the limit of a construction allows for. -/
def signatures (grammar : Grammar) : Finset (Core × Finset String × Finset Fact) :=
  cores grammar ×ˢ grammar.alphabet.names.toFinset.powerset ×ˢ (facts grammar).powerset

theorem card_signatures_le (grammar : Grammar) :
    (signatures grammar).card ≤ limit grammar := by
  have coresLe := card_cores_le grammar
  have namesLe : grammar.alphabet.names.toFinset.card ≤ grammar.alphabet.size :=
    List.toFinset_card_le _
  have factsLe : (facts grammar).card ≤
      (grammar.alphabet.size + 1) * (grammar.productions.length + grammar.rhsLengths) := by
    rw [facts, Finset.card_product, Finset.card_insertNone, Nat.mul_comm]
    exact Nat.mul_le_mul (Nat.succ_le_succ namesLe) coresLe
  unfold signatures limit
  rw [Finset.card_product, Finset.card_product, Finset.card_powerset, Finset.card_powerset,
    ← Nat.mul_assoc]
  exact Nat.mul_le_mul
    (Nat.mul_le_mul coresLe (Nat.pow_le_pow_right Nat.two_pos namesLe))
    (Nat.pow_le_pow_right Nat.two_pos factsLe)

theorem mem_signatures {kernel : Item} {items : ItemSet} (fits : kernel.Fits grammar) :
    signature grammar kernel items ∈ signatures grammar := by
  refine Finset.mem_product.2 ⟨mem_cores fits.1, Finset.mem_product.2 ⟨?_, ?_⟩⟩
  · refine Finset.mem_powerset.2 fun terminal member => List.mem_toFinset.2 ?_
    exact fits.2 terminal (List.mem_toFinset.1 member)
  · exact Finset.mem_powerset.2 (Closure.population_subset _ _)

/-- Distinct states over one grammar are no more than the limit. -/
theorem states_size_le {lookup : StateLookup} {construction : Construction}
    (indexed : Indexed lookup construction)
    (fits : ∀ (id : Nat) (state : State), construction.states[id]? = some state →
      state.kernel.Fits grammar ∧ state.items.Fits grammar) :
    construction.states.size ≤ limit grammar := by
  let numbered : Fin construction.states.size → Core × Finset String × Finset Fact := fun id =>
    signature grammar construction.states[id].kernel construction.states[id].items
  have present : ∀ id : Fin construction.states.size,
      construction.states[id.val]? = some construction.states[id] := fun id =>
    Array.getElem?_eq_getElem id.isLt
  have fitsAt := fun id => fits _ _ (present id)
  calc construction.states.size
      = (Finset.univ : Finset (Fin construction.states.size)).card := by
        rw [Finset.card_univ, Fintype.card_fin]
    _ ≤ (signatures grammar).card := by
        refine Finset.card_le_card_of_injOn numbered
          (fun id _ => mem_signatures (fitsAt id).1) fun left _ right _ same => ?_
        obtain ⟨sameKernel, sameItems⟩ :=
          signature_injective (fitsAt left).2 (fitsAt right).2 same
        exact Fin.ext (indexed.distinct _ _ _ _ (present left) (present right)
          sameKernel sameItems)
    _ ≤ limit grammar := card_signatures_le grammar

end Construction

end CanonicalLR
