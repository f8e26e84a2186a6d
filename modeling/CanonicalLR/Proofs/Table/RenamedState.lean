import CanonicalLR.Proofs.Closure.Embedding
import CanonicalLR.Proofs.Grammar.Renamed
import CanonicalLR.Proofs.Table.WellFormed

/-!
Contract: states over renamed grammars.

Owns:
- that names do not count for the order of items over a grammar;
- item sets that are equal up to the names, item by item in the same order;
- that the closures of such items and the transitions of such sets are equal up to the names;
- states that are equal up to the names.

Does not own: the numbers that states get.
-/

namespace CanonicalLR

/-- Cores over a grammar compare by production and dot. -/
theorem Core.Fits.compare_eq {grammar : Grammar} {left right : Core} (leftFits : left.Fits grammar)
    (rightFits : right.Fits grammar) :
    compare left right =
      (compare left.production right.production).then (compare left.dot right.dot) := by
  change ((compare left.production right.production).then (compare left.lhs right.lhs)).then
    ((compare left.rhs right.rhs).then (compare left.dot right.dot)) = _
  by_cases sameProduction : left.production = right.production
  · obtain ⟨production, found, rightLhs, rightRhs, -⟩ := rightFits
    obtain ⟨leftLhs, leftRhs, -⟩ := leftFits.agrees (sameProduction ▸ found)
    rw [leftLhs, leftRhs, rightLhs, rightRhs, Std.compare_self, Std.compare_self,
      Ordering.then_eq, Ordering.eq_then]
  · have different : compare left.production right.production ≠ .eq :=
      mt Std.compare_eq_iff_eq.1 sameProduction
    cases order : compare left.production right.production with
    | lt => rfl
    | eq => exact absurd order different
    | gt => rfl

/-- Where equal values have equal views and no others have, nothing else counts for which
values are duplicates. -/
theorem eraseDups_map {Value Image : Type} [DecidableEq Value] [DecidableEq Image]
    {view : Value → Image} (values : List Value)
    (injective : Set.InjOn view {value | value ∈ values}) :
    (values.map view).eraseDups = values.eraseDups.map view := by
  match values with
  | [] => rfl
  | head :: tail =>
      have kept : (tail.map view).filter (fun image => !image == view head) =
          (tail.filter fun value => !value == head).map view := by
        rw [List.filter_map]
        refine congrArg _ (List.filter_congr fun value member => ?_)
        have sameTest : (view value == view head) = (value == head) := by
          rw [Bool.eq_iff_iff, beq_iff_eq, beq_iff_eq]
          exact injective.eq_iff (List.mem_cons_of_mem head member) List.mem_cons_self
        exact congrArg not sameTest
      have injectiveOnKept :
          Set.InjOn view {value | value ∈ tail.filter fun value => !value == head} :=
        injective.mono fun value member =>
          List.mem_cons_of_mem head (List.mem_filter.1 member).1
      rw [List.map_cons, List.eraseDups_cons, List.eraseDups_cons, List.map_cons, kept,
        eraseDups_map _ injectiveOnKept]
termination_by values.length
decreasing_by exact Nat.lt_succ_of_le (List.length_filter_le _ _)

namespace Renaming

variable (rename : Renaming)

/-- The item sets have the same items in the same order, up to the names. -/
def SameItems (set other : ItemSet) : Prop :=
  other.items = set.items.map rename.item

def transition (transition : Transition) : Transition where
  symbol := rename.symbol transition.symbol
  kernel := rename.item transition.kernel
  others := transition.others.map rename.item

/-- The states have the same number, and the same kernel and items up to the names. -/
structure SameState (state other : State) : Prop where
  id_eq : other.id = state.id
  kernel_eq : other.kernel = rename.item state.kernel
  items_eq : rename.SameItems state.items other.items

variable {rename : Renaming} {set other : ItemSet}

/-- Whatever the names, a core over a grammar is known by its production and dot. -/
theorem core_injOn {grammar : Grammar} : Set.InjOn rename.core {core | core.Fits grammar} := by
  intro left leftFits right rightFits same
  have sameProduction := congrArg Core.production same
  have sameDot := congrArg Core.dot same
  exact leftFits.ext rightFits sameProduction sameDot

theorem SameItems.unique {another : ItemSet} (same : rename.SameItems set other)
    (sameToo : rename.SameItems set another) : other = another := by
  cases other
  cases another
  cases same.trans sameToo.symm
  rfl

theorem SameItems.mem_iff (same : rename.SameItems set other) {image : Item} :
    image ∈ other ↔ ∃ item ∈ set, rename.item item = image := by
  show image ∈ other.items ↔ _
  rw [same]
  exact List.mem_map

/-- Where equally many states have images with their numbers, every image is one of a state. -/
theorem exists_state_of_image {states images : Array State} (sameSize : images.size = states.size)
    (sameStates : ∀ (id : Nat) (state : State), states[id]? = some state →
      ∃ image, images[id]? = some image ∧ rename.SameState state image)
    {id : Nat} {image : State} (present : images[id]? = some image) :
    ∃ state, states[id]? = some state ∧ rename.SameState state image := by
  have inRange := (Array.getElem?_eq_some_iff.1 present).1
  rw [sameSize] at inRange
  obtain ⟨counterpart, presentToo, same⟩ := sameStates id _ (Array.getElem?_eq_getElem inRange)
  cases presentToo.symm.trans present
  exact ⟨_, Array.getElem?_eq_getElem inRange, same⟩

end Renaming

namespace Renames

variable {rename : Renaming} {source target : Grammar} (renames : Renames rename source target)
  {set other : ItemSet}

include renames

/-! ### Items -/

theorem core_fits {core : Core} (fits : core.Fits source) : (rename.core core).Fits target := by
  obtain ⟨production, found, sameLhs, sameRhs, inRange⟩ := fits
  refine ⟨rename.production production, ?_, congrArg _ sameLhs, congrArg _ sameRhs, ?_⟩
  · rw [renames.productions_eq, List.getElem?_map]
    show source.productions[core.production]?.map _ = _
    rw [found]
    rfl
  · show core.dot ≤ (production.rhs.map rename.symbol).length
    rwa [List.length_map]

theorem compare_core {left right : Core} (leftFits : left.Fits source)
    (rightFits : right.Fits source) :
    compare (rename.core left) (rename.core right) = compare left right := by
  rw [(renames.core_fits leftFits).compare_eq (renames.core_fits rightFits),
    leftFits.compare_eq rightFits]
  rfl

theorem terminal_injOn : Set.InjOn rename.terminal {name | name ∈ source.alphabet} :=
  renames.injective.terminals.mono fun _ member => renames.listed.mem_terminals member

private theorem names_subset {left right : NameSet}
    (leftKnown : ∀ name ∈ left, name ∈ source.alphabet)
    (rightKnown : ∀ name ∈ right, name ∈ source.alphabet)
    (same : rename.names left = rename.names right) {name : String} (member : name ∈ left) :
    name ∈ right := by
  have inImage : rename.terminal name ∈ rename.names right :=
    same ▸ Renaming.mem_names.2 ⟨name, member, rfl⟩
  obtain ⟨other, inRight, renamed⟩ := Renaming.mem_names.1 inImage
  rwa [← renames.terminal_injOn (rightKnown other inRight) (leftKnown name member) renamed]

theorem item_injOn : Set.InjOn rename.item {item | item.Fits source} := by
  intro left leftFits right rightFits same
  have sameNames : rename.names left.lookahead = rename.names right.lookahead :=
    congrArg Item.lookahead same
  apply Item.eq_of_core_eq
  · exact Renaming.core_injOn leftFits.1 rightFits.1 (congrArg Item.toCore same)
  · ext name
    exact ⟨renames.names_subset leftFits.2 rightFits.2 sameNames,
      renames.names_subset rightFits.2 leftFits.2 sameNames.symm⟩

theorem next_lists {item : Item} (fits : item.Fits source) {symbol : Symbol}
    (next : item.next? = some symbol) : source.Lists symbol := by
  obtain ⟨production, found, -, sameRhs, -⟩ := fits.1
  have occurs : symbol ∈ item.rhs := List.mem_of_getElem? next
  rw [sameRhs] at occurs
  exact renames.listed.lists (List.mem_of_getElem? found) occurs

/-! ### Item sets -/

theorem sameItems_injective {left right : ItemSet} (leftFits : left.Fits source)
    (rightFits : right.Fits source) (leftSame : rename.SameItems left other)
    (rightSame : rename.SameItems right other) : left = right := by
  have subset : ∀ {first second : ItemSet}, first.Fits source → second.Fits source →
      rename.SameItems first other → rename.SameItems second other →
      ∀ item ∈ first, item ∈ second := by
    intro first second firstFits secondFits firstSame secondSame item member
    obtain ⟨origin, inSecond, renamed⟩ :=
      secondSame.mem_iff.1 (firstSame.mem_iff.2 ⟨item, member, rfl⟩)
    rwa [← renames.item_injOn (secondFits origin inSecond) (firstFits item member) renamed]
  ext core item
  simp only [ItemSet.find?_eq_some_iff]
  exact and_congr_left fun _ => ⟨subset leftFits rightFits leftSame rightSame item,
    subset rightFits leftFits rightSame leftSame item⟩

/-- Item sets that record the same facts have the same items in the same order. -/
theorem sameItems_of_records (fits : set.Fits source)
    (sameFacts : ∀ fact, other.Records fact ↔
      ∃ origin, set.Records origin ∧ rename.fact origin = fact) : rename.SameItems set other := by
  have ascending : Ascending Item.toCore (set.items.map rename.item) := by
    unfold Ascending
    rw [List.pairwise_map]
    refine set.ascending.imp_of_mem fun {earlier later} earlierMember laterMember before => ?_
    show compare (rename.core earlier.toCore) (rename.core later.toCore) = .lt
    rw [renames.compare_core (fits earlier earlierMember).1 (fits later laterMember).1]
    exact before
  have sameSet : other = ⟨set.items.map rename.item, ascending⟩ := by
    apply ItemSet.ext_records
    intro fact
    rw [sameFacts]
    constructor
    · rintro ⟨origin, ⟨item, member, records⟩, rfl⟩
      exact ⟨rename.item item, List.mem_map_of_mem member,
        Renaming.records_item.2 ⟨origin, records, rfl⟩⟩
    · rintro ⟨image, member, records⟩
      obtain ⟨item, inSet, rfl⟩ := List.mem_map.1 member
      obtain ⟨origin, ofItem, renamed⟩ := Renaming.records_item.1 records
      exact ⟨origin, ⟨item, inSet, ofItem⟩, renamed⟩
  rw [sameSet, Renaming.SameItems]

theorem exists_close {seeds : List Item} (fits : ∀ seed ∈ seeds, seed.Fits source)
    (closed : close source (Sets.ofGrammar source) seeds = .ok set) :
    ∃ other, close target (Sets.ofGrammar target) (seeds.map rename.item) = .ok other ∧
      rename.SameItems set other := by
  have isLive : ∀ seed ∈ seeds, AllLive (· ∈ source.nonterminals) seed.rhs := by
    intro seed member name occurs
    obtain ⟨production, found, -, sameRhs, -⟩ := (fits seed member).1
    rw [sameRhs] at occurs
    exact renames.listed.nonterminal production (List.mem_of_getElem? found) name occurs
  obtain ⟨other, closedToo, sameFacts⟩ := renames.embeds.exists_close isLive closed
  exact ⟨other, closedToo, renames.sameItems_of_records (fits_of_close closed fits) sameFacts⟩

/-! ### Transitions -/

section Transitions

variable (fits : set.Fits source) (same : rename.SameItems set other)

include fits same

private theorem advancedOver_eq {symbol : Symbol} (listed : source.Lists symbol) :
    other.advancedOver (rename.symbol symbol) = (set.advancedOver symbol).map rename.item := by
  unfold ItemSet.advancedOver
  rw [same, List.filter_map, List.map_map, List.map_map]
  have sameTest : ∀ item ∈ set.items,
      decide ((rename.item item).next? = some (rename.symbol symbol)) =
        decide (item.next? = some symbol) := by
    intro item member
    refine decide_eq_decide.2 ?_
    show (rename.core item.toCore).next? = _ ↔ _
    rw [Renaming.next?_core, Option.map_eq_some_iff]
    constructor
    · rintro ⟨next, behindDot, renamed⟩
      rw [behindDot, renames.symbol_injOn (renames.next_lists (fits item member) behindDot) listed
        renamed]
    · exact fun behindDot => ⟨symbol, behindDot, rfl⟩
  exact congrArg _ (List.filter_congr sameTest)

private theorem transition?_eq {symbol : Symbol} (listed : source.Lists symbol) :
    other.transition? (rename.symbol symbol) = (set.transition? symbol).map rename.transition := by
  unfold ItemSet.transition?
  rw [renames.advancedOver_eq fits same listed]
  cases set.advancedOver symbol <;> rfl

private theorem nextSymbols_eq : other.nextSymbols = set.nextSymbols.map rename.symbol := by
  have behindDots : (other.items.filterMap fun item => item.next?) =
      (set.items.filterMap fun item => item.next?).map rename.symbol := by
    rw [same, List.filterMap_map, List.map_filterMap]
    exact congrArg (List.filterMap · set.items)
      (funext fun item => Renaming.next?_core item.toCore)
  have injective : Set.InjOn rename.symbol
      {symbol | symbol ∈ set.items.filterMap fun item => item.next?} := by
    refine renames.symbol_injOn.mono fun symbol member => ?_
    obtain ⟨item, inItems, next⟩ := List.mem_filterMap.1 member
    exact renames.next_lists (fits item inItems) next
  have sameKind : ∀ kind : Symbol → Bool, (∀ symbol, kind (rename.symbol symbol) = kind symbol) →
      ∀ symbols : List Symbol,
        (symbols.map rename.symbol).filter kind = (symbols.filter kind).map rename.symbol := by
    intro kind sameTest symbols
    rw [List.filter_map]
    exact congrArg _ (List.filter_congr fun symbol _ => sameTest symbol)
  unfold ItemSet.nextSymbols
  simp only [behindDots, eraseDups_map _ injective, List.map_append]
  rw [sameKind _ (fun symbol => by cases symbol <;> rfl),
    sameKind _ (fun symbol => by cases symbol <;> rfl)]

/-- The transitions are the same in the same order. -/
theorem transitions_eq : other.transitions = set.transitions.map rename.transition := by
  unfold ItemSet.transitions
  rw [renames.nextSymbols_eq fits same, List.filterMap_map, List.map_filterMap]
  refine List.filterMap_congr fun symbol member => ?_
  obtain ⟨item, inItems, next⟩ := ItemSet.mem_nextSymbols.1 member
  exact renames.transition?_eq fits same (renames.next_lists (fits item inItems) next)

end Transitions

end Renames

end CanonicalLR
