import CanonicalLR.Closure
import Mathlib.Data.Finset.Card

/-!
Contract: item sets seen as sets of facts.

Owns:
- what stands behind the dot of a core, symbol by symbol;
- the facts that an item records: its core, and each terminal of its lookahead;
- extensionality of item sets by facts;
- what merging adds, what of it is listed as new, and how often that can happen;
- the facts of item sets that are collected from lists.

Does not own: which facts the productions of a grammar call for.
-/

namespace CanonicalLR

/-! ### What stands behind the dot -/

namespace Core

variable {core : Core} {symbol : Symbol} {behind : List Symbol}

theorem next?_of_drop (drop : core.rhs.drop core.dot = symbol :: behind) :
    core.next? = some symbol := by
  rw [next?, ← List.head?_drop, drop, List.head?_cons]

theorem drop_succ_of_drop (drop : core.rhs.drop core.dot = symbol :: behind) :
    core.rhs.drop (core.dot + 1) = behind := by
  rw [← List.tail_drop, drop, List.tail_cons]

theorem afterNext?_of_drop (drop : core.rhs.drop core.dot = symbol :: behind) :
    core.afterNext? = behind.head? := by
  rw [afterNext?, ← List.head?_drop, drop_succ_of_drop drop]

theorem exists_drop_of_next? (next : core.next? = some symbol) :
    ∃ behind, core.rhs.drop core.dot = symbol :: behind := by
  obtain ⟨inRange, same⟩ := List.getElem?_eq_some_iff.1 next
  exact ⟨_, by rw [List.drop_eq_getElem_cons inRange, same]⟩

end Core

/-! ### Facts of items -/

/-- That a core is present or, with a terminal, that the terminal belongs to its
lookahead. -/
abbrev Fact := Core × Option String

def Item.Records (item : Item) (fact : Fact) : Prop :=
  item.toCore = fact.1 ∧ ∀ terminal ∈ fact.2, terminal ∈ item.lookahead

instance (item : Item) (fact : Fact) : Decidable (item.Records fact) :=
  inferInstanceAs
    (Decidable (item.toCore = fact.1 ∧ ∀ terminal ∈ fact.2, terminal ∈ item.lookahead))

def ItemSet.Records (set : ItemSet) (fact : Fact) : Prop :=
  ∃ item ∈ set, item.Records fact

instance (set : ItemSet) (fact : Fact) : Decidable (set.Records fact) :=
  inferInstanceAs (Decidable (∃ item ∈ set.items, item.Records fact))

namespace Item

@[simp] theorem records_core (item : Item) : item.Records (item.toCore, none) :=
  ⟨rfl, by simp⟩

theorem records_terminal {item : Item} {terminal : String} (member : terminal ∈ item.lookahead) :
    item.Records (item.toCore, some terminal) :=
  ⟨rfl, by simpa using member⟩

@[simp] theorem records_some {item : Item} {core : Core} {terminal : String} :
    item.Records (core, some terminal) ↔ item.toCore = core ∧ terminal ∈ item.lookahead := by
  simp [Records]

@[simp] theorem records_none {item : Item} {core : Core} :
    item.Records (core, none) ↔ item.toCore = core := by
  simp [Records]

theorem eq_of_core_eq {left right : Item} (sameCore : left.toCore = right.toCore)
    (sameLookahead : left.lookahead = right.lookahead) : left = right := by
  cases left
  cases right
  simp_all

end Item

namespace ItemSet

variable {set : ItemSet} {item : Item} {fact : Fact}

@[simp] theorem not_records_empty (fact : Fact) : ¬ (∅ : ItemSet).Records fact := by
  rintro ⟨item, member, -⟩
  exact List.not_mem_nil member

theorem records_iff_find? :
    set.Records fact ↔ ∃ item, set.find? fact.1 = some item ∧
      ∀ terminal ∈ fact.2, terminal ∈ item.lookahead := by
  constructor
  · rintro ⟨item, member, same, terminals⟩
    exact ⟨item, find?_eq_some_iff.2 ⟨member, same⟩, terminals⟩
  · rintro ⟨item, found, terminals⟩
    have ⟨member, same⟩ := find?_eq_some_iff.1 found
    exact ⟨item, member, same, terminals⟩

theorem Records.core {core : Core} {terminal? : Option String}
    (records : set.Records (core, terminal?)) : set.Records (core, none) := by
  obtain ⟨item, member, same, -⟩ := records
  exact ⟨item, member, same, by simp⟩

/-- Items of one set with equal cores are equal. -/
theorem eq_of_core_eq {left right : Item} (leftMember : left ∈ set) (rightMember : right ∈ set)
    (same : left.toCore = right.toCore) : left = right := by
  have leftFound := find?_eq_some_iff.2 ⟨leftMember, rfl⟩
  have rightFound := find?_eq_some_iff.2 ⟨rightMember, same.symm⟩
  rw [leftFound] at rightFound
  exact Option.some.inj rightFound

theorem cores_nodup (set : ItemSet) : (set.items.map Item.toCore).Nodup := by
  refine List.pairwise_map.2 (set.ascending.imp ?_)
  intro earlier later below same
  rw [same, Std.compare_self] at below
  contradiction

/-- The lookahead under a core, which is empty for a core that does not occur. -/
def lookaheadOf (set : ItemSet) (core : Core) : NameSet :=
  ((set.find? core).map Item.lookahead).getD ∅

theorem mem_lookaheadOf {core : Core} {terminal : String} :
    terminal ∈ set.lookaheadOf core ↔ set.Records (core, some terminal) := by
  rw [lookaheadOf, records_iff_find?]
  cases set.find? core with
  | none => simp
  | some item => simp

/-- A fact about a member's core is recorded by that very member. -/
theorem records_of_mem (member : item ∈ set) (same : item.toCore = fact.1) :
    set.Records fact ↔ item.Records fact := by
  constructor
  · rintro ⟨other, otherMember, otherRecords⟩
    rwa [eq_of_core_eq member otherMember (same.trans otherRecords.1.symm)]
  · exact fun records => ⟨item, member, records⟩

/-- An item is found wherever the same facts are recorded. -/
private theorem find?_of_records {left right : ItemSet}
    (sameFacts : ∀ fact, left.Records fact ↔ right.Records fact) {core : Core}
    (leftFound : left.find? core = some item) : right.find? core = some item := by
  obtain ⟨other, rightFound, -⟩ := records_iff_find?.1
    ((sameFacts (core, none)).1 (records_iff_find?.2 ⟨item, leftFound, by simp⟩))
  have sameCore : other.toCore = item.toCore :=
    (find?_eq_some_iff.1 rightFound).2.trans (find?_eq_some_iff.1 leftFound).2.symm
  have sameLookahead : other.lookahead = item.lookahead := by
    ext terminal
    have := sameFacts (core, some terminal)
    simpa [records_iff_find?, leftFound, rightFound] using this.symm
  rw [rightFound, Item.eq_of_core_eq sameCore sameLookahead]

/-- The facts determine an item set. -/
theorem ext_records {left right : ItemSet}
    (sameFacts : ∀ fact, left.Records fact ↔ right.Records fact) : left = right := by
  ext core item
  exact ⟨find?_of_records sameFacts, find?_of_records fun fact => (sameFacts fact).symm⟩

/-! ### A single merge -/

theorem records_merge :
    (set.merge item).1.Records fact ↔ set.Records fact ∨ item.Records fact := by
  obtain ⟨core, terminal?⟩ := fact
  rw [records_iff_find?, records_iff_find?]
  simp only [find?_merge, Item.Records]
  by_cases same : core = item.toCore
  · subst same
    cases terminal? with
    | none => simp
    | some terminal =>
        cases found : set.find? item.toCore with
        | none => simp
        | some present => simp
  · simp [same, Ne.symm same]

/-- What a merge lists as new is part of the merged item, and something of it was
not recorded before. -/
theorem merge_added {added : Item} (isNew : (set.merge item).2 = some added) :
    (∀ fact, added.Records fact → item.Records fact) ∧
      ∃ fact, added.Records fact ∧ ¬ set.Records fact := by
  unfold merge at isNew
  split at isNew
  case h_1 absent =>
    cases isNew
    refine ⟨fun _ records => records, (item.toCore, none), item.records_core, ?_⟩
    rw [records_iff_find?]
    simp [absent]
  case h_2 present found =>
    simp only at isNew
    split at isNew
    · contradiction
    case isFalse something =>
      cases isNew
      rw [NameSet.isEmpty_iff] at something
      push Not at something
      obtain ⟨terminal, missing⟩ := something
      refine ⟨?_, (item.toCore, some terminal), Item.records_some.2 ⟨rfl, missing⟩, ?_⟩
      · rintro fact ⟨same, terminals⟩
        exact ⟨same, fun name member => (NameSet.mem_sdiff.1 (terminals name member)).1⟩
      · rw [records_iff_find?]
        simpa [found] using (NameSet.mem_sdiff.1 missing).2

/-- What a merge adds is listed as new. -/
theorem merge_covered (records : (set.merge item).1.Records fact) :
    set.Records fact ∨ ∃ added, (set.merge item).2 = some added ∧ added.Records fact := by
  rcases records_merge.1 records with before | ofItem
  · exact .inl before
  by_cases before : set.Records fact
  · exact .inl before
  right
  obtain ⟨core, terminal?⟩ := fact
  obtain ⟨same, terminals⟩ := ofItem
  simp only at same terminals
  subst same
  unfold merge
  split
  case h_1 => exact ⟨item, rfl, rfl, terminals⟩
  case h_2 present found =>
    have missing : ∃ terminal, terminal? = some terminal ∧ terminal ∉ present.lookahead := by
      rw [records_iff_find?] at before
      simp only [found, Option.some.injEq, exists_eq_left'] at before
      push Not at before
      exact before
    obtain ⟨terminal, rfl, notPresent⟩ := missing
    have isNew : terminal ∈ item.lookahead \ present.lookahead :=
      NameSet.mem_sdiff.2 ⟨terminals terminal rfl, notPresent⟩
    have something : ¬ (item.lookahead \ present.lookahead).isEmpty = true := by
      rw [NameSet.isEmpty_iff]
      exact fun none => none terminal isNew
    simp only [something, Bool.false_eq_true, if_false]
    exact ⟨_, rfl, Item.records_some.2 ⟨rfl, isNew⟩⟩

/-! ### Collected sets -/

private theorem records_foldl_merge {items : List Item} {set : ItemSet} {fact : Fact} :
    (items.foldl (fun set item => (set.merge item).1) set).Records fact ↔
      set.Records fact ∨ ∃ item ∈ items, item.Records fact := by
  induction items generalizing set with
  | nil => simp
  | cons item rest inductionHypothesis =>
      rw [List.foldl_cons, inductionHypothesis, records_merge]
      simp only [List.mem_cons, exists_eq_or_imp, or_assoc]

theorem records_ofList {items : List Item} {fact : Fact} :
    (ofList items).Records fact ↔ ∃ item ∈ items, item.Records fact := by
  rw [ofList, records_foldl_merge]
  exact or_iff_right (not_records_empty fact)

end ItemSet

/-! ### Merging a list -/

namespace Closure

variable {set : ItemSet} {items : List Item} {fact : Fact}

theorem mergeAll_cons (set : ItemSet) (item : Item) (rest : List Item) :
    mergeAll set (item :: rest) = ((mergeAll (set.merge item).1 rest).1,
      (set.merge item).2.toList ++ (mergeAll (set.merge item).1 rest).2) :=
  rfl

theorem records_mergeAll :
    (mergeAll set items).1.Records fact ↔ set.Records fact ∨ ∃ item ∈ items, item.Records fact := by
  induction items generalizing set with
  | nil => simp [mergeAll]
  | cons item rest inductionHypothesis =>
      rw [mergeAll_cons, inductionHypothesis, ItemSet.records_merge]
      simp only [List.mem_cons, exists_eq_or_imp, or_assoc]

theorem mem_mergeAll_added {added : Item} (member : added ∈ (mergeAll set items).2) :
    ∃ item ∈ items, ∀ fact, added.Records fact → item.Records fact := by
  induction items generalizing set with
  | nil => simp [mergeAll] at member
  | cons item rest inductionHypothesis =>
      rw [mergeAll_cons] at member
      rcases List.mem_append.1 member with ofHead | ofRest
      · exact ⟨item, List.mem_cons_self, (ItemSet.merge_added (Option.mem_toList.1 ofHead)).1⟩
      · obtain ⟨source, inRest, part⟩ := inductionHypothesis ofRest
        exact ⟨source, List.mem_cons_of_mem item inRest, part⟩

theorem mergeAll_covered (records : (mergeAll set items).1.Records fact) :
    set.Records fact ∨ ∃ added ∈ (mergeAll set items).2, added.Records fact := by
  induction items generalizing set with
  | nil => exact .inl records
  | cons item rest inductionHypothesis =>
      rw [mergeAll_cons] at records ⊢
      rcases inductionHypothesis records with merged | ⟨added, member, ofAdded⟩
      · rcases ItemSet.merge_covered merged with before | ⟨added, isNew, ofAdded⟩
        · exact .inl before
        · exact .inr ⟨added, List.mem_append_left _ (Option.mem_toList.2 isNew), ofAdded⟩
      · exact .inr ⟨added, List.mem_append_right _ member, ofAdded⟩

/-- The recorded facts among those of `possible`. -/
def population (possible : Finset Fact) (set : ItemSet) : Finset Fact :=
  possible.filter fun fact => set.Records fact

theorem population_subset (possible : Finset Fact) (set : ItemSet) :
    population possible set ⊆ possible :=
  Finset.filter_subset _ _

private theorem population_merge {possible : Finset Fact} {item : Item}
    (inPossible : ∀ fact, item.Records fact → fact ∈ possible) :
    (population possible set).card + (set.merge item).2.toList.length ≤
      (population possible (set.merge item).1).card := by
  have grows : population possible set ⊆ population possible (set.merge item).1 := by
    intro fact member
    have ⟨possibleFact, records⟩ := Finset.mem_filter.1 member
    exact Finset.mem_filter.2 ⟨possibleFact, ItemSet.records_merge.2 (.inl records)⟩
  cases isNew : (set.merge item).2 with
  | none => exact Finset.card_le_card grows
  | some added =>
      obtain ⟨part, fact, ofAdded, missing⟩ := ItemSet.merge_added isNew
      have ofItem := part fact ofAdded
      apply Finset.card_lt_card
      refine (Finset.ssubset_iff_of_subset grows).2 ⟨fact, ?_, ?_⟩
      · exact Finset.mem_filter.2 ⟨inPossible fact ofItem, ItemSet.records_merge.2 (.inr ofItem)⟩
      · exact fun before => missing (Finset.mem_filter.1 before).2

/-- Each item that is listed as new accounts for another fact. -/
theorem population_mergeAll {possible : Finset Fact}
    (inPossible : ∀ item ∈ items, ∀ fact, item.Records fact → fact ∈ possible) :
    (population possible set).card + (mergeAll set items).2.length ≤
      (population possible (mergeAll set items).1).card := by
  induction items generalizing set with
  | nil => exact Nat.le_refl _
  | cons item rest inductionHypothesis =>
      have first : (population possible set).card + (set.merge item).2.toList.length ≤
          (population possible (set.merge item).1).card :=
        population_merge (inPossible item List.mem_cons_self)
      have others : (population possible (set.merge item).1).card +
          (mergeAll (set.merge item).1 rest).2.length ≤
            (population possible (mergeAll (set.merge item).1 rest).1).card :=
        inductionHypothesis fun other inRest =>
          inPossible other (List.mem_cons_of_mem item inRest)
      rw [mergeAll_cons]
      simp only [List.length_append]
      omega

theorem length_mergeAll_added (set : ItemSet) (items : List Item) :
    (mergeAll set items).2.length ≤ items.length := by
  induction items generalizing set with
  | nil => exact Nat.le_refl _
  | cons item rest inductionHypothesis =>
      have first : (set.merge item).2.toList.length ≤ 1 := by
        cases (set.merge item).2 <;> simp
      have others := inductionHypothesis (set.merge item).1
      rw [mergeAll_cons, List.length_append, List.length_cons]
      omega

end Closure

end CanonicalLR
