import CanonicalLR.Proofs.Closure.Fact
import CanonicalLR.Proofs.ItemSet.Ordered

/-!
Contract: item sets as finite maps from cores to lookaheads.

Owns:
- the map that a list of items stands for, which has the union of their lookaheads under each
  core;
- what one more merge answers, and what it leaves alone;
- that the items and their number of occurrences determine the set, in whatever order they are
  merged, and that the map determines it.

Does not own: the order of items as wholes.
-/

namespace CanonicalLR

namespace ItemSet

/-- The set holds the cores of `items`, each once and in the order of items, with the terminals of
all items that have the core. -/
structure Unites (set : ItemSet) (items : List Item) : Prop where
  ascending : Ascending id set.items
  cores_nodup : (set.items.map Item.toCore).Nodup
  getCore?_eq_find? : ∀ item, set.ordered.getCore? item = set.find? item.toCore
  exists_stored_iff : ∀ core,
    (∃ stored, set.find? core = some stored) ↔ ∃ item ∈ items, item.toCore = core
  of_stored : ∀ core stored, set.find? core = some stored →
    stored ∈ set ∧ stored.toCore = core ∧ ∀ terminal, terminal ∈ stored.lookahead ↔
      ∃ item ∈ items, item.toCore = core ∧ terminal ∈ item.lookahead

/-- What merging `item` into the set makes of the set, and answers: all of `item` if its core is
new, else what is new of its lookahead, and nothing if the set stays as it is. -/
structure Merges (set : ItemSet) (item : Item) (outcome : ItemSet × Option Item) : Prop where
  ordered : set.ordered.merge item = (outcome.1.ordered, outcome.2)
  of_newCore : set.find? item.toCore = none → outcome.2 = some item
  of_stored : ∀ stored added, set.find? item.toCore = some stored → outcome.2 = some added →
    added.toCore = item.toCore ∧ ∀ terminal, terminal ∈ added.lookahead ↔
      terminal ∈ item.lookahead ∧ terminal ∉ stored.lookahead
  none_iff : outcome.2 = none ↔ outcome.1 = set
  elsewhere : ∀ core, core ≠ item.toCore → outcome.1.find? core = set.find? core

variable {set : ItemSet} {item : Item} {items : List Item}

theorem unites_ofList (items : List Item) : (ofList items).Unites items where
  ascending := (ofList items).ordered.ascending
  cores_nodup := (ofList items).cores_nodup
  getCore?_eq_find? := (ofList items).getCore?_ordered
  exists_stored_iff core := by
    have records : (ofList items).Records (core, none) ↔ _ := records_ofList
    simpa [records_iff_find?] using records
  of_stored core stored found := by
    have ⟨member, sameCore⟩ := find?_eq_some_iff.1 found
    refine ⟨member, sameCore, fun terminal => ?_⟩
    have records : (ofList items).Records (core, some terminal) ↔ _ := records_ofList
    simpa [records_iff_find?, found] using records

/-- Nothing is new exactly when the set stays as it is. -/
theorem merge_eq_none_iff : (set.merge item).2 = none ↔ (set.merge item).1 = set := by
  constructor
  · intro nothing
    unfold merge at nothing ⊢
    cases found : set.find? item.toCore with
    | none => simp [found] at nothing
    | some stored =>
        simp only [found] at nothing ⊢
        split at nothing
        case isTrue old => rw [if_pos old]
        case isFalse => contradiction
  · intro unchanged
    by_contra something
    obtain ⟨added, isNew⟩ := Option.ne_none_iff_exists'.1 something
    obtain ⟨ofItem, fact, ofAdded, missing⟩ := merge_added isNew
    have records : (set.merge item).1.Records fact := records_merge.2 (.inr (ofItem fact ofAdded))
    rw [unchanged] at records
    exact missing records

theorem merges_merge (set : ItemSet) (item : Item) : set.Merges item (set.merge item) where
  ordered := set.merge_ordered item
  of_newCore absent := by rw [merge, absent]
  of_stored stored added found isNew := by
    unfold merge at isNew
    simp only [found] at isNew
    split at isNew
    · contradiction
    · cases isNew
      exact ⟨rfl, fun terminal => NameSet.mem_sdiff⟩
  none_iff := merge_eq_none_iff
  elsewhere core different := by rw [find?_merge, if_neg different]

/-- The order in which items are merged leaves no trace. -/
theorem ofList_eq_of_perm {others : List Item} (permutation : items.Perm others) :
    ofList items = ofList others := by
  refine ext_records fun fact => ?_
  simp only [records_ofList, permutation.mem_iff]

theorem eq_iff_getCore? {left right : ItemSet} :
    left = right ↔ ∀ item, left.ordered.getCore? item = right.ordered.getCore? item := by
  constructor
  · rintro rfl item
    rfl
  · intro same
    ext core : 1
    simpa only [getCore?_ordered] using same ⟨core, ∅⟩

/-- Merging items one after the other makes a finite map from their cores to the unions of their
lookaheads. It is the set that removal and insertion of items as wholes make, and there the
first item from a core on is the one that is stored under it. A further merge answers what it
adds and touches one core. Neither the order of the items nor anything but the map is left
in the set. -/
theorem finiteMap_of_merges (items : List Item) :
    OrderedItems.ofList items = (ofList items).ordered ∧
      (ofList items).Unites items ∧
      (∀ item, (ofList items).Merges item ((ofList items).merge item)) ∧
      (∀ others, items.Perm others → ofList items = ofList others) ∧
      ∀ other : ItemSet, ofList items = other ↔
        ∀ item, (ofList items).ordered.getCore? item = other.ordered.getCore? item :=
  ⟨ofList_ordered items, unites_ofList items, merges_merge (ofList items),
    fun _ permutation => ofList_eq_of_perm permutation, fun _ => eq_iff_getCore?⟩

/-- Two items of one core around one that has another core and no lookahead. -/
theorem finiteMap_of_merges_overlapping :
    ∃ first bare again : Item, first.toCore = again.toCore ∧ bare.lookahead = ∅ ∧
      ofList [first, bare, again] = ofList [again, first, bare] ∧
      ((ofList [first]).merge bare).2 = some bare ∧
      (∃ added, ((ofList [first, bare]).merge again).2 = some added ∧
        "+" ∈ added.lookahead ∧ "eof" ∉ added.lookahead) ∧
      ((ofList [first, bare, again]).merge first).2 = none ∧
      ∃ stored, (ofList [first, bare, again]).ordered.getCore? first = some stored ∧
        "+" ∈ stored.lookahead ∧ "eof" ∈ stored.lookahead := by
  let first : Item := ⟨⟨0, "S", [.terminal "n"], 0⟩, {"eof"}⟩
  let bare : Item := ⟨⟨0, "S", [.terminal "n"], 1⟩, ∅⟩
  let again : Item := ⟨⟨0, "S", [.terminal "n"], 0⟩, .ofList ["eof", "+"]⟩
  obtain ⟨-, -, mergesOne, -, -⟩ := finiteMap_of_merges [first]
  obtain ⟨-, -, mergesTwo, -, -⟩ := finiteMap_of_merges [first, bare]
  obtain ⟨-, unites, mergesAll, permuted, -⟩ := finiteMap_of_merges [first, bare, again]
  have newCore : (ofList [first]).find? bare.toCore = none := by decide +kernel
  have stored : (ofList [first, bare]).find? again.toCore = some first := by decide +kernel
  have isNew : ((ofList [first, bare]).merge again).2 = some ⟨again.toCore, {"+"}⟩ := by
    decide +kernel
  obtain ⟨-, restricted⟩ := (mergesTwo again).of_stored _ _ stored isNew
  have unchanged : ((ofList [first, bare, again]).merge first).1 = ofList [first, bare, again] := by
    decide +kernel
  obtain ⟨united, found⟩ := (unites.exists_stored_iff first.toCore).2 ⟨first, by simp, rfl⟩
  obtain ⟨-, -, union⟩ := unites.of_stored _ _ found
  refine ⟨first, bare, again, rfl, rfl, permuted _ ?_, (mergesOne bare).of_newCore newCore,
    ⟨_, isNew, (restricted "+").2 (by decide), fun old => ?_⟩,
    (mergesAll first).none_iff.2 unchanged, united, (unites.getCore?_eq_find? first).trans found,
    (union "+").2 ⟨again, by simp, rfl, by decide⟩, (union "eof").2 ⟨first, by simp, rfl, by decide⟩⟩
  · exact (List.perm_append_comm : ([first, bare] ++ [again]).Perm ([again] ++ [first, bare]))
  · exact ((restricted "eof").1 old).2 (by decide)

end ItemSet

end CanonicalLR
