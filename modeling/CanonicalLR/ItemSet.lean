import CanonicalLR.Ascending
import CanonicalLR.Item

/-!
Contract: sets of items with unique cores.

Owns:
- look-up by core and merging, which unites the lookaheads of equal cores;
- the law of look-up after a merge;
- extensionality: equal look-ups make equal item sets.

Does not own: closure under productions.

The items stand in ascending order of their cores. As cores are unique, that is
also their order as items.
-/

namespace CanonicalLR

/-- A finite map from cores to lookaheads, listed as items in ascending order. -/
structure ItemSet where
  items : List Item
  ascending : Ascending Item.toCore items

namespace ItemSet

instance : DecidableEq ItemSet := fun left right =>
  if same : left.items = right.items then
    .isTrue (by cases left; cases right; cases same; rfl)
  else
    .isFalse fun equal => same (congrArg items equal)

instance : Hashable ItemSet where
  hash set := hash set.items

instance : EmptyCollection ItemSet where
  emptyCollection := ⟨[], Ascending.nil⟩

instance : Membership Item ItemSet where
  mem set item := item ∈ set.items

instance (item : Item) (set : ItemSet) : Decidable (item ∈ set) :=
  inferInstanceAs (Decidable (item ∈ set.items))

def size (set : ItemSet) : Nat :=
  set.items.length

def isEmpty (set : ItemSet) : Bool :=
  set.items.isEmpty

/-- The item with the given core, found in the ascending order of the cores. -/
def find? (set : ItemSet) (core : Core) : Option Item :=
  Ascending.find? Item.toCore core set.items

/-- Put `item` in place of the item with its core. -/
def place (set : ItemSet) (item : Item) : ItemSet :=
  ⟨Ascending.place Item.toCore item set.items, Ascending.place_ascending item set.ascending⟩

/-- Add `item`, or its lookahead if its core is present. The second result is
the part of `item` that is new: all of it if its core is, otherwise the item
with the new terminals alone, and nothing if there are none. -/
def merge (set : ItemSet) (item : Item) : ItemSet × Option Item :=
  match set.find? item.toCore with
  | none => (set.place item, some item)
  | some present =>
      let added := item.lookahead \ present.lookahead
      if added.isEmpty then
        (set, none)
      else
        (set.place { present with lookahead := present.lookahead ∪ added },
          some { item with lookahead := added })

/-- The set that merging the items from left to right makes of the empty set. -/
def ofList (items : List Item) : ItemSet :=
  items.foldl (fun set item => (set.merge item).1) ∅

theorem find?_eq_some_iff {set : ItemSet} {core : Core} {item : Item} :
    set.find? core = some item ↔ item ∈ set ∧ item.toCore = core :=
  Ascending.find?_eq_some_iff set.ascending

@[simp] theorem find?_place (set : ItemSet) (item : Item) (core : Core) :
    (set.place item).find? core = if core = item.toCore then some item else set.find? core := by
  simp only [find?, place, Ascending.find?_place, Std.compare_eq_iff_eq]

/-- A merge unites the lookaheads under the core of `item` and changes nothing
under any other core. -/
theorem find?_merge (set : ItemSet) (item : Item) (core : Core) :
    (set.merge item).1.find? core =
      if core = item.toCore then
        some { item with
          lookahead := ((set.find? core).map Item.lookahead).getD ∅ ∪ item.lookahead }
      else
        set.find? core := by
  unfold merge
  split
  case h_1 absent =>
    by_cases same : core = item.toCore
    · have union : ∅ ∪ item.lookahead = item.lookahead := by
        ext name
        simp
      simp [same, absent, union]
    · simp [same]
  case h_2 present found =>
    have sameCore : present.toCore = item.toCore := (find?_eq_some_iff.1 found).2
    simp only
    split
    case isTrue nothing =>
      by_cases same : core = item.toCore
      · have union : present.lookahead ∪ item.lookahead = present.lookahead := by
          ext name
          have := NameSet.isEmpty_iff.1 nothing name
          simp only [NameSet.mem_sdiff, not_and, Decidable.not_not] at this
          simpa using this
        subst same
        simp only [found, if_true, Option.map_some, Option.getD_some, union]
        rw [← sameCore]
      · simp [same]
    case isFalse =>
      by_cases same : core = item.toCore
      · have union : present.lookahead ∪ (item.lookahead \ present.lookahead) =
            present.lookahead ∪ item.lookahead := by
          ext name
          by_cases member : name ∈ present.lookahead <;> simp [member]
        simp [same, found, union, sameCore]
      · simp [same, sameCore]

@[ext] theorem ext {left right : ItemSet}
    (sameLookups : ∀ core, left.find? core = right.find? core) : left = right := by
  have sameItems : left.items = right.items :=
    Ascending.ext left.ascending right.ascending fun item => by
      have := sameLookups item.toCore
      constructor
      · intro member
        exact (find?_eq_some_iff.1 (this ▸ find?_eq_some_iff.2 ⟨member, rfl⟩)).1
      · intro member
        exact (find?_eq_some_iff.1 (this ▸ find?_eq_some_iff.2 ⟨member, rfl⟩)).1
  cases left
  cases right
  cases sameItems
  rfl

end ItemSet

end CanonicalLR
