import CanonicalLR.ItemSet

/-!
Contract: items in their order as wholes.

Owns:
- sets of items that may hold a core several times, with removal, insertion and the first
  member from a bound on;
- look-up of a core from its bound without lookahead, and merging by removal and insertion;
- that on item sets these come to what look-up by core and merging come to.

Does not own: what a sequence of merges makes.
-/

namespace CanonicalLR

/-! ### The order of items -/

/-- A set is never below the empty one. -/
theorem NameSet.compare_empty_ne_lt (set : NameSet) : compare set ∅ ≠ .lt := by
  obtain ⟨names, ascending⟩ := set
  show compare names [] ≠ .lt
  cases names with
  | nil => decide
  | cons name rest => simp [compare, List.compareLex]

namespace Item

theorem compare_eq_lt_of_core {left right : Item}
    (below : compare left.toCore right.toCore = .lt) : compare left right = .lt := by
  show (compare left.toCore right.toCore).then _ = .lt
  rw [below]
  rfl

/-- Without its lookahead, an item bounds the items of its core from below, and no others of
them. -/
theorem compare_bare_eq_lt_iff {item other : Item} :
    compare other { item with lookahead := ∅ } = .lt ↔
      compare other.toCore item.toCore = .lt := by
  show (compare other.toCore item.toCore).then (compare other.lookahead ∅) = .lt ↔ _
  have bare := other.lookahead.compare_empty_ne_lt
  cases compare other.toCore item.toCore with
  | lt => simp
  | eq => simpa using bare
  | gt => simp

end Item

/-! ### Sets of items as wholes -/

/-- A set of items in their order as wholes. Items of one core may differ in their lookahead. -/
structure OrderedItems where
  items : List Item
  ascending : Ascending id items

namespace OrderedItems

instance : EmptyCollection OrderedItems where
  emptyCollection := ⟨[], Ascending.nil⟩

instance : Membership Item OrderedItems where
  mem set item := item ∈ set.items

def insert (set : OrderedItems) (item : Item) : OrderedItems :=
  ⟨Ascending.place id item set.items, Ascending.place_ascending item set.ascending⟩

def remove (set : OrderedItems) (item : Item) : OrderedItems :=
  ⟨set.items.filter (· ≠ item), set.ascending.filter _⟩

/-- The first item that is not below the bound. -/
def firstFrom? (set : OrderedItems) (bound : Item) : Option Item :=
  set.items.find? fun item => compare item bound ≠ .lt

/-- The first item from the core without lookahead on, if it has the core. -/
def getCore? (set : OrderedItems) (item : Item) : Option Item :=
  (set.firstFrom? { item with lookahead := ∅ }).filter (·.sameCore item)

/-- Insert `item`, or exchange the item of its core for one with both lookaheads. The second
result is the part of `item` that is new. -/
def merge (set : OrderedItems) (item : Item) : OrderedItems × Option Item :=
  match set.getCore? item with
  | none => (set.insert item, some item)
  | some present =>
      let added := item.lookahead \ present.lookahead
      if added.isEmpty then
        (set, none)
      else
        ((set.remove present).insert { present with lookahead := present.lookahead ∪ added },
          some { item with lookahead := added })

/-- The set that merging the items from left to right makes of the empty set. -/
def ofList (items : List Item) : OrderedItems :=
  items.foldl (fun set item => (set.merge item).1) ∅

variable {set : OrderedItems} {item other : Item}

@[ext] theorem ext {left right : OrderedItems}
    (sameMembers : ∀ item, item ∈ left ↔ item ∈ right) : left = right := by
  have sameItems : left.items = right.items :=
    Ascending.ext left.ascending right.ascending sameMembers
  cases left
  cases right
  cases sameItems
  rfl

@[simp] theorem mem_items : item ∈ set.items ↔ item ∈ set :=
  Iff.rfl

@[simp] theorem mem_insert : other ∈ set.insert item ↔ other = item ∨ other ∈ set := by
  refine (Ascending.mem_place set.ascending).trans ?_
  by_cases same : other = item <;> simp [same]

@[simp] theorem mem_remove : other ∈ set.remove item ↔ other ∈ set ∧ other ≠ item := by
  show other ∈ set.items.filter (· ≠ item) ↔ _
  simp

end OrderedItems

/-! ### Item sets in the order of their items -/

namespace ItemSet

variable {set : ItemSet} {item other : Item}

/-- As the cores ascend, so do the items as wholes. -/
def ordered (set : ItemSet) : OrderedItems :=
  ⟨set.items, set.ascending.imp Item.compare_eq_lt_of_core⟩

@[simp] theorem mem_ordered : item ∈ set.ordered ↔ item ∈ set :=
  Iff.rfl

theorem mem_place : other ∈ set.place item ↔
    other = item ∨ (other ∈ set ∧ other.toCore ≠ item.toCore) :=
  Ascending.mem_place set.ascending

/-- The first item from the core without lookahead on is the item with the core. -/
theorem getCore?_ordered (set : ItemSet) (item : Item) :
    set.ordered.getCore? item = set.find? item.toCore := by
  obtain ⟨items, ascending⟩ := set
  show (items.find? fun other => compare other { item with lookahead := ∅ } ≠ .lt).filter
    (·.sameCore item) = Ascending.find? Item.toCore item.toCore items
  clear ascending
  induction items with
  | nil => rfl
  | cons head rest inductionHypothesis =>
      rw [List.find?_cons]
      cases order : compare item.toCore head.toCore with
      | lt =>
          have above : compare head.toCore item.toCore = .gt := Std.OrientedCmp.gt_of_lt order
          have different : head.toCore ≠ item.toCore := by
            intro same
            rw [same, Std.ReflOrd.compare_self] at above
            contradiction
          simp [Item.compare_bare_eq_lt_iff, Ascending.find?, order, above, Item.sameCore,
            different]
      | eq =>
          have same : item.toCore = head.toCore := Std.LawfulEqOrd.eq_of_compare order
          simp [Item.compare_bare_eq_lt_iff, Ascending.find?, Item.sameCore, same]
      | gt =>
          have below : compare head.toCore item.toCore = .lt := Std.OrientedCmp.lt_of_gt order
          simpa [Item.compare_bare_eq_lt_iff, Ascending.find?, order, below] using
            inductionHypothesis

theorem insert_ordered (absent : set.find? item.toCore = none) :
    set.ordered.insert item = (set.place item).ordered := by
  ext other
  have different : other ∈ set → other.toCore ≠ item.toCore := by
    intro member same
    rw [find?_eq_some_iff.2 ⟨member, same⟩] at absent
    contradiction
  rw [OrderedItems.mem_insert, mem_ordered, mem_ordered, mem_place,
    and_iff_left_of_imp different]

/-- To remove the item of a core and insert another one of it is to exchange them. -/
theorem insert_remove_ordered {present : Item} (found : set.find? item.toCore = some present) :
    (set.ordered.remove present).insert item = (set.place item).ordered := by
  ext other
  have elsewhere (member : other ∈ set) : other ≠ present ↔ other.toCore ≠ item.toCore := by
    refine not_congr ⟨fun same => same ▸ (find?_eq_some_iff.1 found).2, fun same => ?_⟩
    have foundOther := find?_eq_some_iff.2 ⟨member, same⟩
    rw [found] at foundOther
    exact (Option.some.inj foundOther).symm
  rw [OrderedItems.mem_insert, OrderedItems.mem_remove, mem_ordered, mem_ordered, mem_place,
    and_congr_right elsewhere]

/-- Merging by removal and insertion comes to merging by core. -/
theorem merge_ordered (set : ItemSet) (item : Item) :
    set.ordered.merge item = ((set.merge item).1.ordered, (set.merge item).2) := by
  unfold OrderedItems.merge merge
  rw [getCore?_ordered]
  cases found : set.find? item.toCore with
  | none => simp only [insert_ordered found]
  | some present =>
      have sameCore : present.toCore = item.toCore := (find?_eq_some_iff.1 found).2
      simp only
      split
      case isTrue => rfl
      case isFalse =>
        rw [insert_remove_ordered (sameCore ▸ found)]

private theorem foldl_merge_ordered (items : List Item) (set : ItemSet) :
    items.foldl (fun set item => (set.merge item).1) set.ordered =
      (items.foldl (fun set item => (set.merge item).1) set).ordered := by
  induction items generalizing set with
  | nil => rfl
  | cons item rest inductionHypothesis =>
      rw [List.foldl_cons, List.foldl_cons, merge_ordered, inductionHypothesis]

theorem ofList_ordered (items : List Item) :
    OrderedItems.ofList items = (ofList items).ordered :=
  foldl_merge_ordered items ∅

end ItemSet

end CanonicalLR
