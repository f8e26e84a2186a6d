import CanonicalLR.Ascending.Combination

/-!
Contract: finite sets of names in ascending order.

Owns:
- insertion, union, difference and membership;
- the lexicographic order of two sets by their ascending members;
- extensionality: equal members make equal sets.

Does not own: whether a name is a terminal or a nonterminal.

Names are ordered by code points, which is the order of `String`.
-/

namespace CanonicalLR

/-- A finite set of names; its members are listed once each, in ascending order. -/
structure NameSet where
  names : List String
  ascending : Ascending id names

namespace NameSet

instance : DecidableEq NameSet := fun left right =>
  if same : left.names = right.names then
    .isTrue (by cases left; cases right; cases same; rfl)
  else
    .isFalse fun equal => same (congrArg names equal)

instance : Hashable NameSet where
  hash set := hash set.names

instance : Membership String NameSet where
  mem set name := name ∈ set.names

instance (name : String) (set : NameSet) : Decidable (name ∈ set) :=
  inferInstanceAs (Decidable (name ∈ set.names))

instance : EmptyCollection NameSet where
  emptyCollection := ⟨[], Ascending.nil⟩

def insert (set : NameSet) (name : String) : NameSet :=
  ⟨Ascending.place id name set.names, Ascending.place_ascending name set.ascending⟩

instance : Singleton String NameSet where
  singleton name := insert ∅ name

def ofList (names : List String) : NameSet :=
  names.foldl insert ∅

def size (set : NameSet) : Nat :=
  set.names.length

def isEmpty (set : NameSet) : Bool :=
  set.names.isEmpty

/-- The members in ascending order, separated by a comma and a space. -/
def text (set : NameSet) : String :=
  ", ".intercalate set.names

instance : Union NameSet where
  union left right :=
    ⟨Ascending.unite left.names right.names,
      Ascending.unite_ascending left.ascending right.ascending⟩

/-- The members of `left` that `right` lacks. -/
instance : SDiff NameSet where
  sdiff left right :=
    ⟨Ascending.subtract left.names right.names,
      Ascending.subtract_ascending right.names left.ascending⟩

/-- Sets compare by their ascending members, the empty set first. -/
instance : Ord NameSet where
  compare left right := compare left.names right.names

@[ext] theorem ext {left right : NameSet}
    (sameMembers : ∀ name, name ∈ left ↔ name ∈ right) : left = right := by
  have sameNames : left.names = right.names :=
    Ascending.ext left.ascending right.ascending sameMembers
  cases left
  cases right
  cases sameNames
  rfl

@[simp] theorem not_mem_empty (name : String) : name ∉ (∅ : NameSet) :=
  List.not_mem_nil

@[simp] theorem mem_names {set : NameSet} {name : String} :
    name ∈ set.names ↔ name ∈ set :=
  Iff.rfl

@[simp] theorem mem_insert {set : NameSet} {name other : String} :
    other ∈ set.insert name ↔ other = name ∨ other ∈ set := by
  refine (Ascending.mem_place set.ascending).trans ?_
  by_cases same : other = name <;> simp [same]

@[simp] theorem mem_singleton {name other : String} :
    other ∈ ({name} : NameSet) ↔ other = name := by
  change other ∈ insert ∅ name ↔ _
  simp

private theorem mem_foldl_insert {names : List String} {set : NameSet} {other : String} :
    other ∈ names.foldl insert set ↔ other ∈ set ∨ other ∈ names := by
  induction names generalizing set with
  | nil => simp
  | cons head rest inductionHypothesis =>
      rw [List.foldl_cons, inductionHypothesis, mem_insert, List.mem_cons]
      simp only [or_assoc, or_left_comm]

@[simp] theorem mem_ofList {names : List String} {other : String} :
    other ∈ ofList names ↔ other ∈ names := by
  simp [ofList, mem_foldl_insert]

@[simp] theorem mem_union {left right : NameSet} {other : String} :
    other ∈ left ∪ right ↔ other ∈ left ∨ other ∈ right :=
  Ascending.mem_unite

@[simp] theorem mem_sdiff {left right : NameSet} {other : String} :
    other ∈ left \ right ↔ other ∈ left ∧ other ∉ right :=
  Ascending.mem_subtract left.ascending right.ascending

theorem isEmpty_iff {set : NameSet} : set.isEmpty = true ↔ ∀ name, name ∉ set := by
  rw [isEmpty, List.isEmpty_iff]
  exact List.eq_nil_iff_forall_not_mem

instance : Std.TransOrd NameSet where
  eq_swap := Std.OrientedOrd.eq_swap (α := List String)
  isLE_trans := Std.TransOrd.isLE_trans (α := List String)

instance : Std.LawfulEqOrd NameSet where
  eq_of_compare {left right} equal := by
    have sameNames : left.names = right.names := Std.LawfulEqOrd.eq_of_compare equal
    cases left
    cases right
    cases sameNames
    rfl

end NameSet

end CanonicalLR
