/-!
Contract: lists of distinct names in the order of their first encounter.

Owns:
- appending a name unless it is there, and removal that keeps the order;
- collecting the distinct names of any list.

Does not own: sorted collections of names.
-/

namespace CanonicalLR

/-- Distinct names in the order in which they were first encountered. -/
structure NameList where
  names : List String
  distinct : names.Nodup

namespace NameList

instance : DecidableEq NameList := fun left right =>
  if same : left.names = right.names then
    .isTrue (by cases left; cases right; cases same; rfl)
  else
    .isFalse fun equal => same (congrArg names equal)

instance : EmptyCollection NameList where
  emptyCollection := ⟨[], List.nodup_nil⟩

instance : Membership String NameList where
  mem list name := name ∈ list.names

instance (name : String) (list : NameList) : Decidable (name ∈ list) :=
  inferInstanceAs (Decidable (name ∈ list.names))

/-- Append `name` unless it is already there. -/
def add (list : NameList) (name : String) : NameList :=
  if present : name ∈ list.names then
    list
  else
    ⟨list.names ++ [name], by
      rw [List.nodup_append]
      refine ⟨list.distinct, by simp, fun other member last inSingle => ?_⟩
      rw [List.mem_singleton] at inSingle
      exact fun same => present (inSingle ▸ same ▸ member)⟩

/-- Remove `name`; the other names keep their order. -/
def remove (list : NameList) (name : String) : NameList :=
  ⟨list.names.filter (· ≠ name), list.distinct.filter _⟩

def ofList (names : List String) : NameList :=
  names.foldl add ∅

@[simp] theorem mem_names {list : NameList} {name : String} :
    name ∈ list.names ↔ name ∈ list :=
  Iff.rfl

@[simp] theorem not_mem_empty (name : String) : name ∉ (∅ : NameList) :=
  List.not_mem_nil

@[simp] theorem mem_add {list : NameList} {name other : String} :
    other ∈ list.add name ↔ other ∈ list ∨ other = name := by
  unfold add
  split
  case isTrue present =>
    exact ⟨.inl, fun either => either.elim id fun same => same ▸ present⟩
  case isFalse => exact List.mem_append.trans (or_congr_right List.mem_singleton)

@[simp] theorem mem_remove {list : NameList} {name other : String} :
    other ∈ list.remove name ↔ other ∈ list ∧ other ≠ name := by
  change other ∈ list.names.filter (· ≠ name) ↔ _
  simp

@[simp] theorem mem_ofList {names : List String} {name : String} :
    name ∈ ofList names ↔ name ∈ names := by
  suffices general : ∀ list : NameList, name ∈ names.foldl add list ↔ name ∈ list ∨ name ∈ names by
    simpa [ofList] using general ∅
  induction names with
  | nil => simp
  | cons head rest inductionHypothesis =>
      intro list
      rw [List.foldl_cons, inductionHypothesis, mem_add, List.mem_cons]
      simp only [or_assoc]

end NameList

end CanonicalLR
