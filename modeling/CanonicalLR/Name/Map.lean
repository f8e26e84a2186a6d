import Std.Data.ExtTreeMap

/-!
Contract: finite maps from names to values.

Owns:
- look-up, insertion and removal, each with its law for look-up;
- the entries in ascending order of the names;
- extensionality: equal look-ups make equal maps.

Does not own: what a value is.
-/

namespace CanonicalLR

/-- A finite map with at most one value per name. -/
structure NameMap (Value : Type) where
  tree : Std.ExtTreeMap String Value

namespace NameMap

variable {Value : Type}

instance : EmptyCollection (NameMap Value) where
  emptyCollection := ⟨∅⟩

def get? (map : NameMap Value) (name : String) : Option Value :=
  map.tree[name]?

/-- Write `value` under `name`, in exchange for the value that was there. -/
def insert (map : NameMap Value) (name : String) (value : Value) : NameMap Value :=
  ⟨map.tree.insert name value⟩

def erase (map : NameMap Value) (name : String) : NameMap Value :=
  ⟨map.tree.erase name⟩

/-- The names with their values, in ascending order of the names. -/
def entries (map : NameMap Value) : List (String × Value) :=
  map.tree.toList

@[simp] theorem get?_empty (name : String) : (∅ : NameMap Value).get? name = none :=
  Std.ExtTreeMap.getElem?_empty

theorem get?_eq_some_iff {map : NameMap Value} {name : String} {value : Value} :
    map.get? name = some value ↔ (name, value) ∈ map.entries :=
  Std.ExtTreeMap.mem_toList_iff_getElem?_eq_some.symm

@[simp] theorem get?_insert (map : NameMap Value) (name : String) (value : Value)
    (wanted : String) :
    (map.insert name value).get? wanted = if wanted = name then some value else map.get? wanted := by
  simp only [get?, insert, Std.ExtTreeMap.getElem?_insert, Std.compare_eq_iff_eq]
  simp only [eq_comm]

@[simp] theorem get?_erase (map : NameMap Value) (name wanted : String) :
    (map.erase name).get? wanted = if wanted = name then none else map.get? wanted := by
  simp only [get?, erase, Std.ExtTreeMap.getElem?_erase, Std.compare_eq_iff_eq]
  simp only [eq_comm]

@[ext] theorem ext {left right : NameMap Value}
    (sameLookups : ∀ name, left.get? name = right.get? name) : left = right := by
  cases left
  cases right
  exact congrArg mk (Std.ExtTreeMap.ext_getElem? sameLookups)

end NameMap

end CanonicalLR
