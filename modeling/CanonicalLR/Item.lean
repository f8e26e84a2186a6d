import CanonicalLR.Name.Set
import CanonicalLR.Production

/-!
Contract: LR(1) items, their order and their written form.

Owns:
- the core of an item, which is a production with a dot, and its lookahead;
- the movement of the dot and the symbol behind it;
- the order of items: by core first, so that items of one core are neighbours.

Does not own: sets of items.

A core holds copies of both sides of its production, so it is meaningful without
a grammar. The dot may stand beyond the end of the right-hand side.
-/

namespace CanonicalLR

/-- To compare by a view is transitive when the values of the view are ordered. -/
theorem transCmp_compareOn {Value View : Type} [Ord View] [Std.TransOrd View]
    (view : Value → View) : Std.TransCmp (compareOn view) where
  eq_swap := Std.OrientedOrd.eq_swap (α := View)
  isLE_trans := Std.TransOrd.isLE_trans (α := View)

structure Core where
  production : Nat
  lhs : String
  rhs : List Symbol
  dot : Nat
deriving DecidableEq, Hashable

namespace Core

/-- The symbol behind the dot. -/
def next? (core : Core) : Option Symbol :=
  core.rhs[core.dot]?

/-- The symbol after the one behind the dot. -/
def afterNext? (core : Core) : Option Symbol :=
  core.rhs[core.dot + 1]?

/-- Whether the dot stands at the end of the right-hand side. -/
def isComplete (core : Core) : Bool :=
  core.dot = core.rhs.length

/-- The left-hand side, an arrow and the right-hand side with a bullet at the
dot. A dot beyond the end is not shown. -/
def text (core : Core) : String :=
  let before := spacedText (core.rhs.take core.dot)
  let bullet := if core.dot ≤ core.rhs.length then " •" else ""
  let behind := spacedText (core.rhs.drop core.dot)
  "<" ++ core.lhs ++ "> →" ++ before ++ bullet ++ behind

/-- Cores compare by production, left-hand side, right-hand side and dot. -/
instance : Ord Core where
  compare left right :=
    ((compare left.production right.production).then (compare left.lhs right.lhs)).then
      ((compare left.rhs right.rhs).then (compare left.dot right.dot))

instance : Std.TransOrd Core :=
  have := transCmp_compareOn production
  have := transCmp_compareOn lhs
  have := transCmp_compareOn rhs
  have := transCmp_compareOn dot
  inferInstanceAs (Std.TransCmp (compareLex
    (compareLex (compareOn production) (compareOn lhs))
    (compareLex (compareOn rhs) (compareOn dot))))

instance : Std.LawfulEqOrd Core where
  eq_of_compare {left right} equal := by
    change ((compare left.production right.production).then (compare left.lhs right.lhs)).then
      ((compare left.rhs right.rhs).then (compare left.dot right.dot)) = .eq at equal
    simp only [Ordering.then_eq_eq, Std.compare_eq_iff_eq] at equal
    obtain ⟨⟨sameProduction, sameLhs⟩, sameRhs, sameDot⟩ := equal
    cases left
    cases right
    simp_all

end Core

structure Item extends Core where
  lookahead : NameSet
deriving DecidableEq, Hashable

namespace Item

/-- The item of a production with the dot before the first symbol. -/
def start (index : Nat) (production : Production) (lookahead : NameSet) : Item where
  production := index
  lhs := production.lhs
  rhs := production.rhs
  dot := 0
  lookahead := lookahead

/-- Move the dot by `count` symbols. -/
def advanceBy (item : Item) (count : Nat) : Item :=
  { item with dot := item.dot + count }

/-- Move the dot over the next symbol. -/
def advance (item : Item) : Item :=
  item.advanceBy 1

def sameCore (left right : Item) : Bool :=
  left.toCore = right.toCore

def text (item : Item) : String :=
  item.toCore.text ++ " \x7b" ++ item.lookahead.text ++ "\x7d"

/-- Items compare by core, and within a core by lookahead. -/
instance : Ord Item where
  compare left right :=
    (compare left.toCore right.toCore).then (compare left.lookahead right.lookahead)

instance : Std.TransOrd Item :=
  have := transCmp_compareOn toCore
  have := transCmp_compareOn lookahead
  inferInstanceAs (Std.TransCmp (compareLex (compareOn toCore) (compareOn lookahead)))

instance : Std.LawfulEqOrd Item where
  eq_of_compare {left right} equal := by
    change (compare left.toCore right.toCore).then
      (compare left.lookahead right.lookahead) = .eq at equal
    simp only [Ordering.then_eq_eq, Std.compare_eq_iff_eq] at equal
    cases left
    cases right
    simp_all

/-- The items of a list in ascending order, each as often as it occurs. -/
def sort (items : List Item) : List Item :=
  items.mergeSort fun left right => (compare left right).isLE

end Item

end CanonicalLR
