import CanonicalLR.Action
import CanonicalLR.ItemSet

/-!
Contract: what the items of a state call for.

Owns:
- the reductions of the items with nothing behind the dot;
- the moves of the dot over each symbol behind it.

Does not own: the states that the moves lead to.
-/

namespace CanonicalLR

/-- The items of a state that have one symbol behind the dot, with the dot moved
over it. `kernel` is the first of them in the order of the items. -/
structure Transition where
  symbol : Symbol
  kernel : Item
  others : List Item
deriving DecidableEq

def Transition.seeds (transition : Transition) : List Item :=
  transition.kernel :: transition.others

namespace ItemSet

/-- A reduction for each lookahead terminal of each item with nothing behind the
dot, in the order of the items. -/
def reductions (set : ItemSet) : List (String × Action) :=
  (set.items.filter fun item => item.next?.isNone).flatMap fun item =>
    item.lookahead.names.map fun terminal => (terminal, .reduce item.production)

/-- The items with `symbol` behind the dot, moved over it. -/
def advancedOver (set : ItemSet) (symbol : Symbol) : List Item :=
  (set.items.filter fun item => item.next? = some symbol).map Item.advance

/-- The move over `symbol`, if it stands behind a dot. -/
def transition? (set : ItemSet) (symbol : Symbol) : Option Transition :=
  match set.advancedOver symbol with
  | [] => none
  | kernel :: others => some ⟨symbol, kernel, others⟩

/-- The symbols behind the dots in the order of their first encounter, the
nonterminals before the terminals. -/
def nextSymbols (set : ItemSet) : List Symbol :=
  let symbols := (set.items.filterMap fun item => item.next?).eraseDups
  (symbols.filter fun symbol => symbol.nonterminal?.isSome) ++
    symbols.filter fun symbol => symbol.terminal?.isSome

def transitions (set : ItemSet) : List Transition :=
  set.nextSymbols.filterMap set.transition?

end ItemSet

end CanonicalLR
