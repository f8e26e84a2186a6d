import CanonicalLR.GenerationError
import CanonicalLR.ItemSet
import CanonicalLR.Sets

/-!
Contract: the closure of items under the productions of a grammar.

Owns:
- the items that one item calls for, and the lookahead that they receive;
- the closure of a list of seeds, which expands items first come, first served.

Does not own: the moves of the dot between item sets.

Items with equal cores are merged. A core whose lookahead has grown is expanded
again with the new terminals alone, so what depends on it grows as well.
-/

namespace CanonicalLR

namespace Closure

/-- What may follow the nonterminal behind the dot: what the next symbol starts
with, and at the end of the right-hand side whatever may follow the item. -/
def inheritedLookahead (sets : Sets) (item : Item) : NameSet :=
  match item.afterNext? with
  | some symbol => sets.firstOf symbol
  | none => item.lookahead

/-- The items that `item` calls for: with the dot before a nonterminal, those of
its productions in their order. -/
def derived (grammar : Grammar) (sets : Sets) (item : Item) :
    Except GenerationError (List Item) :=
  match item.next? with
  | some (.nonterminal name) =>
      match grammar.productionsFor name with
      | [] => .error (.undefinedNonterminal name item.lhs)
      | productions =>
          .ok (productions.map fun (index, production) =>
            Item.start index production (inheritedLookahead sets item))
  | _ => .ok []

/-- Merge the items from left to right, and list what is new of each. -/
def mergeAll (set : ItemSet) : List Item → ItemSet × List Item
  | [] => (set, [])
  | item :: rest =>
      let (merged, added?) := set.merge item
      let (final, added) := mergeAll merged rest
      (final, added?.toList ++ added)

/-- Expand the pending items and whatever that adds, at most `limit` of them. -/
def expand (grammar : Grammar) (sets : Sets) :
    Nat → ItemSet → List Item → Except GenerationError ItemSet
  | _, set, [] => .ok set
  | 0, set, _ :: _ => .ok set
  | limit + 1, set, item :: pending => do
      let items ← derived grammar sets item
      let (merged, added) := mergeAll set items
      expand grammar sets limit merged (pending ++ added)

/-- The number of terminals that can reach a lookahead from the right-hand sides
and the FIRST sets, at most. -/
def terminalLimit (grammar : Grammar) (sets : Sets) : Nat :=
  (sets.first.entries.map fun (_, first) => first.size).foldr (· + ·) 0 + grammar.rhsLengths

/-- As many items as can ever be pending: the seeds, and for each production one
item for its core and one for each terminal that can reach its lookahead. -/
def limit (grammar : Grammar) (terminals : Nat) (seeds : List Item) : Nat :=
  let inSeeds := seeds.map fun seed => seed.lookahead.size + seed.rhs.length
  seeds.length + grammar.productions.length * (inSeeds.foldr (· + ·) 0 + terminals + 1)

end Closure

/-- The closure of `seeds` when at most `terminals` terminals can reach a
lookahead from elsewhere. -/
def closeWithin (terminals : Nat) (grammar : Grammar) (sets : Sets) (seeds : List Item) :
    Except GenerationError ItemSet :=
  let (set, pending) := Closure.mergeAll ∅ seeds
  Closure.expand grammar sets (Closure.limit grammar terminals seeds) set pending

/-- The closure of `seeds`. It fails if the dot of a seed, or of an item that is
called for, stands before a nonterminal without productions. -/
def close (grammar : Grammar) (sets : Sets) (seeds : List Item) :
    Except GenerationError ItemSet :=
  closeWithin (Closure.terminalLimit grammar sets) grammar sets seeds

end CanonicalLR
