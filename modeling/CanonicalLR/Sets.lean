import CanonicalLR.Grammar.Basic
import CanonicalLR.Name.Map
import CanonicalLR.Name.Set

/-!
Contract: the FIRST and FOLLOW sets of a grammar.

Owns:
- the equations of both families of sets as passes over the productions;
- their solution by passes until nothing grows, and the number of passes.

Does not own: the lookaheads of items.

FIRST of a nonterminal collects what the first symbols of its right-hand sides
start with, so an empty right-hand side adds nothing. A pass lets each equation
see what the equations before it have added.
-/

namespace CanonicalLR

/-- The set under `name`, which is empty for a name without an entry. -/
def NameMap.setOf (sets : NameMap NameSet) (name : String) : NameSet :=
  (sets.get? name).getD ∅

/-- What `symbol` starts with when `first` tells it for nonterminals. A terminal
starts with itself. -/
def firstOf (first : NameMap NameSet) : Symbol → NameSet
  | .terminal name => {name}
  | .nonterminal name => first.setOf name

/-- Sets on the way to a solution; `grew` tells whether the pass has added a
member so far. -/
structure Growth where
  sets : NameMap NameSet
  grew : Bool

/-- Add to the set under `name`, which gets an entry even if nothing is added. -/
def Growth.add (growth : Growth) (name : String) (additions : NameSet) : Growth :=
  let present := growth.sets.setOf name
  let missing := additions \ present
  if missing.isEmpty then
    { growth with sets := growth.sets.insert name present }
  else
    ⟨growth.sets.insert name (present ∪ missing), true⟩

/-- One pass of the FIRST equations, in the order of the productions. -/
def firstPass (grammar : Grammar) (first : NameMap NameSet) : Growth :=
  grammar.productions.foldl
    (fun growth production =>
      growth.add production.lhs
        (match production.rhs.head? with
          | some symbol => firstOf growth.sets symbol
          | none => ∅))
    ⟨first, false⟩

/-- A nonterminal on the right-hand side of a production of `lhs`, with the
symbol after it. -/
structure Occurrence where
  lhs : String
  nonterminal : String
  next? : Option Symbol

def occurrencesIn (lhs : String) : List Symbol → List Occurrence
  | [] => []
  | .terminal _ :: rest => occurrencesIn lhs rest
  | .nonterminal name :: rest => ⟨lhs, name, rest.head?⟩ :: occurrencesIn lhs rest

/-- The occurrences of nonterminals in the order of the text. -/
def Grammar.occurrences (grammar : Grammar) : List Occurrence :=
  grammar.productions.flatMap fun production => occurrencesIn production.lhs production.rhs

/-- One pass of the FOLLOW equations, in the order of the text. A nonterminal is
followed by what the next symbol starts with, and at the end of a right-hand
side by what follows the left-hand side. -/
def followPass (grammar : Grammar) (first follow : NameMap NameSet) : Growth :=
  grammar.occurrences.foldl
    (fun growth occurrence =>
      growth.add occurrence.nonterminal
        (match occurrence.next? with
          | some symbol => firstOf first symbol
          | none => growth.sets.setOf occurrence.lhs))
    ⟨follow, false⟩

/-- Repeat `pass` until it adds nothing, and count the passes. -/
def saturate (pass : NameMap NameSet → Growth) : Nat → NameMap NameSet → NameMap NameSet × Nat
  | 0, sets => (sets, 0)
  | limit + 1, sets =>
      let growth := pass sets
      if growth.grew then
        let (solution, passes) := saturate pass limit growth.sets
        (solution, passes + 1)
      else
        (growth.sets, 1)

namespace Grammar

/-- The end marker and the terminals on the right-hand sides. No other terminal
ever becomes a member of a set. -/
def alphabet (grammar : Grammar) : NameSet :=
  (NameSet.ofList
    (grammar.productions.flatMap fun production =>
      production.rhs.filterMap Symbol.terminal?)).insert
    grammar.endMarker

/-- The number of symbols on all right-hand sides. -/
def rhsLengths (grammar : Grammar) : Nat :=
  (grammar.productions.map fun production => production.rhs.length).foldr (· + ·) 0

/-- More than there are pairs of a name that can get a set and a terminal that
can become its member. Each pass but the last one adds such a pair. -/
def passLimit (grammar : Grammar) : Nat :=
  (grammar.nonterminals.names.length + grammar.productions.length + grammar.rhsLengths) *
    grammar.alphabet.size + 1

/-- An empty set for each listed nonterminal. -/
def emptySets (grammar : Grammar) : NameMap NameSet :=
  grammar.nonterminals.names.foldl (fun sets name => sets.insert name ∅) ∅

/-- The end of input follows the start symbol, provided that it is listed. -/
def followSeed (grammar : Grammar) : NameMap NameSet :=
  if grammar.start ∈ grammar.nonterminals then
    grammar.emptySets.insert grammar.start {grammar.endMarker}
  else
    grammar.emptySets

/-- The FIRST sets and the number of passes that they took. -/
def firstSolution (grammar : Grammar) : NameMap NameSet × Nat :=
  saturate (firstPass grammar) grammar.passLimit grammar.emptySets

/-- The FOLLOW sets for given FIRST sets and the number of passes that they took. -/
def followSolution (grammar : Grammar) (first : NameMap NameSet) : NameMap NameSet × Nat :=
  saturate (followPass grammar first) grammar.passLimit grammar.followSeed

end Grammar

structure Sets where
  first : NameMap NameSet
  follow : NameMap NameSet

namespace Sets

def ofGrammar (grammar : Grammar) : Sets :=
  let first := grammar.firstSolution.1
  ⟨first, (grammar.followSolution first).1⟩

/-- The FIRST set of a single symbol. -/
def firstOf (sets : Sets) (symbol : Symbol) : NameSet :=
  CanonicalLR.firstOf sets.first symbol

end Sets

end CanonicalLR
