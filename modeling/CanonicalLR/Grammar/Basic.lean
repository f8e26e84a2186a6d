import CanonicalLR.Name.List
import CanonicalLR.Production

/-!
Contract: grammars as values.

Owns:
- the parts of a grammar and its construction from a list of productions;
- the queries that only need the productions.

Does not own: grammar text, and the conditions under which a grammar has a
parse table.

The parts are independent: a grammar is allowed to name a start symbol that has
no production, to list names that occur nowhere and to mark any productions as
start productions. `ofProductions` makes the parts agree.
-/

namespace CanonicalLR

/-- `endMarker` is the name of the terminal that stands for the end of input. -/
structure Grammar where
  start : String
  endMarker : String
  productions : List Production
  terminals : NameList
  nonterminals : NameList
deriving DecidableEq

/-- The name of the end of input unless the user chooses another one. -/
def defaultEndMarker : String := "eof"

namespace Grammar

/-- Mark the first production, and no other one, as the start production. -/
def markStart : List Production → List Production
  | [] => []
  | first :: others =>
      { first with isStart := true } ::
        others.map fun production => { production with isStart := false }

/-- The grammar of the given productions. The first one is its start production;
its names are listed in the order of their first encounter, and the end marker
comes after the other terminals, unless it is used as one of them. -/
def ofProductions (endMarker : String) (productions : List Production) : Grammar where
  start := (productions.head?.map Production.lhs).getD ""
  endMarker := endMarker
  productions := markStart productions
  terminals :=
    (NameList.ofList
      (productions.flatMap fun production => production.rhs.filterMap Symbol.terminal?)).add
      endMarker
  nonterminals :=
    NameList.ofList
      (productions.flatMap fun production =>
        production.lhs :: production.rhs.filterMap Symbol.nonterminal?)

/-- The first production that is marked as start production, with its index. -/
def startProduction? (grammar : Grammar) : Option (Nat × Production) :=
  (grammar.productions.zipIdx.find? fun (production, _) => production.isStart).map
    fun (production, index) => (index, production)

/-- The productions of `nonterminal` in a list, with their indices if the list
begins at `index`. -/
def productionsFrom (index : Nat) (nonterminal : String) : List Production → List (Nat × Production)
  | [] => []
  | production :: rest =>
      if production.lhs = nonterminal then
        (index, production) :: productionsFrom (index + 1) nonterminal rest
      else
        productionsFrom (index + 1) nonterminal rest

/-- The productions of `nonterminal` in their order, with their indices. -/
def productionsFor (grammar : Grammar) (nonterminal : String) : List (Nat × Production) :=
  productionsFrom 0 nonterminal grammar.productions

/-- Whether some production has `nonterminal` as its left-hand side. -/
def isDefined (grammar : Grammar) (nonterminal : String) : Bool :=
  grammar.productions.any fun production => production.lhs = nonterminal

end Grammar

end CanonicalLR
