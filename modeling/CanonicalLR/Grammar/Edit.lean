import CanonicalLR.Grammar.Basic

/-!
Contract: changes of one part of a grammar.

Owns:
- one function per change, which leaves all other parts as they are.

Does not own: bringing the parts into agreement again, which `rebuild` does.
-/

namespace CanonicalLR.Grammar

/-- Set the start mark of the production at `index`. -/
def setIsStart (grammar : Grammar) (index : Nat) (isStart : Bool) : Grammar :=
  { grammar with
    productions := grammar.productions.modify index fun production =>
      { production with isStart := isStart } }

/-- Put `rhs` in place of the right-hand side of the production at `index`. -/
def setRhs (grammar : Grammar) (index : Nat) (rhs : List Symbol) : Grammar :=
  { grammar with
    productions := grammar.productions.modify index fun production =>
      { production with rhs := rhs } }

def pushProduction (grammar : Grammar) (production : Production) : Grammar :=
  { grammar with productions := grammar.productions ++ [production] }

def eraseProduction (grammar : Grammar) (index : Nat) : Grammar :=
  { grammar with productions := grammar.productions.eraseIdx index }

def addTerminal (grammar : Grammar) (name : String) : Grammar :=
  { grammar with terminals := grammar.terminals.add name }

def removeTerminal (grammar : Grammar) (name : String) : Grammar :=
  { grammar with terminals := grammar.terminals.remove name }

def addNonterminal (grammar : Grammar) (name : String) : Grammar :=
  { grammar with nonterminals := grammar.nonterminals.add name }

def removeNonterminal (grammar : Grammar) (name : String) : Grammar :=
  { grammar with nonterminals := grammar.nonterminals.remove name }

/-- The grammar of the current productions and the current end marker. -/
def rebuild (grammar : Grammar) : Grammar :=
  ofProductions grammar.endMarker grammar.productions

end CanonicalLR.Grammar
