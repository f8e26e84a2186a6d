import CanonicalLR.Ascending

/-!
Contract: grammar symbols.

Owns:
- the two kinds of symbol, their written forms and their order.

Does not own: which symbols a grammar declares.
-/

namespace CanonicalLR

/-- A symbol on the right-hand side of a production. -/
inductive Symbol where
  | terminal (name : String)
  | nonterminal (name : String)
deriving DecidableEq, Hashable

namespace Symbol

/-- Terminals are written in square brackets and nonterminals in angle brackets,
the name between them unchanged. -/
def text : Symbol → String
  | terminal name => "[" ++ name ++ "]"
  | nonterminal name => "<" ++ name ++ ">"

def nonterminal? : Symbol → Option String
  | terminal _ => none
  | nonterminal name => some name

def terminal? : Symbol → Option String
  | terminal name => some name
  | nonterminal _ => none

/-- Terminals precede nonterminals; within a kind the names decide. -/
instance : Ord Symbol where
  compare
    | terminal left, terminal right => compare left right
    | terminal _, nonterminal _ => .lt
    | nonterminal _, terminal _ => .gt
    | nonterminal left, nonterminal right => compare left right

instance : Std.TransOrd Symbol where
  eq_swap {left right} := by
    cases left <;> cases right
    · exact Std.OrientedOrd.eq_swap (α := String)
    · rfl
    · rfl
    · exact Std.OrientedOrd.eq_swap (α := String)
  isLE_trans {first second third} firstLE secondLE := by
    cases first <;> cases second <;> cases third
    · exact Std.TransOrd.isLE_trans (α := String) firstLE secondLE
    · rfl
    · contradiction
    · rfl
    · contradiction
    · contradiction
    · contradiction
    · exact Std.TransOrd.isLE_trans (α := String) firstLE secondLE

instance : Std.LawfulEqOrd Symbol where
  eq_of_compare {left right} equal := by
    cases left <;> cases right
    · exact congrArg terminal (Std.LawfulEqOrd.eq_of_compare equal)
    · contradiction
    · contradiction
    · exact congrArg nonterminal (Std.LawfulEqOrd.eq_of_compare equal)

/-- The distinct symbols of a list in ascending order. -/
def arrange (symbols : List Symbol) : List Symbol :=
  symbols.foldl (fun arranged symbol => Ascending.place id symbol arranged) []

end Symbol

/-- The written forms of a sequence of symbols, each preceded by a space. -/
def spacedText (symbols : List Symbol) : String :=
  String.join (symbols.map fun symbol => " " ++ symbol.text)

end CanonicalLR
