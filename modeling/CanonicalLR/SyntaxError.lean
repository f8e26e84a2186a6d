import CanonicalLR.Token

/-!
Contract: the ways in which grammar text can be malformed.

Owns:
- the causes, each with its place, and their wording.

Does not own: the readers that find them.
-/

namespace CanonicalLR

/-- What the grammar of productions allows at a token. -/
inductive Expectation where
  | nonterminal
  | colon
  | symbolOrSemicolon
deriving DecidableEq

def Expectation.text : Expectation → String
  | nonterminal => "variable"
  | colon => "colon"
  | symbolOrSemicolon => "symbol or semicolon"

/-- Offsets count UTF-8 bytes from the start of the text, indices count tokens. -/
inductive SyntaxError where
  | unexpectedCharacter (character : Char) (offset : Nat)
  | unterminatedName (delimiter : Char) (offset : Nat)
  | emptyName (offset : Nat)
  | unexpectedToken (expected : Expectation) (found : Token) (index offset : Nat)
  | unexpectedEnd (expected : Expectation)
  | emptyRightHandSide (nonterminal : String) (index : Nat)
  | reservedTerminal (name : String) (offset : Nat)
  | emptyGrammar
deriving DecidableEq

def SyntaxError.message : SyntaxError → String
  | unexpectedCharacter character offset =>
      s!"unexpected character `{character}` at offset {offset}"
  | unterminatedName delimiter offset =>
      s!"missing closing `{delimiter}` for name starting at offset {offset}"
  | emptyName offset => s!"empty name at offset {offset}"
  | unexpectedToken expected found index offset =>
      s!"expected {expected.text} but got {found.text} (token {index}, offset {offset})"
  | unexpectedEnd expected => s!"expected {expected.text} but reached the end of the grammar"
  | emptyRightHandSide nonterminal index =>
      s!"production for <{nonterminal}> has an empty right-hand side (token {index})"
  | reservedTerminal name offset =>
      s!"terminal [{name}] at offset {offset} is reserved for the end of input"
  | emptyGrammar => "grammar contains no productions"

end CanonicalLR
