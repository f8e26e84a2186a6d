import CanonicalLR.Grammar.Basic
import CanonicalLR.Token.Scan

/-!
Contract: reading grammars from text.

Owns:
- the grammar of productions over tokens, one function per position in a
  production;
- the first token that cannot be continued, and why.

Does not own: the split of the text into tokens.

A production is a nonterminal, a colon, one or more symbols and a semicolon; a
grammar is one or more productions. The end marker is no symbol.
-/

namespace CanonicalLR

mutual

/-- The productions of the remaining tokens, which begin at token `index`. -/
def readProductions (endMarker : String) (index : Nat) :
    List Lexeme → Except SyntaxError (List Production)
  | [] => .ok []
  | ⟨token, offset⟩ :: rest =>
      match token with
      | .nonterminal lhs => readColon endMarker lhs (index + 1) rest
      | _ => .error (.unexpectedToken .nonterminal token index offset)

/-- The productions of the remaining tokens, which follow the left-hand side `lhs`. -/
def readColon (endMarker lhs : String) (index : Nat) :
    List Lexeme → Except SyntaxError (List Production)
  | [] => .error (.unexpectedEnd .colon)
  | ⟨token, offset⟩ :: rest =>
      match token with
      | .colon => readSymbols endMarker lhs [] (index + 1) rest
      | _ => .error (.unexpectedToken .colon token index offset)

/-- The productions of the remaining tokens, which follow the colon of `lhs` and
then the symbols of `before`, listed with the last one first. -/
def readSymbols (endMarker lhs : String) (before : List Symbol) (index : Nat) :
    List Lexeme → Except SyntaxError (List Production)
  | [] => .error (.unexpectedEnd .symbolOrSemicolon)
  | ⟨token, offset⟩ :: rest =>
      match token with
      | .nonterminal name =>
          readSymbols endMarker lhs (.nonterminal name :: before) (index + 1) rest
      | .terminal name =>
          if name = endMarker then
            .error (.reservedTerminal name offset)
          else
            readSymbols endMarker lhs (.terminal name :: before) (index + 1) rest
      | .semicolon =>
          if before.isEmpty then
            .error (.emptyRightHandSide lhs index)
          else
            (readProductions endMarker (index + 1) rest).map (⟨lhs, before.reverse, false⟩ :: ·)
      | .colon => .error (.unexpectedToken .symbolOrSemicolon token index offset)

end

/-- The productions that `lexemes` spell, at least one. -/
def parseProductions (endMarker : String) (lexemes : List Lexeme) :
    Except SyntaxError (List Production) :=
  if lexemes.isEmpty then .error .emptyGrammar else readProductions endMarker 0 lexemes

namespace Grammar

/-- The grammar that the text of `source` describes. -/
def parse (endMarker source : String) : Except SyntaxError Grammar := do
  let lexemes ← tokenize source
  let productions ← parseProductions endMarker lexemes
  return ofProductions endMarker productions

end Grammar

end CanonicalLR
