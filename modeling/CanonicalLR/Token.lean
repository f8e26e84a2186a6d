import CanonicalLR.Symbol

/-!
Contract: the lexical language of grammar text.

Owns:
- tokens, their descriptions and the lexemes that locate them;
- the two brackets that enclose names and the blanks between tokens.

Does not own: the order in which tokens make up productions.
-/

namespace CanonicalLR

inductive Token where
  | nonterminal (name : String)
  | terminal (name : String)
  | colon
  | semicolon
deriving DecidableEq

namespace Token

/-- The description of a token in messages. -/
def text : Token → String
  | nonterminal name => "variable <" ++ name ++ ">"
  | terminal name => "terminal [" ++ name ++ "]"
  | colon => "colon"
  | semicolon => "semicolon"

/-- The right-hand side symbol that a token stands for. -/
def symbol? : Token → Option Symbol
  | nonterminal name => some (.nonterminal name)
  | terminal name => some (.terminal name)
  | colon => none
  | semicolon => none

end Token

/-- A token with the number of UTF-8 bytes that precede it. -/
structure Lexeme where
  token : Token
  offset : Nat
deriving DecidableEq

/-- The brackets around names: angle brackets for nonterminals, square brackets for
terminals. -/
inductive Bracket where
  | angle
  | square
deriving DecidableEq

namespace Bracket

def opening : Bracket → Char
  | angle => '<'
  | square => '['

def closing : Bracket → Char
  | angle => '>'
  | square => ']'

/-- The token whose name stands between the brackets. -/
def token (bracket : Bracket) (name : String) : Token :=
  match bracket with
  | angle => .nonterminal name
  | square => .terminal name

end Bracket

/-- Space, tab, carriage return and line feed separate tokens; no other
character does. -/
def isBlank (character : Char) : Bool :=
  character = ' ' || character = '\t' || character = '\r' || character = '\n'

end CanonicalLR
