import CanonicalLR.SyntaxError

/-!
Contract: reading grammar text into lexemes.

Owns:
- the split of the text at blanks, punctuation and brackets;
- the first place at which no token can be read, and why.

Does not own: the order in which tokens make up productions.

A name reaches up to the first closing bracket of its own kind and holds every
character before it, blanks and the other brackets included.
-/

namespace CanonicalLR

def Bracket.ofOpening? (character : Char) : Option Bracket :=
  if character = Bracket.angle.opening then some .angle
  else if character = Bracket.square.opening then some .square
  else none

mutual

/-- The lexemes of a text whose first character stands at `offset`. -/
def scan (offset : Nat) : List Char → Except SyntaxError (List Lexeme)
  | [] => .ok []
  | character :: rest =>
      let next := offset + character.utf8Size
      if isBlank character then
        scan next rest
      else if character = ':' then
        (scan next rest).map (⟨.colon, offset⟩ :: ·)
      else if character = ';' then
        (scan next rest).map (⟨.semicolon, offset⟩ :: ·)
      else
        match Bracket.ofOpening? character with
        | some bracket => scanName bracket offset [] next rest
        | none => .error (.unexpectedCharacter character offset)

/-- The lexemes of a text that starts inside of a name. The name was opened by
`bracket` at `start`, `name` holds its characters so far, the last one first. -/
def scanName (bracket : Bracket) (start : Nat) (name : List Char) (offset : Nat) :
    List Char → Except SyntaxError (List Lexeme)
  | [] => .error (.unterminatedName bracket.closing start)
  | character :: rest =>
      let next := offset + character.utf8Size
      if character = bracket.closing then
        if name.isEmpty then
          .error (.emptyName start)
        else
          (scan next rest).map (⟨bracket.token (String.ofList name.reverse), start⟩ :: ·)
      else
        scanName bracket start (character :: name) next rest

end

def tokenize (source : String) : Except SyntaxError (List Lexeme) :=
  scan 0 source.toList

end CanonicalLR
