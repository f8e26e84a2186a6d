/-!
Contract: the lines of a text.

Owns:
- the split of a text into lines.

Does not own: what the lines are used for.
-/

namespace CanonicalLR

namespace TextLines

/-- `line` holds the characters since the last line feed, the last one first. -/
def splitFrom (line : List Char) : List Char → List String
  | [] => if line.isEmpty then [] else [String.ofList line.reverse]
  | '\n' :: rest =>
      let content :=
        match line with
        | '\r' :: before => before
        | _ => line
      String.ofList content.reverse :: splitFrom [] rest
  | character :: rest => splitFrom (character :: line) rest

/-- The lines of a text. A line ends with a line feed, or with a carriage return
and a line feed; the last line may lack its end. -/
def split (text : String) : List String :=
  splitFrom [] text.toList

end TextLines

end CanonicalLR
