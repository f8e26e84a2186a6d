/-!
Contract: text inside graph descriptions.

Owns:
- the escapes of markup labels and of quoted labels.

Does not own: where labels stand.

Each escape is a sequence of substitutions of single characters. The order
matters: the character that begins the replacements is substituted first, so no
replacement is changed by a later one.
-/

namespace CanonicalLR

/-- Put `replacement` in place of every occurrence of `character`. -/
def substitute (character : Char) (replacement : String) (text : String) : String :=
  String.ofList
    (text.toList.flatMap fun other =>
      if other = character then replacement.toList else [other])

/-- Text for a markup label. -/
def escapeMarkup (text : String) : String :=
  substitute '"' "&quot;" (substitute '>' "&gt;" (substitute '<' "&lt;"
    (substitute '&' "&amp;" text)))

/-- Text for a label in double quotes. -/
def escapeQuoted (text : String) : String :=
  substitute '"' "\\\"" (substitute '\\' "\\\\" text)

end CanonicalLR
