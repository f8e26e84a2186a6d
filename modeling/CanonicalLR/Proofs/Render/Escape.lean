import CanonicalLR.Proofs.Render.Delimited
import CanonicalLR.Render.Escape

/-!
Contract: escaped text, character by character.

Owns:
- the sequences of substitutions as one substitution of single characters;
- readers that find the next character of escaped text;
- that escaped text can be told from the character that ends its label;
- what escaped text does not hold, and that it determines the text.

Does not own: where labels stand.
-/

namespace CanonicalLR

theorem toList_substitute (character : Char) (replacement text : String) :
    (substitute character replacement text).toList =
      text.toList.flatMap fun other =>
        if other = character then replacement.toList else [other] := by
  rw [substitute, String.toList_ofList]

/-! ### Markup -/

/-- What stands for a character in a markup label. -/
def markupOf (character : Char) : List Char :=
  if character = '&' then "&amp;".toList
  else if character = '<' then "&lt;".toList
  else if character = '>' then "&gt;".toList
  else if character = '"' then "&quot;".toList
  else [character]

/-- No substitution for markup changes what an earlier one has put in. -/
theorem toList_escapeMarkup (text : String) :
    (escapeMarkup text).toList = text.toList.flatMap markupOf := by
  simp only [escapeMarkup, toList_substitute, List.flatMap_assoc]
  congr 1
  funext character
  unfold markupOf
  split
  case isTrue isMark => subst isMark; rfl
  split
  case isTrue isMark => subst isMark; rfl
  split
  case isTrue isMark => subst isMark; rfl
  split
  case isTrue isMark => subst isMark; rfl
  case isFalse => simp only [*, ↓reduceIte, List.flatMap_singleton]

/-- What follows the ampersand of each reference. -/
def referenceNames : List String := ["amp;", "lt;", "gt;", "quot;"]

/-- A character stands for itself, or a reference stands for it. -/
theorem markupOf_eq (character : Char) :
    (character ∉ ['&', '<', '>', '"'] ∧ markupOf character = [character]) ∨
      ∃ name ∈ referenceNames, markupOf character = '&' :: name.toList := by
  by_cases special : character ∈ ['&', '<', '>', '"']
  case pos =>
    right
    simp only [List.mem_cons, List.not_mem_nil, or_false] at special
    rcases special with rfl | rfl | rfl | rfl
    · exact ⟨"amp;", by decide, rfl⟩
    · exact ⟨"lt;", by decide, rfl⟩
    · exact ⟨"gt;", by decide, rfl⟩
    · exact ⟨"quot;", by decide, rfl⟩
  case neg =>
    left
    refine ⟨special, ?_⟩
    simp only [List.mem_cons, List.not_mem_nil, or_false, not_or] at special
    simp [markupOf, special]

private theorem not_mem_referenceName {name : String} (listed : name ∈ referenceNames)
    {special : Char} (isSpecial : special ∈ ['&', '<', '>', '"']) : special ∉ name.toList := by
  simp only [referenceNames, List.mem_cons, List.not_mem_nil, or_false] at listed isSpecial
  rcases listed with rfl | rfl | rfl | rfl <;>
    rcases isSpecial with rfl | rfl | rfl | rfl <;> simp

/-- The character that a reference stands for, without its first character, and what follows. -/
def readReference : List Char → Option (Char × List Char)
  | 'a' :: 'm' :: 'p' :: ';' :: rest => some ('&', rest)
  | 'l' :: 't' :: ';' :: rest => some ('<', rest)
  | 'g' :: 't' :: ';' :: rest => some ('>', rest)
  | 'q' :: 'u' :: 'o' :: 't' :: ';' :: rest => some ('"', rest)
  | _ => none

/-- The character that a markup label begins with, and what follows it. -/
def readMarkup : List Char → Option (Char × List Char)
  | [] => none
  | character :: rest =>
      if character = '&' then readReference rest else some (character, rest)

theorem readMarkup_markupOf (character : Char) (rest : List Char) :
    readMarkup (markupOf character ++ rest) = some (character, rest) := by
  unfold markupOf
  split
  case isTrue isMark => subst isMark; rfl
  case isFalse plain =>
    split
    case isTrue isMark => subst isMark; rfl
    split
    case isTrue isMark => subst isMark; rfl
    split
    case isTrue isMark => subst isMark; rfl
    case isFalse => exact if_neg plain

/-- Escaped markup holds no opening bracket, so it ends where one stands. -/
theorem escapeMarkup_append_inj {left right : String} {leftRest rightRest : List Char}
    (leftMark : leftRest.head? = some '<') (rightMark : rightRest.head? = some '<')
    (same : (escapeMarkup left).toList ++ leftRest = (escapeMarkup right).toList ++ rightRest) :
    left = right ∧ leftRest = rightRest := by
  have apart : ∀ character rest, (markupOf character ++ rest).head? ≠ some '<' := by
    intro character rest begins
    rcases markupOf_eq character with ⟨plain, standsFor⟩ | ⟨name, -, standsFor⟩
    · rw [standsFor, List.singleton_append, List.head?_cons, Option.some.injEq] at begins
      simp [begins] at plain
    · rw [standsFor, List.cons_append, List.head?_cons, Option.some.injEq] at begins
      exact absurd begins (by decide)
  rw [toList_escapeMarkup, toList_escapeMarkup] at same
  obtain ⟨sameText, sameRest⟩ :=
    (SelfDelimited.of_read readMarkup readMarkup_markupOf).flatMap_inj_of_mark apart leftMark
      rightMark same
  exact ⟨String.toList_injective sameText, sameRest⟩

/-- Different texts have different markup. -/
theorem escapeMarkup_injective : Function.Injective escapeMarkup := by
  intro left right same
  have sameInLabel : (escapeMarkup left).toList ++ ['<'] = (escapeMarkup right).toList ++ ['<'] := by
    rw [same]
  exact (escapeMarkup_append_inj rfl rfl sameInLabel).1

/-- Escaped markup holds no brackets and no quotes. -/
theorem not_mem_escapeMarkup (text : String) {special : Char} (isSpecial : special ∈ ['<', '>', '"']) :
    special ∉ (escapeMarkup text).toList := by
  have isMarked : special ∈ ['&', '<', '>', '"'] := List.mem_cons_of_mem _ isSpecial
  rw [toList_escapeMarkup, List.mem_flatMap]
  rintro ⟨character, -, inMarkup⟩
  rcases markupOf_eq character with ⟨plain, standsFor⟩ | ⟨name, listed, standsFor⟩
  · rw [standsFor, List.mem_singleton] at inMarkup
    exact plain (inMarkup ▸ isMarked)
  · rw [standsFor] at inMarkup
    rcases List.mem_cons.1 inMarkup with isAmpersand | inName
    · subst isAmpersand
      exact absurd isSpecial (by decide)
    · exact not_mem_referenceName listed isMarked inName

private theorem reference_behind {characters before behind : List Char}
    (split : characters.flatMap markupOf = before ++ '&' :: behind) :
    ∃ name ∈ referenceNames, name.toList <+: behind := by
  induction characters generalizing before with
  | nil => simp at split
  | cons character rest inductionHypothesis =>
      rw [List.flatMap_cons] at split
      rcases List.append_eq_append_iff.1 split with
        ⟨between, -, behindFirst⟩ | ⟨inside, ofFirst, same⟩
      · exact inductionHypothesis behindFirst
      cases inside with
      | nil => exact @inductionHypothesis [] same.symm
      | cons first others =>
          -- The ampersand belongs to what stands for the first character, and begins it.
          obtain ⟨rfl, rfl⟩ := List.cons.inj same
          rcases markupOf_eq character with ⟨plain, standsFor⟩ | ⟨name, listed, standsFor⟩
          · have inMarkup : '&' ∈ markupOf character := by simp [ofFirst]
            rw [standsFor, List.mem_singleton] at inMarkup
            exact absurd (inMarkup ▸ List.mem_cons_self) plain
          · rw [standsFor] at ofFirst
            cases before with
            | nil =>
                obtain ⟨-, rfl⟩ := List.cons.inj ofFirst
                exact ⟨name, listed, List.prefix_append _ _⟩
            | cons head beginning =>
                have inName : '&' ∈ name.toList := by simp [(List.cons.inj ofFirst).2]
                exact absurd inName (not_mem_referenceName listed List.mem_cons_self)

/-- Every ampersand in escaped markup begins a reference. -/
theorem reference_of_ampersand {text : String} {before behind : List Char}
    (split : (escapeMarkup text).toList = before ++ '&' :: behind) :
    ∃ name ∈ referenceNames, name.toList <+: behind :=
  reference_behind ((toList_escapeMarkup text).symm.trans split)

/-! ### Quoted text -/

/-- What stands for a character in a quoted label. -/
def quotedOf (character : Char) : List Char :=
  if character = '\\' ∨ character = '"' then ['\\', character] else [character]

/-- No substitution for quoted labels changes what an earlier one has put in. -/
theorem toList_escapeQuoted (text : String) :
    (escapeQuoted text).toList = text.toList.flatMap quotedOf := by
  simp only [escapeQuoted, toList_substitute, List.flatMap_assoc]
  congr 1
  funext character
  by_cases special : character = '\\' ∨ character = '"'
  case pos => rcases special with rfl | rfl <;> rfl
  case neg =>
    rw [quotedOf, if_neg special]
    rw [not_or] at special
    simp [special]

/-- Text is escaped character by character. -/
theorem escapeQuoted_append (left right : String) :
    escapeQuoted (left ++ right) = escapeQuoted left ++ escapeQuoted right := by
  apply String.toList_injective
  rw [String.toList_append, toList_escapeQuoted, toList_escapeQuoted, toList_escapeQuoted,
    String.toList_append, List.flatMap_append]

/-- The character that a quoted label begins with, and what follows it. -/
def readQuoted : List Char → Option (Char × List Char)
  | '\\' :: character :: rest => some (character, rest)
  | character :: rest => some (character, rest)
  | [] => none

theorem readQuoted_quotedOf (character : Char) (rest : List Char) :
    readQuoted (quotedOf character ++ rest) = some (character, rest) := by
  unfold quotedOf
  split
  case isTrue => rfl
  case isFalse plain =>
    rw [not_or] at plain
    simp_all [readQuoted]

private theorem head?_quotedOf_ne (character : Char) (rest : List Char) :
    (quotedOf character ++ rest).head? ≠ some '"' := by
  unfold quotedOf
  split
  case isTrue => simp
  case isFalse plain =>
    rw [not_or] at plain
    simp [plain]

/-- In quoted text no quote stands unescaped, so it ends where one does. -/
theorem escapeQuoted_append_inj {left right : String} {leftRest rightRest : List Char}
    (leftMark : leftRest.head? = some '"') (rightMark : rightRest.head? = some '"')
    (same : (escapeQuoted left).toList ++ leftRest = (escapeQuoted right).toList ++ rightRest) :
    left = right ∧ leftRest = rightRest := by
  rw [toList_escapeQuoted, toList_escapeQuoted] at same
  obtain ⟨sameText, sameRest⟩ :=
    (SelfDelimited.of_read readQuoted readQuoted_quotedOf).flatMap_inj_of_mark head?_quotedOf_ne
      leftMark rightMark same
  exact ⟨String.toList_injective sameText, sameRest⟩

/-- Different texts are quoted differently. -/
theorem escapeQuoted_injective : Function.Injective escapeQuoted := by
  intro left right same
  have sameInLabel : (escapeQuoted left).toList ++ ['"'] = (escapeQuoted right).toList ++ ['"'] := by
    rw [same]
  exact (escapeQuoted_append_inj rfl rfl sameInLabel).1

/-- Quoted text from left to right, where a backslash takes the next character along. -/
def quotedUnits : List Char → List (List Char)
  | '\\' :: character :: rest => ['\\', character] :: quotedUnits rest
  | character :: rest => [character] :: quotedUnits rest
  | [] => []

theorem quotedUnits_flatMap (characters : List Char) :
    quotedUnits (characters.flatMap quotedOf) = characters.map quotedOf := by
  induction characters with
  | nil => rfl
  | cons character rest inductionHypothesis =>
      rw [List.flatMap_cons, List.map_cons, ← inductionHypothesis]
      by_cases special : character = '\\' ∨ character = '"'
      case pos => rw [quotedOf, if_pos special]; rfl
      case neg =>
        rw [quotedOf, if_neg special]
        rw [not_or] at special
        simp [quotedUnits, special.1]

/-- No unit of quoted text is a bare quote, and each ends with its character. -/
theorem quotedUnits_escapeQuoted (text : String) :
    ['"'] ∉ quotedUnits (escapeQuoted text).toList ∧
      (quotedUnits (escapeQuoted text).toList).filterMap List.getLast? = text.toList := by
  have last (character : Char) : (quotedOf character).getLast? = some character := by
    unfold quotedOf
    split <;> rfl
  rw [toList_escapeQuoted, quotedUnits_flatMap]
  constructor
  · rw [List.mem_map]
    rintro ⟨character, -, bare⟩
    apply head?_quotedOf_ne character []
    rw [List.append_nil, bare, List.head?_cons]
  · rw [List.filterMap_map]
    simp [last]

/-- The sequences of substitutions escape each character by itself, so they lose nothing: neither
escape makes two texts equal. Markup is left without brackets and quotes, and its ampersands
begin references. Quoted text, with a backslash taking the next character along, has no quote by
itself and reads as the text. -/
theorem escapes_exact :
    (∀ text, (escapeMarkup text).toList = text.toList.flatMap markupOf) ∧
      (∀ text, (escapeQuoted text).toList = text.toList.flatMap quotedOf) ∧
      Function.Injective escapeMarkup ∧ Function.Injective escapeQuoted ∧
      (∀ text, ∀ special ∈ ['<', '>', '"'], special ∉ (escapeMarkup text).toList) ∧
      (∀ text before behind, (escapeMarkup text).toList = before ++ '&' :: behind →
        ∃ name ∈ referenceNames, name.toList <+: behind) ∧
      ∀ text, ['"'] ∉ quotedUnits (escapeQuoted text).toList ∧
        (quotedUnits (escapeQuoted text).toList).filterMap List.getLast? = text.toList :=
  ⟨toList_escapeMarkup, toList_escapeQuoted, escapeMarkup_injective, escapeQuoted_injective,
    fun text _ isSpecial => not_mem_escapeMarkup text isSpecial,
    fun _ _ _ split => reference_of_ampersand split, quotedUnits_escapeQuoted⟩

/-- Text that looks escaped already: its own ampersand is escaped once more, and so is its
backslash before a quote. -/
theorem escapes_exact_lookalikes :
    escapeMarkup "&lt;<" = "&amp;lt;&lt;" ∧
      (∃ name ∈ referenceNames, name.toList <+: "lt;".toList) ∧
      escapeQuoted "\\\"" = "\\\\\\\"" ∧
      (quotedUnits (escapeQuoted "\\\"").toList).filterMap List.getLast? = ['\\', '"'] := by
  obtain ⟨-, -, -, -, -, ampersand, quoted⟩ := escapes_exact
  have markup : escapeMarkup "&lt;<" = "&amp;lt;&lt;" := by decide +kernel
  refine ⟨markup, ?_, by decide +kernel, (quoted "\\\"").2⟩
  exact ampersand "&lt;<" "&amp;lt;".toList "lt;".toList (by rw [markup]; decide)

end CanonicalLR
