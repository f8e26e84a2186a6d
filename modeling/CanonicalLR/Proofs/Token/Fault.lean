import CanonicalLR.Proofs.Token.Spelling
import Mathlib.Data.List.Basic

/-!
Contract: texts that are not made of tokens and blanks.

Owns:
- the faults with which a text can begin;
- that scanning goes on behind a text that has lexemes as if it began there;
- that scanning fails exactly at a fault behind a text that has lexemes, and that there is one
  such place;
- the place of each lexeme in the text.

Does not own: what tokens make up.
-/

namespace CanonicalLR

/-- No token can be read at the beginning of the characters, the first of which stands at
`offset`: it begins none, its name is empty, or its name does not end. -/
inductive Faults (offset : Nat) : List Char → SyntaxError → Prop where
  | unexpectedCharacter {character : Char} {rest : List Char}
      (notBlank : isBlank character = false) (notColon : character ≠ ':')
      (notSemicolon : character ≠ ';')
      (notOpening : ∀ bracket : Bracket, character ≠ bracket.opening) :
      Faults offset (character :: rest) (.unexpectedCharacter character offset)
  | emptyName (bracket : Bracket) {rest : List Char} :
      Faults offset (bracket.opening :: bracket.closing :: rest) (.emptyName offset)
  | unterminatedName (bracket : Bracket) {rest : List Char}
      (unclosed : bracket.closing ∉ rest) :
      Faults offset (bracket.opening :: rest) (.unterminatedName bracket.closing offset)

namespace Faults

variable {offset : Nat} {characters : List Char} {cause : SyntaxError}

theorem scan_eq (faults : Faults offset characters cause) :
    scan offset characters = .error cause := by
  cases faults with
  | @unexpectedCharacter character rest notBlank notColon notSemicolon notOpening =>
      have opensNone : Bracket.ofOpening? character = none := by
        rw [Option.eq_none_iff_forall_ne_some]
        intro bracket opens
        exact notOpening bracket (Bracket.ofOpening?_eq_some_iff.1 opens)
      rw [scan]
      simp [notBlank, notColon, notSemicolon, opensNone]
  | emptyName bracket =>
      rw [scan_opening, ← List.nil_append (bracket.closing :: _),
        scanName_closed (by simp), if_pos ⟨rfl, rfl⟩]
  | unterminatedName bracket unclosed => rw [scan_opening, scanName_unclosed unclosed]

/-- A fault stays one when the text is cut off behind its first character. -/
theorem exists_of_append {character : Char} {front back : List Char}
    (faults : Faults offset (character :: front ++ back) cause) :
    ∃ other, Faults offset (character :: front) other := by
  rw [List.cons_append] at faults
  generalize whole : character :: (front ++ back) = characters at faults
  cases faults with
  | unexpectedCharacter notBlank notColon notSemicolon notOpening =>
      cases whole
      exact ⟨_, .unexpectedCharacter notBlank notColon notSemicolon notOpening⟩
  | emptyName bracket =>
      obtain ⟨rfl, same⟩ := List.cons.inj whole
      cases front with
      | nil => exact ⟨_, .unterminatedName bracket List.not_mem_nil⟩
      | cons second rest =>
          cases same
          exact ⟨_, .emptyName bracket⟩
  | unterminatedName bracket unclosed =>
      obtain ⟨rfl, rfl⟩ := List.cons.inj whole
      exact ⟨_, .unterminatedName bracket fun member =>
        unclosed (List.mem_append_left back member)⟩

end Faults

/-! ### What a text begins with -/

/-- Behind an opening bracket there is a spelling or a fault. -/
private theorem spelling_or_faults (offset : Nat) (bracket : Bracket) (rest : List Char) :
    (∃ (token : Token) (behind : List Char), token.Spellable ∧
        bracket.opening :: rest = token.spelling.toList ++ behind) ∨
      ∃ cause, Faults offset (bracket.opening :: rest) cause := by
  by_cases closes : bracket.closing ∈ rest
  · obtain ⟨name, behind, rfl, unclosed⟩ := List.eq_append_cons_of_mem closes
    cases name with
    | nil => exact .inr ⟨_, .emptyName bracket⟩
    | cons character others =>
        refine .inl ⟨bracket.token (String.ofList (character :: others)), behind, ?_, ?_⟩
        · rw [Bracket.spellable_token, String.toList_ofList]
          refine ⟨fun empty => ?_, unclosed⟩
          simpa using congrArg String.toList empty
        · simp [Bracket.spelling_token]
  · exact .inr ⟨_, .unterminatedName bracket closes⟩

/-- A text begins with a blank, with the spelling of a token or with a fault. -/
theorem blank_or_spelling_or_faults (offset : Nat) (character : Char) (rest : List Char) :
    isBlank character = true ∨
      (∃ (token : Token) (behind : List Char), token.Spellable ∧
        character :: rest = token.spelling.toList ++ behind) ∨
      ∃ cause, Faults offset (character :: rest) cause := by
  cases blank : isBlank character with
  | true => exact .inl rfl
  | false =>
      right
      by_cases isColon : character = ':'
      · exact .inl ⟨.colon, rest, trivial, by simp [isColon, Token.spelling]⟩
      by_cases isSemicolon : character = ';'
      · exact .inl ⟨.semicolon, rest, trivial, by simp [isSemicolon, Token.spelling]⟩
      by_cases opens : ∃ bracket : Bracket, character = bracket.opening
      · obtain ⟨bracket, rfl⟩ := opens
        exact spelling_or_faults offset bracket rest
      · push Not at opens
        exact .inr ⟨_, .unexpectedCharacter blank isColon isSemicolon opens⟩

/-! ### Scanning up to a fault -/

section Scan

variable {offset : Nat} {front rest characters : List Char} {lexemes : List Lexeme}
  {cause : SyntaxError}

/-- Behind a text that has lexemes, scanning starts afresh. -/
theorem scan_append (scanned : scan offset front = .ok lexemes) :
    scan offset (front ++ rest) = (scan (offset + utf8Length front) rest).map (lexemes ++ ·) := by
  obtain ⟨spells, named⟩ := scan_eq_ok_iff.1 scanned
  clear scanned
  induction spells with
  | finished offset =>
      rw [List.nil_append, utf8Length_nil, Nat.add_zero]
      cases scan offset rest <;> rfl
  | blank blank _ inductionHypothesis =>
      rw [List.cons_append, scan_blank blank, inductionHypothesis named, utf8Length_cons,
        Nat.add_assoc]
  | @token offset behind others token _ inductionHypothesis =>
      obtain ⟨spellable, namedRest⟩ := List.forall_mem_cons.1 named
      rw [List.append_assoc, scan_spelling spellable, inductionHypothesis namedRest,
        utf8Length_append, Nat.add_assoc]
      cases scan (offset + (utf8Length token.spelling.toList + utf8Length behind)) rest <;> rfl

/-- A text begins with one that has lexemes, or with a fault. -/
private theorem scanned_or_faults (offset : Nat) (character : Char) (rest : List Char) :
    (∃ front behind lexemes, front ≠ [] ∧ character :: rest = front ++ behind ∧
        scan offset front = .ok lexemes) ∨
      ∃ cause, Faults offset (character :: rest) cause := by
  rcases blank_or_spelling_or_faults offset character rest with
    blank | ⟨token, behind, spellable, split⟩ | faults
  · refine .inl ⟨[character], rest, [], List.cons_ne_nil _ _, rfl, ?_⟩
    rw [scan_blank blank, scan]
  · refine .inl ⟨token.spelling.toList, behind, [⟨token, offset⟩],
      List.ne_nil_of_length_pos token.length_spelling_pos, split, ?_⟩
    rw [← List.append_nil token.spelling.toList, scan_spelling spellable, scan]
    rfl
  · exact .inr faults

theorem scan_eq_error_iff :
    scan offset characters = .error cause ↔
      ∃ front rest lexemes, characters = front ++ rest ∧ scan offset front = .ok lexemes ∧
        Faults (offset + utf8Length front) rest cause := by
  constructor
  · intro failed
    induction length : characters.length using Nat.strongRecOn generalizing offset characters with
    | ind count inductionHypothesis =>
    subst length
    cases characters with
    | nil =>
        rw [scan] at failed
        contradiction
    | cons character behind =>
        rcases scanned_or_faults offset character behind with
          ⟨earlier, later, lexemes, someCharacter, split, scanned⟩ | ⟨other, faults⟩
        · have shorter : later.length < (character :: behind).length := by
            rw [split, List.length_append]
            exact Nat.lt_add_of_pos_left (List.length_pos_iff.2 someCharacter)
          rw [split, scan_append scanned, map_eq_error] at failed
          obtain ⟨front, rest, lexemesLater, rfl, scannedLater, faults⟩ :=
            inductionHypothesis _ shorter failed rfl
          refine ⟨earlier ++ front, rest, lexemes ++ lexemesLater, ?_, ?_, ?_⟩
          · rw [split, List.append_assoc]
          · rw [scan_append scanned, scannedLater]
            rfl
          · rwa [utf8Length_append, ← Nat.add_assoc]
        · rw [faults.scan_eq] at failed
          cases failed
          exact ⟨[], character :: behind, [], rfl, by rw [scan], faults⟩
  · rintro ⟨front, rest, lexemes, rfl, scanned, faults⟩
    rw [scan_append scanned, faults.scan_eq]
    rfl

/-- A text that goes on beyond a fault has no lexemes, so nothing that has some reaches beyond
the place of another one. -/
private theorem eq_nil_of_scan {middle : List Char} {wholeLexemes : List Lexeme}
    (scanned : scan offset front = .ok lexemes)
    (scannedWhole : scan offset (front ++ middle) = .ok wholeLexemes)
    (faults : Faults (offset + utf8Length front) (middle ++ rest) cause) : middle = [] := by
  cases middle with
  | nil => rfl
  | cons character others =>
      obtain ⟨other, cutOff⟩ := faults.exists_of_append
      rw [scan_append scanned, cutOff.scan_eq] at scannedWhole
      contradiction

/-- There is at most one fault behind a text that has lexemes. -/
theorem fault_unique {otherFront otherRest : List Char} {otherLexemes : List Lexeme}
    {otherCause : SyntaxError} (same : front ++ rest = otherFront ++ otherRest)
    (scanned : scan offset front = .ok lexemes)
    (faults : Faults (offset + utf8Length front) rest cause)
    (otherScanned : scan offset otherFront = .ok otherLexemes)
    (otherFaults : Faults (offset + utf8Length otherFront) otherRest otherCause) :
    front = otherFront ∧ rest = otherRest := by
  rcases List.append_eq_append_iff.1 same with ⟨middle, rfl, rfl⟩ | ⟨middle, rfl, rfl⟩
  · rw [eq_nil_of_scan scanned otherScanned faults, List.append_nil]
    exact ⟨rfl, rfl⟩
  · rw [eq_nil_of_scan otherScanned scanned otherFaults, List.append_nil]
    exact ⟨rfl, rfl⟩

end Scan

/-- Each token is spelled behind the text that spells the tokens before it. -/
theorem Spells.split {offset : Nat} {characters : List Char} {earlier later : List Lexeme}
    {lexeme : Lexeme} (spells : Spells offset characters (earlier ++ lexeme :: later)) :
    ∃ before behind, characters = before ++ lexeme.token.spelling.toList ++ behind ∧
      lexeme.offset = offset + utf8Length before ∧ Spells offset before earlier := by
  generalize whole : earlier ++ lexeme :: later = lexemes at spells
  induction spells generalizing earlier with
  | finished => simp at whole
  | @blank offset character rest lexemes blank _ inductionHypothesis =>
      obtain ⟨before, behind, rfl, place, spells⟩ := inductionHypothesis whole
      refine ⟨character :: before, behind, rfl, ?_, .blank blank spells⟩
      rw [place, utf8Length_cons, Nat.add_assoc]
  | @token offset rest lexemes token spells inductionHypothesis =>
      cases earlier with
      | nil =>
          cases whole
          exact ⟨[], rest, rfl, rfl, .finished offset⟩
      | cons first others =>
          obtain ⟨rfl, same⟩ := List.cons.inj whole
          obtain ⟨before, behind, rfl, place, spellsBefore⟩ := inductionHypothesis same
          refine ⟨token.spelling.toList ++ before, behind, ?_, ?_, .token token spellsBefore⟩
          · simp only [List.append_assoc]
          · rw [place, utf8Length_append, Nat.add_assoc]

/-! ### Texts -/

/-- The text is read up to `rest`, which begins with a fault. -/
structure StopsAt (source front rest : String) (cause : SyntaxError) : Prop where
  split : source = front ++ rest
  read : ∃ lexemes, tokenize front = .ok lexemes
  faults : Faults front.utf8ByteSize rest.toList cause

theorem StopsAt.unique {source front rest otherFront otherRest : String}
    {cause otherCause : SyntaxError} (stops : StopsAt source front rest cause)
    (otherStops : StopsAt source otherFront otherRest otherCause) :
    front = otherFront ∧ rest = otherRest := by
  obtain ⟨split, ⟨lexemes, scanned⟩, faults⟩ := stops
  obtain ⟨otherSplit, ⟨otherLexemes, otherScanned⟩, otherFaults⟩ := otherStops
  have same : front.toList ++ rest.toList = otherFront.toList ++ otherRest.toList := by
    rw [← String.toList_append, ← String.toList_append, ← split, otherSplit]
  rw [← utf8Length_toList, ← Nat.zero_add (utf8Length _)] at faults otherFaults
  obtain ⟨sameFront, sameRest⟩ := fault_unique same scanned faults otherScanned otherFaults
  exact ⟨String.toList_inj.1 sameFront, String.toList_inj.1 sameRest⟩

theorem tokenize_eq_error_iff {source : String} {cause : SyntaxError} :
    tokenize source = .error cause ↔ ∃ front rest, StopsAt source front rest cause := by
  unfold tokenize
  rw [scan_eq_error_iff]
  constructor
  · rintro ⟨front, rest, lexemes, split, scanned, faults⟩
    refine ⟨String.ofList front, String.ofList rest, ?_, ⟨lexemes, ?_⟩, ?_⟩
    · rw [← String.ofList_append, ← split, String.ofList_toList]
    · rw [tokenize, String.toList_ofList]
      exact scanned
    · rw [← utf8Length_toList, String.toList_ofList, String.toList_ofList]
      rwa [Nat.zero_add] at faults
  · rintro ⟨front, rest, rfl, ⟨lexemes, scanned⟩, faults⟩
    refine ⟨front.toList, rest.toList, lexemes, String.toList_append, scanned, ?_⟩
    rwa [Nat.zero_add, utf8Length_toList]

/-- A text has lexemes exactly when it is made of blanks and of spellings of these, each behind
the text that has the lexemes before it. Every other text has lexemes up to one place, at which
it fails by the fault that stands there. -/
theorem tokenize_exact (source : String) :
    (∀ lexemes, tokenize source = .ok lexemes ↔
      Spells 0 source.toList lexemes ∧ ∀ lexeme ∈ lexemes, lexeme.token.Spellable) ∧
    (∀ earlier lexeme later, tokenize source = .ok (earlier ++ lexeme :: later) →
      ∃ before behind, source = before ++ lexeme.token.spelling ++ behind ∧
        lexeme.offset = before.utf8ByteSize ∧ tokenize before = .ok earlier) ∧
    (∀ cause, tokenize source = .error cause ↔ ∃ front rest, StopsAt source front rest cause) ∧
    ((¬ ∃ lexemes, tokenize source = .ok lexemes) →
      ∃! split : String × String, ∃ cause, StopsAt source split.1 split.2 cause) := by
  refine ⟨fun _ => scan_eq_ok_iff, fun earlier lexeme later scanned => ?_,
    fun _ => tokenize_eq_error_iff, fun unread => ?_⟩
  · obtain ⟨spells, named⟩ := scan_eq_ok_iff.1 scanned
    obtain ⟨before, behind, split, place, spellsBefore⟩ := spells.split
    refine ⟨String.ofList before, String.ofList behind, ?_, ?_, ?_⟩
    · rw [← String.toList_inj, split]
      simp
    · rw [← utf8Length_toList, String.toList_ofList, place, Nat.zero_add]
    · rw [tokenize, String.toList_ofList]
      exact scan_eq_ok_iff.2 ⟨spellsBefore, fun other member =>
        named other (List.mem_append_left _ member)⟩
  · cases outcome : tokenize source with
    | ok lexemes => exact absurd ⟨lexemes, outcome⟩ unread
    | error cause =>
        obtain ⟨front, rest, stops⟩ := tokenize_eq_error_iff.1 outcome
        refine ⟨(front, rest), ⟨cause, stops⟩, ?_⟩
        rintro ⟨otherFront, otherRest⟩ ⟨otherCause, otherStops⟩
        obtain ⟨sameFront, sameRest⟩ := otherStops.unique stops
        exact Prod.ext sameFront sameRest

/-- A name of two bytes before one that does not end: brackets of the other kind and punctuation
do not end it. -/
theorem tokenize_exact_accented :
    tokenize "<é> : [>;" = .error (.unterminatedName ']' 7) ∧
      (∃ front rest, StopsAt "<é> : [>;" front rest (.unterminatedName ']' 7)) ∧
      (∃! split : String × String, ∃ cause, StopsAt "<é> : [>;" split.1 split.2 cause) ∧
      ∃ before behind, "<é> :" = before ++ Token.colon.spelling ++ behind ∧
        5 = before.utf8ByteSize ∧ tokenize before = .ok [⟨.nonterminal "é", 0⟩] := by
  have failed : tokenize "<é> : [>;" = .error (.unterminatedName ']' 7) := by
    decide +kernel
  have read : tokenize "<é> :" = .ok ([⟨.nonterminal "é", 0⟩] ++ ⟨.colon, 5⟩ :: []) := by
    decide +kernel
  obtain ⟨-, -, stops, existsUnique⟩ := tokenize_exact "<é> : [>;"
  refine ⟨failed, (stops _).1 failed, existsUnique ?_, (tokenize_exact "<é> :").2.1 _ _ _ read⟩
  rw [failed]
  rintro ⟨_, read⟩
  contradiction

end CanonicalLR
