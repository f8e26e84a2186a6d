import CanonicalLR.Proofs.Outcome
import CanonicalLR.Token.Scan

/-!
Contract: the spellings of tokens in grammar text.

Owns:
- how a token is spelled, and which names can be spelled;
- texts that spell tokens with any blanks around them, each token with the bytes before it;
- that scanning a text gives lexemes exactly when the text spells them.

Does not own: why a text spells nothing, and what tokens make up.

A name may hold blanks, punctuation and the brackets of the other kind. It ends at the first
closing bracket of its own kind, so only this one is not allowed in it.
-/

namespace CanonicalLR

namespace Token

/-- The token as it stands in grammar text. -/
def spelling : Token → String
  | nonterminal name => "<" ++ name ++ ">"
  | terminal name => "[" ++ name ++ "]"
  | colon => ":"
  | semicolon => ";"

/-- Its name is not empty and lacks the closing bracket of its kind. -/
def Spellable : Token → Prop
  | nonterminal name => name ≠ "" ∧ '>' ∉ name.toList
  | terminal name => name ≠ "" ∧ ']' ∉ name.toList
  | colon => True
  | semicolon => True

instance (token : Token) : Decidable token.Spellable :=
  match token with
  | nonterminal name => inferInstanceAs (Decidable (name ≠ "" ∧ '>' ∉ name.toList))
  | terminal name => inferInstanceAs (Decidable (name ≠ "" ∧ ']' ∉ name.toList))
  | colon => .isTrue trivial
  | semicolon => .isTrue trivial

theorem length_spelling_pos (token : Token) : 0 < token.spelling.toList.length := by
  cases token <;> simp [spelling]

end Token

/-- The number of bytes that the characters take in UTF-8. -/
def utf8Length : List Char → Nat
  | [] => 0
  | character :: rest => character.utf8Size + utf8Length rest

@[simp] theorem utf8Length_nil : utf8Length [] = 0 := rfl

@[simp] theorem utf8Length_cons (character : Char) (rest : List Char) :
    utf8Length (character :: rest) = character.utf8Size + utf8Length rest := rfl

@[simp] theorem utf8Length_append (left right : List Char) :
    utf8Length (left ++ right) = utf8Length left + utf8Length right := by
  induction left with
  | nil => exact (Nat.zero_add _).symm
  | cons character rest inductionHypothesis =>
      rw [List.cons_append, utf8Length_cons, inductionHypothesis, utf8Length_cons, Nat.add_assoc]

theorem utf8Length_toList (text : String) : utf8Length text.toList = text.utf8ByteSize := by
  have general (characters : List Char) :
      utf8Length characters = (String.ofList characters).utf8ByteSize := by
    induction characters with
    | nil => rfl
    | cons character rest inductionHypothesis =>
        have split : String.ofList (character :: rest) =
            String.singleton character ++ String.ofList rest := by
          rw [String.singleton_eq_ofList, ← String.ofList_append]
          rfl
        rw [utf8Length_cons, inductionHypothesis, split, String.utf8ByteSize_append,
          String.utf8ByteSize_singleton]
  rw [general, String.ofList_toList]

/-- The characters, the first of which stands at `offset`, are the spellings of the tokens in
their order, with any blanks before, between and behind them. -/
inductive Spells : Nat → List Char → List Lexeme → Prop where
  | finished (offset : Nat) : Spells offset [] []
  | blank {offset : Nat} {character : Char} {rest : List Char} {lexemes : List Lexeme}
      (blank : isBlank character = true)
      (spells : Spells (offset + character.utf8Size) rest lexemes) :
      Spells offset (character :: rest) lexemes
  | token {offset : Nat} {rest : List Char} {lexemes : List Lexeme} (token : Token)
      (spells : Spells (offset + utf8Length token.spelling.toList) rest lexemes) :
      Spells offset (token.spelling.toList ++ rest) (⟨token, offset⟩ :: lexemes)

/-! ### Texts that spell tokens -/

theorem Spells.append {offset : Nat} {left right : List Char}
    {leftLexemes rightLexemes : List Lexeme}
    (leftSpells : Spells offset left leftLexemes)
    (rightSpells : Spells (offset + utf8Length left) right rightLexemes) :
    Spells offset (left ++ right) (leftLexemes ++ rightLexemes) := by
  induction leftSpells with
  | finished offset => exact rightSpells
  | @blank offset character rest _ blank _ inductionHypothesis =>
      refine .blank blank (inductionHypothesis ?_)
      rwa [utf8Length_cons, ← Nat.add_assoc] at rightSpells
  | @token offset rest _ token _ inductionHypothesis =>
      rw [List.append_assoc, List.cons_append]
      refine .token token (inductionHypothesis ?_)
      rwa [utf8Length_append, ← Nat.add_assoc] at rightSpells

theorem Spells.of_blanks {blanks : List Char}
    (blank : ∀ character ∈ blanks, isBlank character = true) (offset : Nat) :
    Spells offset blanks [] := by
  induction blanks generalizing offset with
  | nil => exact .finished offset
  | cons character rest inductionHypothesis =>
      obtain ⟨here, behind⟩ := List.forall_mem_cons.1 blank
      exact .blank here (inductionHypothesis behind _)

/-- Parts that spell tokens do so together, with blanks between them. -/
theorem exists_spells_intercalate {Part : Type} {separator : String}
    (blank : ∀ character ∈ separator.toList, isBlank character = true)
    {text : Part → String} {tokens : Part → List Token} {parts : List Part}
    (spelled : ∀ part ∈ parts, ∀ offset, ∃ lexemes, Spells offset (text part).toList lexemes ∧
      lexemes.map Lexeme.token = tokens part) (offset : Nat) :
    ∃ lexemes, Spells offset (separator.intercalate (parts.map text)).toList lexemes ∧
      lexemes.map Lexeme.token = parts.flatMap tokens := by
  induction parts generalizing offset with
  | nil => exact ⟨[], .finished offset, rfl⟩
  | cons part others inductionHypothesis =>
      obtain ⟨spelledHere, spelledOthers⟩ := List.forall_mem_cons.1 spelled
      obtain ⟨lexemes, spells, same⟩ := spelledHere offset
      cases others with
      | nil =>
          refine ⟨lexemes, ?_, ?_⟩
          · rw [List.map_singleton, String.intercalate_singleton]
            exact spells
          · rw [List.flatMap_singleton, same]
      | cons next rest =>
          have blanks := Spells.of_blanks blank (offset + utf8Length (text part).toList)
          obtain ⟨behind, spellsBehind, sameBehind⟩ := inductionHypothesis spelledOthers
            (offset + utf8Length ((text part).toList ++ separator.toList))
          refine ⟨lexemes ++ behind, ?_, ?_⟩
          · rw [List.map_cons, List.map_cons, String.intercalate_cons_cons, ← List.map_cons,
              String.toList_append, String.toList_append]
            have spellsFront := spells.append blanks
            rw [List.append_nil] at spellsFront
            exact spellsFront.append spellsBehind
          · rw [List.map_append, same, sameBehind]
            rfl

/-! ### Brackets -/

namespace Bracket

variable {bracket : Bracket} {name : String}

theorem ofOpening?_eq_some_iff {character : Char} :
    ofOpening? character = some bracket ↔ character = bracket.opening := by
  unfold ofOpening?
  by_cases isAngle : character = angle.opening
  · subst isAngle
    cases bracket <;> decide
  · rw [if_neg isAngle]
    by_cases isSquare : character = square.opening
    · subst isSquare
      cases bracket <;> decide
    · rw [if_neg isSquare]
      cases bracket
      · simp [isAngle]
      · simp [isSquare]

theorem spelling_token :
    (bracket.token name).spelling.toList =
      bracket.opening :: (name.toList ++ [bracket.closing]) := by
  cases bracket <;> simp [token, Token.spelling, opening, closing]

theorem utf8Length_spelling_token :
    utf8Length (bracket.token name).spelling.toList =
      bracket.opening.utf8Size + utf8Length name.toList + bracket.closing.utf8Size := by
  rw [spelling_token]
  simp [Nat.add_assoc]

theorem spellable_token :
    (bracket.token name).Spellable ↔ name ≠ "" ∧ bracket.closing ∉ name.toList := by
  cases bracket <;> exact Iff.rfl

end Bracket

/-! ### Scanning -/

section Scan

variable {bracket : Bracket} {start offset : Nat} {lexemes : List Lexeme}

/-- Inside of a name everything before the closing bracket belongs to the name. -/
theorem scanName_closed {last : List Char} (unclosed : bracket.closing ∉ last)
    (name rest : List Char) (offset : Nat) :
    scanName bracket start name offset (last ++ bracket.closing :: rest) =
      if name = [] ∧ last = [] then
        .error (.emptyName start)
      else
        (scan (offset + utf8Length last + bracket.closing.utf8Size) rest).map
          (⟨bracket.token (String.ofList (name.reverse ++ last)), start⟩ :: ·) := by
  induction last generalizing name offset with
  | nil =>
      rw [List.nil_append, scanName]
      simp only [if_true, List.isEmpty_iff, and_true, List.append_nil]
      rfl
  | cons character others inductionHypothesis =>
      rw [List.mem_cons, not_or] at unclosed
      rw [List.cons_append, scanName]
      simp only [if_neg (Ne.symm unclosed.1)]
      rw [inductionHypothesis unclosed.2]
      simp [Nat.add_assoc]

theorem scanName_unclosed {characters : List Char} (unclosed : bracket.closing ∉ characters)
    (name : List Char) (offset : Nat) :
    scanName bracket start name offset characters =
      .error (.unterminatedName bracket.closing start) := by
  induction characters generalizing name offset with
  | nil => rw [scanName]
  | cons character rest inductionHypothesis =>
      rw [List.mem_cons, not_or] at unclosed
      rw [scanName]
      simp only [if_neg (Ne.symm unclosed.1)]
      exact inductionHypothesis unclosed.2 _ _

/-- What follows an opening bracket is a name, and then the lexemes of the rest. -/
theorem exists_name_of_scanName {characters : List Char}
    (scanned : scanName bracket start [] offset characters = .ok lexemes) :
    ∃ name rest others, characters = name.toList ++ bracket.closing :: rest ∧
      (bracket.token name).Spellable ∧
      scan (offset + utf8Length name.toList + bracket.closing.utf8Size) rest = .ok others ∧
      lexemes = ⟨bracket.token name, start⟩ :: others := by
  by_cases closes : bracket.closing ∈ characters
  · obtain ⟨last, rest, rfl, unclosed⟩ := List.eq_append_cons_of_mem closes
    rw [scanName_closed unclosed] at scanned
    split at scanned
    · contradiction
    case isFalse someName =>
      obtain ⟨others, scannedRest, rfl⟩ := map_eq_ok.1 scanned
      refine ⟨String.ofList last, rest, others, ?_, ?_, ?_, rfl⟩
      · rw [String.toList_ofList]
      · rw [Bracket.spellable_token, String.toList_ofList]
        refine ⟨fun empty => someName ⟨rfl, ?_⟩, unclosed⟩
        simpa using congrArg String.toList empty
      · rw [String.toList_ofList]
        exact scannedRest
  · rw [scanName_unclosed closes] at scanned
    contradiction

theorem scan_blank {character : Char} (blank : isBlank character = true) (rest : List Char) :
    scan offset (character :: rest) = scan (offset + character.utf8Size) rest := by
  rw [scan]
  exact if_pos blank

theorem scan_opening (rest : List Char) :
    scan offset (bracket.opening :: rest) =
      scanName bracket offset [] (offset + bracket.opening.utf8Size) rest := by
  cases bracket <;> rfl

/-- A spelling at the front of a text is scanned as its token. -/
theorem scan_spelling {token : Token} (spellable : token.Spellable) (rest : List Char) :
    scan offset (token.spelling.toList ++ rest) =
      (scan (offset + utf8Length token.spelling.toList) rest).map (⟨token, offset⟩ :: ·) := by
  have named (bracket : Bracket) (name : String) (spellable : (bracket.token name).Spellable) :
      scan offset ((bracket.token name).spelling.toList ++ rest) =
        (scan (offset + utf8Length (bracket.token name).spelling.toList) rest).map
          (⟨bracket.token name, offset⟩ :: ·) := by
    obtain ⟨someName, unclosed⟩ := Bracket.spellable_token.1 spellable
    have nonempty : ¬ (([] : List Char) = [] ∧ name.toList = []) := by
      simpa using someName
    rw [Bracket.utf8Length_spelling_token, Bracket.spelling_token, List.cons_append,
      List.append_assoc, List.singleton_append, scan_opening, scanName_closed unclosed,
      if_neg nonempty, List.reverse_nil, List.nil_append, String.ofList_toList]
    simp only [Nat.add_assoc]
  cases token with
  | nonterminal name => exact named .angle name spellable
  | terminal name => exact named .square name spellable
  | colon => rfl
  | semicolon => rfl

/-- The front of a text that has lexemes is a blank or the spelling of a token. -/
theorem front_of_scan {character : Char} {rest : List Char}
    (scanned : scan offset (character :: rest) = .ok lexemes) :
    (isBlank character = true ∧ scan (offset + character.utf8Size) rest = .ok lexemes) ∨
      ∃ token behind others, character :: rest = token.spelling.toList ++ behind ∧
        token.Spellable ∧
        scan (offset + utf8Length token.spelling.toList) behind = .ok others ∧
        lexemes = ⟨token, offset⟩ :: others := by
  unfold scan at scanned
  simp only at scanned
  split at scanned
  case isTrue blank => exact .inl ⟨blank, scanned⟩
  split at scanned
  case isTrue isColon =>
    subst isColon
    obtain ⟨others, scannedRest, rfl⟩ := map_eq_ok.1 scanned
    exact .inr ⟨.colon, rest, others, rfl, trivial, scannedRest, rfl⟩
  split at scanned
  case isTrue isSemicolon =>
    subst isSemicolon
    obtain ⟨others, scannedRest, rfl⟩ := map_eq_ok.1 scanned
    exact .inr ⟨.semicolon, rest, others, rfl, trivial, scannedRest, rfl⟩
  split at scanned
  case h_1 bracket opens =>
    cases Bracket.ofOpening?_eq_some_iff.1 opens
    obtain ⟨name, behind, others, rfl, spellable, scannedRest, rfl⟩ :=
      exists_name_of_scanName scanned
    refine .inr ⟨bracket.token name, behind, others, ?_, spellable, ?_, rfl⟩
    · simp [Bracket.spelling_token]
    · rw [Bracket.utf8Length_spelling_token, ← Nat.add_assoc, ← Nat.add_assoc]
      exact scannedRest
  case h_2 => contradiction

/-- A text has lexemes exactly when it spells them, and their names can be spelled. -/
theorem scan_eq_ok_iff {characters : List Char} :
    scan offset characters = .ok lexemes ↔
      Spells offset characters lexemes ∧ ∀ lexeme ∈ lexemes, lexeme.token.Spellable := by
  constructor
  · intro scanned
    induction length : characters.length using Nat.strongRecOn
      generalizing offset characters lexemes with
    | ind count inductionHypothesis =>
    subst length
    cases characters with
    | nil =>
        rw [scan] at scanned
        cases scanned
        exact ⟨.finished offset, by simp⟩
    | cons character rest =>
        rcases front_of_scan scanned with
          ⟨blank, scannedRest⟩ | ⟨token, behind, others, split, spellable, scannedRest, rfl⟩
        · obtain ⟨spells, named⟩ := inductionHypothesis _ (Nat.lt_succ_self _) scannedRest rfl
          exact ⟨.blank blank spells, named⟩
        · have shorter : behind.length < (character :: rest).length := by
            rw [split, List.length_append]
            have := token.length_spelling_pos
            omega
          obtain ⟨spells, named⟩ := inductionHypothesis _ shorter scannedRest rfl
          rw [split]
          exact ⟨.token token spells, List.forall_mem_cons.2 ⟨spellable, named⟩⟩
  · rintro ⟨spells, named⟩
    induction spells with
    | finished offset => rw [scan]
    | blank blank _ inductionHypothesis =>
        rw [scan_blank blank]
        exact inductionHypothesis named
    | token token _ inductionHypothesis =>
        obtain ⟨spellable, namedRest⟩ := List.forall_mem_cons.1 named
        rw [scan_spelling spellable, inductionHypothesis namedRest]
        rfl

end Scan

end CanonicalLR
