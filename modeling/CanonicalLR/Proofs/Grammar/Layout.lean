import CanonicalLR.Proofs.Grammar.Readable
import CanonicalLR.Proofs.Token.Spelling

/-!
Contract: grammars and the texts that lay them out.

Owns:
- that the written form of a production is a layout of its tokens;
- the names of a grammar in the order of their first encounter;
- that reading undoes every layout, and what is known of a grammar that has been read.

Does not own: why a text cannot be read.
-/

namespace CanonicalLR

/-! ### Written forms -/

namespace Production

/-- Grammar text can spell the production: all its names can be spelled, and its right-hand
side is neither empty nor uses the end marker. -/
def Spellable (endMarker : String) (production : Production) : Prop :=
  (∀ token ∈ production.tokens, token.Spellable) ∧ production.Readable endMarker

theorem text_eq_intercalate (production : Production) :
    production.text = " ".intercalate (production.tokens.map Token.spelling) := by
  have spelling (symbol : Symbol) : symbol.token.spelling = symbol.text := by
    cases symbol <;> rfl
  have general (first : String) (symbols : List Symbol) :
      " ".intercalate
          (first :: (symbols.map Symbol.token ++ [Token.semicolon]).map Token.spelling) =
        first ++ spacedText symbols ++ " ;" := by
    induction symbols generalizing first with
    | nil => simp [spacedText, Token.spelling, String.intercalate_cons_cons, String.append_assoc]
    | cons symbol rest inductionHypothesis =>
        rw [List.map_cons, List.cons_append, List.map_cons, String.intercalate_cons_cons,
          inductionHypothesis, spelling]
        simp [spacedText, String.append_assoc]
  unfold tokens text
  rw [List.map_cons, List.map_cons, String.intercalate_cons_cons, general]
  apply String.toList_inj.1
  simp [Token.spelling]

end Production

/-- The text is the spellings of the tokens in their order, with any blanks before, between
and behind them. -/
def LaysOut (source : String) (tokens : List Token) : Prop :=
  ∃ lexemes, Spells 0 source.toList lexemes ∧ lexemes.map Lexeme.token = tokens

/-- The written forms of productions lay them out, whatever blanks separate them. -/
theorem laysOut_texts {separator : String}
    (blank : ∀ character ∈ separator.toList, isBlank character = true)
    (productions : List Production) :
    LaysOut (separator.intercalate (productions.map Production.text))
      (productions.flatMap Production.tokens) := by
  refine exists_spells_intercalate blank (fun production _ offset => ?_) 0
  have blankSpace : ∀ character ∈ " ".toList, isBlank character = true := by simp [isBlank]
  have spelled : ∀ token ∈ production.tokens, ∀ offset, ∃ lexemes,
      Spells offset token.spelling.toList lexemes ∧ lexemes.map Lexeme.token = [token] :=
    fun token _ offset => ⟨[⟨token, offset⟩], by simpa using Spells.token token (.finished _), rfl⟩
  obtain ⟨lexemes, spells, same⟩ := exists_spells_intercalate blankSpace spelled offset
  refine ⟨lexemes, ?_, ?_⟩
  · rw [production.text_eq_intercalate]
    exact spells
  · rw [same, List.flatMap_singleton']

/-! ### Names in the order of their encounter -/

/-- The distinct names of a list, in the order of their first places in it. -/
structure FirstEncounters (names all : List String) : Prop where
  distinct : names.Nodup
  mem_iff : ∀ name, name ∈ names ↔ name ∈ all
  ordered : names.Pairwise fun earlier later => all.idxOf earlier < all.idxOf later

/-- The first places of names do not change when a name is appended. -/
private theorem ordered_concat {names all : List String} (encounters : FirstEncounters names all)
    (name : String) :
    names.Pairwise fun earlier later =>
      (all ++ [name]).idxOf earlier < (all ++ [name]).idxOf later := by
  refine encounters.ordered.imp_of_mem fun {earlier later} earlierMember laterMember before => ?_
  rwa [List.idxOf_append_of_mem ((encounters.mem_iff earlier).1 earlierMember),
    List.idxOf_append_of_mem ((encounters.mem_iff later).1 laterMember)]

theorem NameList.add_encounters {list : NameList} {all : List String}
    (encounters : FirstEncounters list.names all) (name : String) :
    FirstEncounters (list.add name).names (all ++ [name]) where
  distinct := (list.add name).distinct
  mem_iff other := by
    rw [NameList.mem_names, NameList.mem_add, List.mem_append, List.mem_singleton,
      ← encounters.mem_iff, NameList.mem_names]
  ordered := by
    unfold add
    split
    case isTrue => exact ordered_concat encounters name
    case isFalse absent =>
      refine List.pairwise_append.2 ⟨ordered_concat encounters name, List.pairwise_singleton _ _,
        fun earlier earlierMember later isLast => ?_⟩
      have inAll := (encounters.mem_iff earlier).1 earlierMember
      have notInAll := mt (encounters.mem_iff name).2 absent
      rw [List.mem_singleton.1 isLast, List.idxOf_append_of_mem inAll,
        List.idxOf_append_of_notMem notInAll]
      exact Nat.lt_add_right _ (List.idxOf_lt_length_of_mem inAll)

theorem NameList.ofList_encounters (all : List String) :
    FirstEncounters (ofList all).names all := by
  induction all using List.reverseRecOn with
  | nil => exact ⟨.nil, fun _ => Iff.rfl, .nil⟩
  | append_singleton front name inductionHypothesis =>
      unfold ofList
      rw [List.foldl_append]
      exact add_encounters inductionHypothesis name

theorem NameList.getLast?_add {list : NameList} {name : String} (absent : name ∉ list) :
    (list.add name).names.getLast? = some name := by
  rw [add, dif_neg (mt mem_names.1 absent), List.getLast?_concat]

/-! ### Reading grammars -/

namespace Grammar

variable {endMarker : String} {productions : List Production} {source : String}
  {grammar : Grammar}

/-- The start marks of the productions do not matter for the grammar that is made of them. -/
theorem ofProductions_unmarked (endMarker : String) (productions : List Production) :
    ofProductions endMarker (productions.map Production.unmarked) =
      ofProductions endMarker productions := by
  have sameMarks : markStart (productions.map Production.unmarked) = markStart productions := by
    cases productions with
    | nil => rfl
    | cons first others => simp [markStart, Production.unmarked]
  unfold ofProductions
  rw [sameMarks, List.flatMap_map, List.flatMap_map, List.head?_map, Option.map_map]
  rfl

theorem parse_of_laysOut (someProduction : productions ≠ [])
    (spellable : ∀ production ∈ productions, production.Spellable endMarker)
    (laysOut : LaysOut source (productions.flatMap Production.tokens)) :
    parse endMarker source = .ok (ofProductions endMarker productions) := by
  obtain ⟨lexemes, spells, same⟩ := laysOut
  have named : ∀ lexeme ∈ lexemes, lexeme.token.Spellable := by
    intro lexeme member
    have inTokens := List.mem_map_of_mem (f := Lexeme.token) member
    rw [same] at inTokens
    obtain ⟨production, inProductions, ofProduction⟩ := List.mem_flatMap.1 inTokens
    exact (spellable production inProductions).1 _ ofProduction
  have scanned : tokenize source = .ok lexemes := scan_eq_ok_iff.2 ⟨spells, named⟩
  have read := parseProductions_of_tokens someProduction
    (fun production member => (spellable production member).2) same
  unfold parse
  rw [scanned]
  simp only [bind, Except.bind, read]
  rw [← ofProductions_unmarked endMarker productions]
  rfl

/-- A grammar that has been read is made of spellable productions. -/
theorem exists_productions_of_parse (parsed : parse endMarker source = .ok grammar) :
    ∃ productions, productions ≠ [] ∧
      (∀ production ∈ productions, production.Spellable endMarker) ∧
      grammar = ofProductions endMarker productions := by
  obtain ⟨lexemes, scanned, read⟩ := bind_eq_ok.1 parsed
  obtain ⟨productions, parsedProductions, same⟩ := bind_eq_ok.1 read
  cases same
  obtain ⟨someProduction, readable, -, spelled⟩ := parseProductions_eq_ok_iff.1 parsedProductions
  obtain ⟨-, named⟩ := scan_eq_ok_iff.1 scanned
  refine ⟨productions, someProduction,
    fun production member => ⟨?_, readable production member⟩, rfl⟩
  intro token ofProduction
  have inTokens := List.mem_flatMap.2 ⟨production, member, ofProduction⟩
  rw [← spelled] at inTokens
  obtain ⟨lexeme, inLexemes, rfl⟩ := List.mem_map.1 inTokens
  exact named lexeme inLexemes

/-- What is known of a grammar that has been read. Its productions are spellable, the first
and no other one is the start production, and the names are listed as they first occur, with
the end marker behind all terminals. -/
structure Spelled (endMarker : String) (grammar : Grammar) : Prop where
  endMarker_eq : grammar.endMarker = endMarker
  spellable : ∀ production ∈ grammar.productions, production.Spellable endMarker
  isStart_iff : ∀ (index : Nat) (production : Production),
    grammar.productions[index]? = some production → (production.isStart = true ↔ index = 0)
  start : grammar.productions.head?.map Production.lhs = some grammar.start
  nonterminals : FirstEncounters grammar.nonterminals.names
    (grammar.productions.flatMap fun production =>
      production.lhs :: production.rhs.filterMap Symbol.nonterminal?)
  terminals : FirstEncounters grammar.terminals.names
    ((grammar.productions.flatMap fun production =>
      production.rhs.filterMap Symbol.terminal?) ++ [endMarker])
  endMarker_last : grammar.terminals.names.getLast? = some endMarker

/-- Unmarking undoes the marking of the first production. -/
theorem map_unmarked_markStart (productions : List Production) :
    (markStart productions).map Production.unmarked = productions.map Production.unmarked := by
  cases productions with
  | nil => rfl
  | cons first others => simp [markStart, Production.unmarked]

/-- What does not look at the start marks is the same for the productions of the grammar. -/
private theorem flatMap_markStart {Value : Type} (view : Production → List Value)
    (blind : ∀ production, view production.unmarked = view production)
    (productions : List Production) :
    (markStart productions).flatMap view = productions.flatMap view := by
  have general (list : List Production) :
      (list.map Production.unmarked).flatMap view = list.flatMap view := by
    rw [List.flatMap_map]
    exact congrArg (List.flatMap · list) (funext blind)
  rw [← general (markStart productions), map_unmarked_markStart, general]

theorem spelled_ofProductions (someProduction : productions ≠ [])
    (spellable : ∀ production ∈ productions, production.Spellable endMarker) :
    (ofProductions endMarker productions).Spelled endMarker where
  endMarker_eq := rfl
  spellable := by
    intro production member
    obtain ⟨unmarked, unmarkedMember, sameLhs, sameRhs⟩ := mem_markStart member
    have := spellable unmarked unmarkedMember
    rwa [Production.Spellable, Production.tokens, Production.Readable, sameLhs, sameRhs] at this
  isStart_iff := by
    intro index production found
    obtain ⟨first, others, rfl⟩ := List.exists_cons_of_ne_nil someProduction
    cases index with
    | zero =>
        cases found
        simp
    | succ before =>
        obtain ⟨other, -, rfl⟩ := Option.map_eq_some_iff.1 ((List.getElem?_map ..).symm.trans found)
        simp
  start := by
    obtain ⟨first, others, rfl⟩ := List.exists_cons_of_ne_nil someProduction
    rfl
  nonterminals := by
    show FirstEncounters (NameList.ofList _).names ((markStart productions).flatMap _)
    rw [flatMap_markStart _ (fun _ => rfl)]
    exact NameList.ofList_encounters _
  terminals := by
    show FirstEncounters ((NameList.ofList _).add _).names ((markStart productions).flatMap _ ++ _)
    rw [flatMap_markStart _ (fun _ => rfl)]
    exact NameList.add_encounters (NameList.ofList_encounters _) _
  endMarker_last := by
    apply NameList.getLast?_add
    rw [NameList.mem_ofList]
    intro member
    obtain ⟨production, inProductions, used⟩ := List.mem_flatMap.1 member
    obtain ⟨symbol, inRhs, isTerminal⟩ := List.mem_filterMap.1 used
    cases symbol with
    | terminal name =>
        cases isTerminal
        exact (spellable production inProductions).2.2 inRhs
    | nonterminal name => contradiction

/-- Reading undoes writing. Every text that lays out spellable productions is read as the
grammar of these, and their written forms with blanks between them are such a text. What has
been read is made of spellable productions with the names in order, and every text that lays
out its productions is read as the same grammar again. -/
theorem parse_undoes_text :
    (∀ (endMarker source : String) (productions : List Production), productions ≠ [] →
      (∀ production ∈ productions, production.Spellable endMarker) →
      LaysOut source (productions.flatMap Production.tokens) →
      parse endMarker source = .ok (ofProductions endMarker productions)) ∧
    (∀ (separator : String) (productions : List Production),
      (∀ character ∈ separator.toList, isBlank character = true) →
      LaysOut (separator.intercalate (productions.map Production.text))
        (productions.flatMap Production.tokens)) ∧
    ∀ (endMarker source : String) (grammar : Grammar), parse endMarker source = .ok grammar →
      grammar.Spelled endMarker ∧
      ∀ again, LaysOut again (grammar.productions.flatMap Production.tokens) →
        parse grammar.endMarker again = .ok grammar := by
  refine ⟨fun _ _ _ => parse_of_laysOut, fun _ productions blank => laysOut_texts blank productions,
    fun endMarker source grammar parsed => ?_⟩
  obtain ⟨productions, someProduction, spellable, rfl⟩ := exists_productions_of_parse parsed
  refine ⟨spelled_ofProductions someProduction spellable, fun again laysOut => ?_⟩
  apply parse_of_laysOut someProduction spellable
  rwa [← flatMap_markStart Production.tokens (fun _ => rfl)]

/-- Names that hold blanks, punctuation, other brackets and characters of several bytes, as a
sample. -/
def awkward : List Production :=
  [⟨"S :\n[", [.terminal "<é> ;", .nonterminal "S :\n["], false⟩,
    ⟨"S :\n[", [.terminal " "], true⟩]

/-- The sample is read back from its written forms, with no blanks between them, and once more
with several ones. -/
theorem parse_undoes_text_awkward :
    (∀ production ∈ awkward, production.Spellable "eof") ∧
      parse "eof" ("".intercalate (awkward.map Production.text)) =
        .ok (ofProductions "eof" awkward) ∧
      (ofProductions "eof" awkward).Spelled "eof" ∧
      parse "eof" ("\r\n\t".intercalate
          ((ofProductions "eof" awkward).productions.map Production.text)) =
        .ok (ofProductions "eof" awkward) := by
  have spellable : ∀ production ∈ awkward, production.Spellable "eof" := by
    unfold Production.Spellable Production.Readable
    decide
  have parsed := parse_undoes_text.1 "eof" _ awkward (by decide) spellable
    (parse_undoes_text.2.1 "" awkward (by simp))
  obtain ⟨spelled, again⟩ := parse_undoes_text.2.2 "eof" _ _ parsed
  exact ⟨spellable, parsed, spelled,
    again _ (parse_undoes_text.2.1 "\r\n\t" _ (by simp [isBlank]))⟩

end Grammar

end CanonicalLR
