import CanonicalLR.Proofs.Grammar.Reading

/-!
Contract: what grammar text guarantees of a grammar.

Owns:
- the agreement of the parts of a grammar that is made of productions.

Does not own: which text is accepted, and the checks before a parse table.
-/

namespace CanonicalLR

/-- The parts of a grammar agree as in grammar text: the first production is the
start production, and each right-hand side is readable and uses listed names. -/
structure Grammar.Readable (grammar : Grammar) : Prop where
  starts : ∃ first others, grammar.productions = first :: others ∧ first.isStart = true ∧
    first.lhs = grammar.start
  readable : ∀ production ∈ grammar.productions, production.Readable grammar.endMarker
  lhs_listed : ∀ production ∈ grammar.productions, production.lhs ∈ grammar.nonterminals
  rhs_listed : ∀ production ∈ grammar.productions, ∀ name,
    .nonterminal name ∈ production.rhs → name ∈ grammar.nonterminals

variable {endMarker : String}

/-! ### Grammars from productions -/

namespace Grammar

/-- Marking changes nothing but the marks. -/
theorem mem_markStart {production : Production} {productions : List Production}
    (member : production ∈ markStart productions) :
    ∃ unmarked ∈ productions, unmarked.lhs = production.lhs ∧ unmarked.rhs = production.rhs := by
  cases productions with
  | nil => simp [markStart] at member
  | cons first others =>
      rcases List.mem_cons.1 member with same | inOthers
      · exact ⟨first, List.mem_cons_self, by rw [same], by rw [same]⟩
      · obtain ⟨other, otherMember, same⟩ := List.mem_map.1 inOthers
        exact ⟨other, List.mem_cons_of_mem first otherMember, by rw [← same], by rw [← same]⟩

/-- Every name in the productions is listed, and so is the end marker. -/
structure Listed (grammar : Grammar) : Prop where
  endMarker : grammar.endMarker ∈ grammar.terminals
  lhs : ∀ production ∈ grammar.productions, production.lhs ∈ grammar.nonterminals
  terminal : ∀ production ∈ grammar.productions, ∀ name,
    .terminal name ∈ production.rhs → name ∈ grammar.terminals
  nonterminal : ∀ production ∈ grammar.productions, ∀ name,
    .nonterminal name ∈ production.rhs → name ∈ grammar.nonterminals

theorem ofProductions_listed (endMarker : String) (productions : List Production) :
    (ofProductions endMarker productions).Listed where
  endMarker := NameList.mem_add.2 (.inr rfl)
  lhs := by
    intro production member
    obtain ⟨unmarked, unmarkedMember, sameLhs, -⟩ := mem_markStart member
    refine NameList.mem_ofList.2 (List.mem_flatMap.2 ⟨unmarked, unmarkedMember, ?_⟩)
    rw [sameLhs]
    exact List.mem_cons_self
  terminal := by
    intro production member name used
    obtain ⟨unmarked, unmarkedMember, -, sameRhs⟩ := mem_markStart member
    refine NameList.mem_add.2 (.inl (NameList.mem_ofList.2
      (List.mem_flatMap.2 ⟨unmarked, unmarkedMember, ?_⟩)))
    refine List.mem_filterMap.2 ⟨.terminal name, ?_, rfl⟩
    rwa [sameRhs]
  nonterminal := by
    intro production member name used
    obtain ⟨unmarked, unmarkedMember, -, sameRhs⟩ := mem_markStart member
    refine NameList.mem_ofList.2 (List.mem_flatMap.2 ⟨unmarked, unmarkedMember, ?_⟩)
    refine List.mem_cons_of_mem _ (List.mem_filterMap.2 ⟨.nonterminal name, ?_, rfl⟩)
    rwa [sameRhs]

theorem ofProductions_readable {productions : List Production} (someProduction : productions ≠ [])
    (readable : ∀ production ∈ productions, production.Readable endMarker) :
    (ofProductions endMarker productions).Readable where
  starts := by
    cases productions with
    | nil => contradiction
    | cons first others => exact ⟨_, _, rfl, rfl, rfl⟩
  readable := by
    intro production member
    obtain ⟨unmarked, unmarkedMember, -, sameRhs⟩ := mem_markStart member
    have := readable unmarked unmarkedMember
    rwa [Production.Readable, sameRhs] at this
  lhs_listed := (ofProductions_listed endMarker productions).lhs
  rhs_listed := (ofProductions_listed endMarker productions).nonterminal

/-- The two ways to a grammar whose parts agree. -/
inductive Made : Grammar → Prop where
  | parsed {endMarker source : String} {grammar : Grammar}
      (parsed : parse endMarker source = .ok grammar) : Made grammar
  | built (endMarker : String) (productions : List Production) :
      Made (ofProductions endMarker productions)

theorem Made.exists_productions {grammar : Grammar} (made : grammar.Made) :
    ∃ endMarker productions, grammar = ofProductions endMarker productions := by
  cases made with
  | parsed parsed =>
      obtain ⟨_, -, read⟩ := bind_eq_ok.1 parsed
      obtain ⟨productions, -, same⟩ := bind_eq_ok.1 read
      cases same
      exact ⟨_, productions, rfl⟩
  | built endMarker productions => exact ⟨endMarker, productions, rfl⟩

theorem Made.listed {grammar : Grammar} (made : grammar.Made) : grammar.Listed := by
  obtain ⟨endMarker, productions, rfl⟩ := made.exists_productions
  exact ofProductions_listed endMarker productions

/-- The start symbol is the left-hand side of the start production. -/
theorem Made.lhs_eq_start {grammar : Grammar} (made : grammar.Made) {index : Nat}
    {production : Production} (started : grammar.startProduction? = some (index, production)) :
    production.lhs = grammar.start := by
  obtain ⟨endMarker, productions, rfl⟩ := made.exists_productions
  cases productions with
  | nil => contradiction
  | cons first others =>
      simp only [startProduction?, ofProductions, markStart, List.zipIdx_cons, List.find?_cons_of_pos,
        Option.map_some, Option.some.injEq, Prod.mk.injEq] at started
      rw [← started.2]
      rfl

theorem parse_readable {source : String} {grammar : Grammar}
    (parsed : parse endMarker source = .ok grammar) : grammar.Readable := by
  obtain ⟨lexemes, -, read⟩ := bind_eq_ok.1 parsed
  obtain ⟨productions, parsedProductions, same⟩ := bind_eq_ok.1 read
  cases same
  obtain ⟨someProduction, readable, -⟩ := parseProductions_eq_ok_iff.1 parsedProductions
  exact ofProductions_readable someProduction readable

/-- Sums with one kind of summand, as a sample. -/
def sums : Grammar :=
  ofProductions "eof"
    [⟨"S", [.nonterminal "E"], false⟩,
      ⟨"E", [.nonterminal "E", .terminal "+", .terminal "n"], false⟩,
      ⟨"E", [.terminal "n"], false⟩]

theorem parse_sums :
    parse "eof" "<S> : <E> ; <E> : <E> [+] [n] ; <E> : [n] ;" = .ok sums := by
  decide +kernel

theorem startProduction?_sums :
    sums.startProduction? = some (0, ⟨"S", [.nonterminal "E"], true⟩) := by
  decide

/-- The start symbol on a cycle of single symbols, as a sample. -/
def loop : Grammar :=
  ofProductions "eof"
    [⟨"S", [.nonterminal "A"], false⟩,
      ⟨"A", [.nonterminal "S"], false⟩,
      ⟨"A", [.terminal "a"], false⟩]

theorem parse_loop : parse "eof" "<S> : <A> ; <A> : <S> ; <A> : [a] ;" = .ok loop := by
  decide +kernel

/-- A nonterminal that may be empty, before the terminal that it may also be. This sample
is made by hand and lists no names; text cannot leave a right-hand side empty. -/
def optional : Grammar where
  start := "S"
  endMarker := "eof"
  productions :=
    [⟨"S", [.nonterminal "A", .terminal "a"], true⟩,
      ⟨"A", [], false⟩,
      ⟨"A", [.terminal "a"], false⟩]
  terminals := ∅
  nonterminals := ∅

theorem Readable.nonempty {grammar : Grammar} (readable : grammar.Readable) :
    ∀ production ∈ grammar.productions, production.rhs ≠ [] :=
  fun production member => (readable.readable production member).1

theorem Readable.startProduction?_eq {grammar : Grammar} (readable : grammar.Readable) :
    ∃ first, grammar.productions[0]? = some first ∧
      grammar.startProduction? = some (0, first) := by
  obtain ⟨first, others, productions, marked, -⟩ := readable.starts
  refine ⟨first, ?_, ?_⟩
  · rw [productions, List.getElem?_cons_zero]
  · simp [startProduction?, productions, marked, List.zipIdx_cons]

/-! ### Productions by name and index -/

theorem productionsFrom_eq (index : Nat) (nonterminal : String) (productions : List Production) :
    productionsFrom index nonterminal productions =
      ((productions.zipIdx index).filter fun entry => entry.1.lhs = nonterminal).map
        Prod.swap := by
  induction productions generalizing index with
  | nil => rfl
  | cons first others inductionHypothesis =>
      unfold productionsFrom
      rw [inductionHypothesis, List.zipIdx_cons, List.filter_cons]
      by_cases same : first.lhs = nonterminal
      · rw [if_pos same, if_pos (decide_eq_true same), List.map_cons, Prod.swap_prod_mk]
      · rw [if_neg same, if_neg (by simpa using same)]

theorem mem_productionsFor {grammar : Grammar} {index : Nat} {nonterminal : String}
    {production : Production} :
    (index, production) ∈ grammar.productionsFor nonterminal ↔
      grammar.productions[index]? = some production ∧ production.lhs = nonterminal := by
  rw [productionsFor, productionsFrom_eq, List.mem_map]
  constructor
  · rintro ⟨⟨listed, position⟩, member, swapped⟩
    cases swapped
    obtain ⟨inProductions, same⟩ := List.mem_filter.1 member
    exact ⟨List.mem_zipIdx_iff_getElem?.1 inProductions, of_decide_eq_true same⟩
  · rintro ⟨found, same⟩
    have inProductions : (production, index) ∈ grammar.productions.zipIdx :=
      List.mem_zipIdx_iff_getElem?.2 found
    exact ⟨_, List.mem_filter.2 ⟨inProductions, decide_eq_true same⟩, rfl⟩

end Grammar

end CanonicalLR
