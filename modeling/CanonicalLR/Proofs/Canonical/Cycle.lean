import CanonicalLR.Proofs.Canonical.Handle

/-!
Contract: nonterminals that derive themselves.

Owns:
- rightmost derivations that reach a nonterminal of any derived form;
- that derivations of single symbols are rightmost;
- that valid items conflict unless every cycle goes through the start production
  and through no longer form;
- the failure of generation under the policy `fail` for such grammars.

Does not own: unambiguity where nothing returns to the start symbol.
-/

namespace CanonicalLR

namespace Grammar

variable {grammar : Grammar}

/-! ### Occurrences of nonterminals -/

theorem Yields.eq_nil (nonempty : ∀ production ∈ grammar.productions, production.rhs ≠ [])
    {form : List Symbol} (yields : grammar.Yields form []) : form = [] := by
  cases form with
  | nil => rfl
  | cons first others =>
      obtain ⟨name, rest, absurdity, -⟩ := yields.starts nonempty
      contradiction

/-- A rightmost derivation reaches the nonterminal, with nothing before it or behind it
only where `before` or `after` is empty. -/
def Exposes (grammar : Grammar) (form before : List Symbol) (name : String)
    (after : List Symbol) : Prop :=
  ∃ (indices : List Nat) (front : List Symbol) (back : List String),
    grammar.Rightmost indices form (front ++ .nonterminal name :: back.map .terminal) ∧
      (front = [] → before = []) ∧ (back = [] → after = [])

/-- A derivation goes on with what stands behind a nonterminal. -/
theorem Rightmost.yield_behind {indices : List Nat} {form front behind : List Symbol}
    {name : String} {word back : List String}
    (derivation : grammar.Rightmost indices form
      (front ++ .nonterminal name :: (behind ++ back.map .terminal)))
    (yields : grammar.Yields behind word) :
    ∃ more, grammar.Rightmost more form
      (front ++ .nonterminal name :: (word ++ back).map .terminal) := by
  obtain ⟨later, behindDerivation⟩ := yields.rightmost
  have inContext := behindDerivation.context (front ++ [.nonterminal name]) back
  simp only [List.append_assoc, List.singleton_append] at inContext
  rw [List.map_append]
  exact ⟨indices ++ later, derivation.append inContext⟩

section Exposes

variable (nonempty : ∀ production ∈ grammar.productions, production.rhs ≠ [])

include nonempty

theorem exposes_of_words {before after : List Symbol} {name : String}
    (words : ∀ symbol ∈ after, ∃ word, grammar.Yields [symbol] word) :
    grammar.Exposes (before ++ .nonterminal name :: after) before name after := by
  obtain ⟨word, yields⟩ := exists_yields_of_symbols words
  have start : grammar.Rightmost [] (before ++ .nonterminal name :: after)
      (before ++ .nonterminal name :: (after ++ ([] : List String).map .terminal)) := by
    rw [List.map_nil, List.append_nil]
    exact .refl _
  obtain ⟨more, derivation⟩ := start.yield_behind yields
  rw [List.append_nil] at derivation
  refine ⟨more, before, word, derivation, fun empty => empty, ?_⟩
  rintro rfl
  exact yields.eq_nil nonempty

/-- A step from an exposed nonterminal exposes those of the right-hand side. -/
theorem Exposes.step (productive : grammar.Productive) {form before after inner behind : List Symbol}
    {name : String} {production : Production} (member : production ∈ grammar.productions)
    (sameRhs : production.rhs = inner ++ .nonterminal name :: behind)
    (exposes : grammar.Exposes form before production.lhs after) :
    grammar.Exposes form (before ++ inner) name (behind ++ after) := by
  obtain ⟨indices, front, back, derivation, keepsBefore, keepsAfter⟩ := exposes
  obtain ⟨index, found⟩ := List.getElem?_of_mem member
  have expanded := derivation.append (.step found front back (.refl _))
  have introduced : front ++ production.rhs ++ back.map .terminal =
      (front ++ inner) ++ .nonterminal name :: (behind ++ back.map .terminal) := by
    simp [sameRhs]
  rw [introduced] at expanded
  have inRhs : behind ⊆ production.rhs := by
    rw [sameRhs]
    exact List.subset_append_of_subset_right _ (List.subset_cons_self _ _)
  obtain ⟨word, yields⟩ := productive.exists_yields member inRhs
  obtain ⟨more, whole⟩ := expanded.yield_behind yields
  refine ⟨more, front ++ inner, word ++ back, whole, fun empty => ?_, fun empty => ?_⟩
  · obtain ⟨noFront, noInner⟩ := List.append_eq_nil_iff.1 empty
    rw [keepsBefore noFront, noInner, List.append_nil]
  · obtain ⟨rfl, noBack⟩ := List.append_eq_nil_iff.1 empty
    rw [keepsAfter noBack, yields.eq_nil nonempty, List.append_nil]

/-- Every nonterminal of a derived form is exposed by a rightmost derivation, which
need not be a rearrangement of the given one. -/
theorem Derives.exposes (productive : grammar.Productive) {form target : List Symbol}
    (words : ∀ symbol ∈ form, ∃ word, grammar.Yields [symbol] word)
    (derives : grammar.Derives form target) {before after : List Symbol} {name : String}
    (occurs : target = before ++ .nonterminal name :: after) :
    grammar.Exposes form before name after := by
  induction derives generalizing before after name with
  | refl =>
      subst occurs
      exact exposes_of_words nonempty fun symbol member =>
        words symbol (List.mem_append_right _ (List.mem_cons_of_mem _ member))
  | tail _ rewrites inductionHypothesis =>
      obtain @⟨production, member, left, right⟩ := rewrites
      rw [List.append_assoc] at occurs
      -- The occurrence is new, or it was there before the step, on its left or its right.
      rcases append_eq_append_cons occurs with ⟨between, rfl, rfl⟩ | ⟨inner, rfl, inRest⟩
      · obtain ⟨indices, front, back, derivation, keepsBefore, keepsAfter⟩ :=
          inductionHypothesis (List.append_assoc before (.nonterminal name :: between) _)
        exact ⟨indices, front, back, derivation, keepsBefore, fun empty => by
          simpa using keepsAfter empty⟩
      rcases append_eq_append_cons inRest with ⟨behind, sameRhs, rfl⟩ | ⟨between, rfl, rfl⟩
      · exact (inductionHypothesis rfl).step nonempty productive member sameRhs
      · obtain ⟨indices, front, back, derivation, keepsBefore, keepsAfter⟩ :=
          inductionHypothesis
            (List.append_assoc left (.nonterminal production.lhs :: between) _).symm
        exact ⟨indices, front, back, derivation, fun empty => by simpa using keepsBefore empty,
          keepsAfter⟩

/-! ### Derivations of single symbols -/

/-- A step on the way to a single symbol is a step from a single nonterminal. -/
theorem Rewrites.rightmost_of_single {form middle : List Symbol} {symbol : Symbol}
    {indices : List Nat} (rewrites : grammar.Rewrites form middle)
    (rest : grammar.Rightmost indices middle [symbol]) :
    ∃ index, grammar.Rightmost (index :: indices) form [symbol] := by
  obtain ⟨member, before, after⟩ := rewrites
  have short := rest.derives.length_le nonempty
  have someSymbol := List.length_pos_iff.2 (nonempty _ member)
  simp only [List.length_append, List.length_singleton] at short
  obtain rfl := List.length_eq_zero_iff.1 (show before.length = 0 by omega)
  obtain rfl := List.length_eq_zero_iff.1 (show after.length = 0 by omega)
  obtain ⟨index, found⟩ := List.getElem?_of_mem member
  exact ⟨index, .step found [] [] rest⟩

theorem Derives.rightmost_of_single {form : List Symbol} {symbol : Symbol}
    (derives : grammar.Derives form [symbol]) :
    ∃ indices, grammar.Rightmost indices form [symbol] := by
  induction derives using Relation.ReflTransGen.head_induction_on with
  | refl => exact ⟨[], .refl _⟩
  | head rewrites _ inductionHypothesis =>
      obtain ⟨indices, rest⟩ := inductionHypothesis
      obtain ⟨index, derivation⟩ := rewrites.rightmost_of_single nonempty rest
      exact ⟨index :: indices, derivation⟩

/-- A derivation in one or more steps has one or more productions. -/
theorem rightmost_of_transGen {form : List Symbol} {symbol : Symbol}
    (derives : Relation.TransGen grammar.Rewrites form [symbol]) :
    ∃ indices ≠ [], grammar.Rightmost indices form [symbol] := by
  obtain ⟨middle, rewrites, rest⟩ := Relation.TransGen.head'_iff.1 derives
  obtain ⟨indices, restDerivation⟩ := Derives.rightmost_of_single nonempty rest
  obtain ⟨index, derivation⟩ := rewrites.rightmost_of_single nonempty restDerivation
  exact ⟨index :: indices, List.cons_ne_nil _ _, derivation⟩

end Exposes

/-! ### Cycles -/

/-- Without conflicts among valid items, a cycle stands in no larger form and goes
through the start production. -/
theorem Deterministic.cycle_returns (deterministic : grammar.Deterministic)
    (readable : grammar.Readable) {start : Nat} {first : Production}
    (started : grammar.startProduction? = some (start, first)) {indices cycle : List Nat}
    {before : List Symbol} {name : String} {after : List String}
    (derivation : grammar.Rightmost indices first.rhs
      (before ++ .nonterminal name :: after.map .terminal))
    (returning : grammar.Rightmost cycle [.nonterminal name] [.nonterminal name])
    (someStep : cycle ≠ []) : before = [] ∧ after = [] ∧ start ∈ cycle := by
  have found := getElem?_of_startProduction? started
  have whole : grammar.Rightmost (start :: indices) [.nonterminal first.lhs]
      (before ++ .nonterminal name :: after.map .terminal) := by
    refine .step found [] [] ?_
    simpa using derivation
  -- The cycle is repeated until its rounds outnumber the steps that lead to it.
  obtain ⟨rounds, isRounds⟩ : ∃ rounds,
      rounds = (List.replicate (start :: indices).length cycle).flatten := ⟨_, rfl⟩
  have around : grammar.Rightmost ((start :: indices) ++ rounds) [.nonterminal first.lhs]
      (before ++ .nonterminal name :: after.map .terminal) := by
    have inContext := (returning.repeated (start :: indices).length).context before after
    simp only [List.append_assoc, List.singleton_append, ← isRounds] at inContext
    exact whole.append inContext
  obtain ⟨earlier, ending, back⟩ := deterministic.exists_earlier readable started whole around
    rfl rfl (by simp)
  have enough : (start :: indices).length ≤ earlier.length := by
    have sameLength := congrArg List.length ending
    have someSteps := List.length_pos_iff.2 someStep
    have count : rounds.length = (start :: indices).length * cycle.length := by
      rw [isRounds, List.length_flatten, List.map_replicate, List.sum_replicate_nat]
    have : (start :: indices).length * 1 ≤ (start :: indices).length * cycle.length :=
      Nat.mul_le_mul_left _ someSteps
    rw [List.length_append, List.length_append, count] at sameLength
    omega
  obtain ⟨rest, rfl⟩ : start :: indices <+: earlier :=
    List.prefix_of_prefix_length_le ⟨rounds, rfl⟩ ⟨_, ending.symm⟩ enough
  rw [List.append_assoc] at ending
  have lastRounds := List.append_cancel_left ending
  have inRounds : start ∈ rounds := by simp [lastRounds]
  have inCycle : start ∈ cycle := by
    rw [isRounds] at inRounds
    obtain ⟨round, isRound, member⟩ := List.mem_flatten.1 inRounds
    exact List.eq_of_mem_replicate isRound ▸ member
  obtain ⟨middle, beginning, restDerivation⟩ := back.split
  have short := restDerivation.derives.length_le readable.nonempty
  rw [beginning.target_unique whole, List.length_append, List.length_cons, List.length_map,
    List.length_singleton] at short
  exact ⟨List.length_eq_zero_iff.1 (by omega), List.length_eq_zero_iff.1 (by omega), inCycle⟩

/-! ### Samples -/

/-- A start symbol that derives itself, but not by its start production, as a
sample. -/
def aside : Grammar :=
  ofProductions "eof" [⟨"S", [.terminal "x"], false⟩, ⟨"S", [.nonterminal "S"], false⟩]

theorem parse_aside : parse "eof" "<S> : [x] ; <S> : <S> ;" = .ok aside := by
  decide +kernel

/-- A cycle below the start symbol, as a sample. -/
def beneath : Grammar :=
  ofProductions "eof"
    [⟨"S", [.nonterminal "A", .terminal "x"], false⟩,
      ⟨"A", [.nonterminal "B"], false⟩,
      ⟨"B", [.nonterminal "A"], false⟩,
      ⟨"B", [.terminal "b"], false⟩]

theorem parse_beneath :
    parse "eof" "<S> : <A> [x] ; <A> : <B> ; <B> : <A> ; <B> : [b] ;" = .ok beneath := by
  decide +kernel

end Grammar

/-- A grammar in which a nonterminal derives itself has no table without conflicts if
the nonterminal stands in a derived form with other symbols, or derives itself
without the start production. -/
theorem error_of_cycle {endMarker source : String} {grammar : Grammar} {index : Nat}
    {production : Production} (parsed : Grammar.parse endMarker source = .ok grammar)
    (productive : ∀ name ∈ grammar.nonterminals,
      ∃ word : List String, grammar.Derives [.nonterminal name] (word.map .terminal))
    (started : grammar.startProduction? = some (index, production))
    {before after : List Symbol} {name : String}
    (occurs : grammar.Derives production.rhs (before ++ .nonterminal name :: after))
    (cyclic : Relation.TransGen grammar.Rewrites [.nonterminal name] [.nonterminal name])
    (elsewhere : before ≠ [] ∨ after ≠ [] ∨
      ∃ cycle ≠ [], index ∉ cycle ∧
        grammar.Rightmost cycle [.nonterminal name] [.nonterminal name]) :
    ∃ cause, ParseTable.generate .fail grammar = .error cause := by
  cases generation : ParseTable.generate .fail grammar with
  | error cause => exact ⟨cause, rfl⟩
  | ok table =>
      obtain ⟨rfl, generated⟩ := ParseTable.generated_of_generateWith generation
      have readable := Grammar.parse_readable parsed
      have deterministic := generated.deterministic (generated.conflicts_eq_nil rfl) readable
      have symbolsProductive := readable.productive productive
      have member := List.mem_of_getElem? (Grammar.getElem?_of_startProduction? started)
      obtain ⟨indices, front, back, derivation, keepsBefore, keepsAfter⟩ :=
        occurs.exposes readable.nonempty symbolsProductive (symbolsProductive production member) rfl
      obtain ⟨cycle, someStep, returning⟩ :=
        Grammar.rightmost_of_transGen readable.nonempty cyclic
      obtain ⟨noFront, noBack, -⟩ :=
        deterministic.cycle_returns readable started derivation returning someStep
      rcases elsewhere with someBefore | someAfter | ⟨other, otherStep, avoids, otherReturning⟩
      · exact absurd (keepsBefore noFront) someBefore
      · exact absurd (keepsAfter noBack) someAfter
      · have uses :=
          (deterministic.cycle_returns readable started derivation otherReturning otherStep).2.2
        exact absurd uses avoids

/-- The failure for a cycle whose nonterminal is followed by a terminal. -/
theorem error_of_cycle_beneath :
    ∃ cause, ParseTable.generate .fail Grammar.beneath = .error cause := by
  have member : ∀ index (inRange : index < Grammar.beneath.productions.length),
      Grammar.beneath.productions[index] ∈ Grammar.beneath.productions :=
    fun index inRange => List.getElem_mem inRange
  have yieldsB : Grammar.beneath.Yields [.nonterminal "B"] ["b"] :=
    .nonterminal (member 3 (by decide)) (.terminal "b" .nil) .nil
  have yieldsA : Grammar.beneath.Yields [.nonterminal "A"] ["b"] :=
    .nonterminal (member 1 (by decide)) yieldsB .nil
  have yieldsS : Grammar.beneath.Yields [.nonterminal "S"] ["b", "x"] :=
    .nonterminal (member 0 (by decide)) (yieldsA.append (.terminal "x" .nil)) .nil
  have named : ∀ name ∈ Grammar.beneath.nonterminals.names,
      name = "S" ∨ name = "A" ∨ name = "B" := by
    decide
  have productive : ∀ name ∈ Grammar.beneath.nonterminals,
      ∃ word : List String, Grammar.beneath.Derives [.nonterminal name] (word.map .terminal) := by
    intro name inNames
    rcases named name inNames with rfl | rfl | rfl
    · exact ⟨_, Grammar.derives_iff_yields.2 yieldsS⟩
    · exact ⟨_, Grammar.derives_iff_yields.2 yieldsA⟩
    · exact ⟨_, Grammar.derives_iff_yields.2 yieldsB⟩
  have isFirst : Grammar.beneath.startProduction? =
      some (0, ⟨"S", [.nonterminal "A", .terminal "x"], true⟩) := by
    decide
  have forth : Grammar.beneath.Rewrites [.nonterminal "A"] [.nonterminal "B"] :=
    .expand (member 1 (by decide)) [] []
  have back : Grammar.beneath.Rewrites [.nonterminal "B"] [.nonterminal "A"] :=
    .expand (member 2 (by decide)) [] []
  have occurs : Grammar.beneath.Derives [.nonterminal "A", .terminal "x"]
      ([] ++ .nonterminal "A" :: [.terminal "x"]) :=
    .refl
  exact error_of_cycle Grammar.parse_beneath productive isFirst occurs (.tail (.single forth) back)
    (.inr (.inl (List.cons_ne_nil _ _)))

/-- Two cyclic grammars with words for all nonterminals that have a table without
conflicts. In the first one the cycle goes through the start production alone; in the
second one the start symbol stands in no derived form. -/
theorem exists_table_of_cycle :
    (Grammar.parse "eof" "<S> : <A> ; <A> : <S> ; <A> : [a] ;" = .ok Grammar.loop ∧
      (∀ name ∈ Grammar.loop.nonterminals,
        ∃ word : List String, Grammar.loop.Derives [.nonterminal name] (word.map .terminal)) ∧
      Grammar.loop.startProduction? = some (0, ⟨"S", [.nonterminal "A"], true⟩) ∧
      Grammar.loop.Derives [.nonterminal "A"] ([] ++ .nonterminal "A" :: []) ∧
      Relation.TransGen Grammar.loop.Rewrites [.nonterminal "A"] [.nonterminal "A"] ∧
      ∃ table, ParseTable.generate .fail Grammar.loop = .ok table) ∧
    (Grammar.parse "eof" "<S> : [x] ; <S> : <S> ;" = .ok Grammar.aside ∧
      (∀ name ∈ Grammar.aside.nonterminals,
        ∃ word : List String, Grammar.aside.Derives [.nonterminal name] (word.map .terminal)) ∧
      Grammar.aside.startProduction? = some (0, ⟨"S", [.terminal "x"], true⟩) ∧
      Relation.TransGen Grammar.aside.Rewrites [.nonterminal "S"] [.nonterminal "S"] ∧
      ∃ table, ParseTable.generate .fail Grammar.aside = .ok table) := by
  constructor
  · have yieldsA : Grammar.loop.Yields [.nonterminal "A"] ["a"] :=
      @Grammar.Yields.nonterminal _ ⟨"A", [.terminal "a"], false⟩ _ _ _ (by decide)
        (.terminal "a" .nil) .nil
    have yieldsS : Grammar.loop.Yields [.nonterminal "S"] ["a"] :=
      @Grammar.Yields.nonterminal _ ⟨"S", [.nonterminal "A"], true⟩ _ _ _ (by decide) yieldsA .nil
    have named : ∀ name ∈ Grammar.loop.nonterminals.names, name = "S" ∨ name = "A" := by
      decide
    have forth : Grammar.loop.Rewrites [.nonterminal "A"] [.nonterminal "S"] :=
      @Grammar.Rewrites.expand _ ⟨"A", [.nonterminal "S"], false⟩ (by decide) [] []
    have back : Grammar.loop.Rewrites [.nonterminal "S"] [.nonterminal "A"] :=
      @Grammar.Rewrites.expand _ ⟨"S", [.nonterminal "A"], true⟩ (by decide) [] []
    obtain ⟨table, generation⟩ := ParseTable.exists_generate_loop
    refine ⟨Grammar.parse_loop, fun name member => ?_, by decide, .refl,
      .tail (.single forth) back, table, generation⟩
    rcases named name member with rfl | rfl
    · exact ⟨_, Grammar.derives_iff_yields.2 yieldsS⟩
    · exact ⟨_, Grammar.derives_iff_yields.2 yieldsA⟩
  · have yieldsS : Grammar.aside.Yields [.nonterminal "S"] ["x"] :=
      @Grammar.Yields.nonterminal _ ⟨"S", [.terminal "x"], true⟩ _ _ _ (by decide)
        (.terminal "x" .nil) .nil
    have named : ∀ name ∈ Grammar.aside.nonterminals.names, name = "S" := by
      decide
    have around : Grammar.aside.Rewrites [.nonterminal "S"] [.nonterminal "S"] :=
      @Grammar.Rewrites.expand _ ⟨"S", [.nonterminal "S"], false⟩ (by decide) [] []
    have computed : (ParseTable.generateWith .scan .fail Grammar.aside).toOption.bind
        (fun table => some table.states.size) = some 2 := by
      decide +kernel
    obtain ⟨table, generation, -⟩ := ParseTable.exists_generate_of_scan computed
    refine ⟨Grammar.parse_aside, fun name member => ?_, by decide, .single around, table,
      generation⟩
    rw [named name member]
    exact ⟨_, Grammar.derives_iff_yields.2 yieldsS⟩

end CanonicalLR
