import CanonicalLR.Proofs.Canonical.Textbook
import CanonicalLR.Proofs.Grammar.Check
import CanonicalLR.Proofs.Rightmost

/-!
Contract: the items that are valid behind a prefix of a right sentential form.

Owns:
- where a nonterminal of a right sentential form was introduced;
- viable prefixes and valid items by rightmost derivations;
- valid items by moves and closure, and that both notions agree;
- words for parts of right-hand sides, where each nonterminal has a word.

Does not own: the states of a table.
-/

namespace CanonicalLR.Grammar

variable {grammar : Grammar}

/-! ### Right sentential forms -/

/-- A derivation that begins with the start production leads to a form in which
the left-hand side of `production`, between `before` and the terminals `after`, is
replaced next. -/
def Expands (grammar : Grammar) (before : List Symbol) (index : Nat) (production : Production)
    (after : List String) : Prop :=
  ∃ start first indices, grammar.startProduction? = some (start, first) ∧
    grammar.productions[index]? = some production ∧
    grammar.Rightmost indices [.nonterminal first.lhs]
      (before ++ .nonterminal production.lhs :: after.map .terminal) ∧
    (indices ++ [index]).head? = some start

/-- The form does not go beyond the right-hand side that a step has introduced. -/
def ViablePrefix (grammar : Grammar) (form : List Symbol) : Prop :=
  ∃ before index production after, grammar.Expands before index production after ∧
    form <+: before ++ production.rhs

/-- The form ends with what stands before the dot of the item in a right-hand side
that a step has introduced, and the terminal comes behind that right-hand side. -/
def ValidItem (grammar : Grammar) (form : List Symbol) (triple : Triple) : Prop :=
  ∃ before production after, grammar.Expands before triple.production production after ∧
    triple.dot ≤ production.rhs.length ∧ form = before ++ production.rhs.take triple.dot ∧
    (after ++ [grammar.endMarker]).head? = some triple.terminal

/-- The items that moves and calls lead to from the start production. -/
inductive Valid (grammar : Grammar) : List Symbol → Triple → Prop where
  | start {triple : Triple} (member : triple ∈ grammar.startItems) : Valid grammar [] triple
  | advance {form behind : List Symbol} {triple : Triple} {symbol : Symbol}
      (valid : Valid grammar form triple)
      (behindDot : grammar.behind? triple = some (symbol :: behind)) :
      Valid grammar (form ++ [symbol]) triple.advance
  | call {form behind : List Symbol} {caller : Triple} {called : Production} {index : Nat}
      {terminal : String} (valid : Valid grammar form caller)
      (behindDot : grammar.behind? caller = some (.nonterminal called.lhs :: behind))
      (found : grammar.productions[index]? = some called)
      (ahead : terminal ∈ grammar.First (behind ++ [.terminal caller.terminal])) :
      Valid grammar form ⟨index, 0, terminal⟩

theorem behind?_eq_some {triple : Triple} {behind : List Symbol} :
    grammar.behind? triple = some behind ↔
      ∃ production, grammar.productions[triple.production]? = some production ∧
        production.rhs.drop triple.dot = behind :=
  Option.map_eq_some_iff

/-! ### Moves and closure, form by form -/

theorem initialSet_eq : grammar.initialSet = {triple | grammar.Valid [] triple} := by
  apply Set.Subset.antisymm
  · intro triple inside
    induction inside with
    | seed member => exact .start member
    | call _ behindDot found ahead inductionHypothesis =>
        exact .call inductionHypothesis behindDot found ahead
  · intro triple valid
    change grammar.Valid [] triple at valid
    generalize same : ([] : List Symbol) = form at valid
    induction valid with
    | start member => exact .seed member
    | advance => simp at same
    | call _ behindDot found ahead inductionHypothesis =>
        exact .call (inductionHypothesis same) behindDot found ahead

theorem gotoOf_valid (form : List Symbol) (symbol : Symbol) :
    grammar.gotoOf {triple | grammar.Valid form triple} symbol =
      {triple | grammar.Valid (form ++ [symbol]) triple} := by
  apply Set.Subset.antisymm
  · intro triple inside
    induction inside with
    | seed member =>
        obtain ⟨origin, valid, behind, behindDot, rfl⟩ := member
        exact .advance valid behindDot
    | call _ behindDot found ahead inductionHypothesis =>
        exact .call inductionHypothesis behindDot found ahead
  · intro triple valid
    change grammar.Valid (form ++ [symbol]) triple at valid
    generalize same : form ++ [symbol] = whole at valid
    induction valid with
    | start => simp at same
    | advance valid behindDot =>
        obtain ⟨rfl, sameSymbol⟩ := List.append_inj' same rfl
        cases sameSymbol
        exact .seed ⟨_, valid, _, behindDot, rfl⟩
    | call _ behindDot found ahead inductionHypothesis =>
        exact .call (inductionHypothesis same) behindDot found ahead

theorem Valid.exists_shorter {form whole : List Symbol} {triple : Triple}
    (valid : grammar.Valid whole triple) (isPrefix : form <+: whole) :
    ∃ earlier, grammar.Valid form earlier := by
  induction valid with
  | start member =>
      rw [List.prefix_nil.1 isPrefix]
      exact ⟨_, .start member⟩
  | advance valid behindDot inductionHypothesis =>
      rcases List.prefix_concat_iff.1 isPrefix with rfl | shorter
      · exact ⟨_, .advance valid behindDot⟩
      · exact inductionHypothesis shorter
  | call _ _ _ _ inductionHypothesis => exact inductionHypothesis isPrefix

/-- The dot of a valid item can move over the symbols behind it. -/
theorem Valid.advance_take {form : List Symbol} {index : Nat} {terminal : String}
    {production : Production} (valid : grammar.Valid form ⟨index, 0, terminal⟩)
    (found : grammar.productions[index]? = some production) {count : Nat}
    (inRange : count ≤ production.rhs.length) :
    grammar.Valid (form ++ production.rhs.take count) ⟨index, count, terminal⟩ := by
  induction count with
  | zero =>
      rw [List.take_zero, List.append_nil]
      exact valid
  | succ count inductionHypothesis =>
      have behindDot : grammar.behind? ⟨index, count, terminal⟩ =
          some (production.rhs[count] :: production.rhs.drop (count + 1)) :=
        behind?_eq_some.2 ⟨production, found, List.drop_eq_getElem_cons inRange⟩
      have moved := (inductionHypothesis (by omega)).advance behindDot
      rw [List.append_assoc, ← List.take_succ_eq_append_getElem] at moved
      exact moved

/-- An item calls for the items of each nonterminal of its right-hand side. -/
theorem Valid.call_within {form inner behind : List Symbol} {caller index : Nat}
    {lookahead terminal : String} {callerProduction called : Production}
    (valid : grammar.Valid form ⟨caller, 0, lookahead⟩)
    (callerFound : grammar.productions[caller]? = some callerProduction)
    (sameRhs : callerProduction.rhs = inner ++ .nonterminal called.lhs :: behind)
    (found : grammar.productions[index]? = some called)
    (ahead : terminal ∈ grammar.First (behind ++ [.terminal lookahead])) :
    grammar.Valid (form ++ inner) ⟨index, 0, terminal⟩ := by
  have inRange : inner.length ≤ callerProduction.rhs.length := by
    rw [sameRhs, List.length_append]
    omega
  have taken : callerProduction.rhs.take inner.length = inner := by
    rw [sameRhs, List.take_left]
  have behindDot : grammar.behind? ⟨caller, inner.length, lookahead⟩ =
      some (.nonterminal called.lhs :: behind) := by
    apply behind?_eq_some.2
    exact ⟨callerProduction, callerFound, by rw [sameRhs, List.drop_left]⟩
  have moved := valid.advance_take callerFound inRange
  rw [taken] at moved
  exact moved.call behindDot found ahead

/-! ### Where nonterminals come from -/

/-- Nothing is derived from the empty form but itself. -/
theorem Rightmost.eq_nil {indices : List Nat} {target : List Symbol}
    (derivation : grammar.Rightmost indices [] target) : indices = [] ∧ target = [] := by
  generalize empty : ([] : List Symbol) = form at derivation
  cases derivation with
  | refl =>
      subst empty
      exact ⟨rfl, rfl⟩
  | step => simp at empty

/-- A nonterminal before terminals stands in the part before them. -/
theorem exists_behind {rhs inner tail : List Symbol} {name : String} {after : List String}
    (same : rhs ++ after.map .terminal = inner ++ .nonterminal name :: tail) :
    ∃ behind, rhs = inner ++ .nonterminal name :: behind ∧
      tail = behind ++ after.map .terminal := by
  rcases append_eq_append_cons same with atFront | ⟨front, -, terminals⟩
  · exact atFront
  · refine absurd ?_ (nonterminal_not_mem name after)
    rw [terminals]
    exact List.mem_append_right _ List.mem_cons_self

/-- A nonterminal of a right sentential form has stood in the first form, or some
step has introduced it. Later steps only derive what comes behind it. -/
theorem Rightmost.introduction {indices : List Nat} {form before : List Symbol} {name : String}
    {after : List String}
    (derivation : grammar.Rightmost indices form
      (before ++ .nonterminal name :: after.map .terminal)) :
    (∃ tail, form = before ++ .nonterminal name :: tail ∧
        grammar.Rightmost indices tail (after.map .terminal)) ∨
      ∃ (earlier later : List Nat) (index : Nat) (production : Production)
          (front inner behind : List Symbol) (back : List String),
        indices = earlier ++ index :: later ∧
        grammar.productions[index]? = some production ∧
        production.rhs = inner ++ .nonterminal name :: behind ∧ before = front ++ inner ∧
        grammar.Rightmost earlier form
          (front ++ .nonterminal production.lhs :: back.map .terminal) ∧
        grammar.Rightmost later (behind ++ back.map .terminal) (after.map .terminal) := by
  generalize same : before ++ .nonterminal name :: after.map .terminal = target at derivation
  induction derivation with
  | refl => exact .inl ⟨_, same.symm, .refl _⟩
  | @step index production indices target found front back _ inductionHypothesis =>
      rcases inductionHypothesis same with ⟨tail, split, rest⟩ |
        ⟨earlier, later, other, otherProduction, otherFront, inner, behind, otherBack, rfl,
          otherFound, sameRhs, sameBefore, start, rest⟩
      · rw [List.append_assoc] at split
        rcases append_eq_append_cons split with ⟨between, rfl, rfl⟩ | ⟨inner, rfl, within⟩
        · refine .inl ⟨between ++ .nonterminal production.lhs :: back.map .terminal, ?_, ?_⟩
          · rw [List.append_assoc, List.cons_append]
          · refine .step found between back ?_
            rw [List.append_assoc]
            exact rest
        · obtain ⟨behind, sameRhs, rfl⟩ := exists_behind within
          exact .inr ⟨[], indices, index, production, front, inner, behind, back, rfl, found,
            sameRhs, rfl, .refl _, rest⟩
      · exact .inr ⟨index :: earlier, later, other, otherProduction, otherFront, inner, behind,
          otherBack, rfl, otherFound, sameRhs, sameBefore, .step found front back start, rest⟩

/-! ### Words -/

/-- Each symbol of a right-hand side has a word. -/
def Productive (grammar : Grammar) : Prop :=
  ∀ production ∈ grammar.productions, ∀ symbol ∈ production.rhs,
    ∃ word, grammar.Yields [symbol] word

theorem Readable.productive (readable : grammar.Readable)
    (words : ∀ name ∈ grammar.nonterminals,
      ∃ word : List String, grammar.Derives [.nonterminal name] (word.map .terminal)) :
    grammar.Productive := by
  intro production member symbol inRhs
  cases symbol with
  | terminal name => exact ⟨[name], .terminal name .nil⟩
  | nonterminal name =>
      obtain ⟨word, derives⟩ := words name (readable.rhs_listed production member name inRhs)
      exact ⟨word, derives_iff_yields.1 derives⟩

/-- The nonterminals of the sample have words. -/
theorem sums_productive : ∀ name ∈ sums.nonterminals,
    ∃ word : List String, sums.Derives [.nonterminal name] (word.map .terminal) := by
  have summand : sums.Yields [.nonterminal "E"] ["n"] :=
    @Yields.nonterminal _ ⟨"E", [.terminal "n"], false⟩ _ _ _ (by decide) (.terminal "n" .nil) .nil
  have sum : sums.Yields [.nonterminal "S"] ["n"] :=
    @Yields.nonterminal _ ⟨"S", [.nonterminal "E"], true⟩ _ _ _ (by decide) summand .nil
  have named : ∀ name ∈ sums.nonterminals.names, name = "S" ∨ name = "E" := by
    decide
  intro name member
  rcases named name member with rfl | rfl
  · exact ⟨["n"], derives_iff_yields.2 sum⟩
  · exact ⟨["n"], derives_iff_yields.2 summand⟩

theorem exists_yields_of_symbols {form : List Symbol}
    (words : ∀ symbol ∈ form, ∃ word, grammar.Yields [symbol] word) :
    ∃ word, grammar.Yields form word := by
  induction form with
  | nil => exact ⟨[], .nil⟩
  | cons head tail inductionHypothesis =>
      obtain ⟨front, headYields⟩ := words head List.mem_cons_self
      obtain ⟨back, tailYields⟩ :=
        inductionHypothesis fun symbol inTail => words symbol (List.mem_cons_of_mem head inTail)
      exact ⟨front ++ back, headYields.append tailYields⟩

theorem Productive.exists_yields (productive : grammar.Productive) {production : Production}
    (member : production ∈ grammar.productions) {part : List Symbol}
    (subset : part ⊆ production.rhs) : ∃ word, grammar.Yields part word :=
  exists_yields_of_symbols fun symbol inPart => productive production member symbol (subset inPart)

/-- A symbol has a word that begins with whatever the symbol starts with. -/
theorem Starts.exists_yields (productive : grammar.Productive) {symbol : Symbol} {name : String}
    (starts : grammar.Starts symbol name) : ∃ word, grammar.Yields [symbol] (name :: word) := by
  induction starts with
  | terminal name => exact ⟨[], .terminal name .nil⟩
  | @nonterminal production first rest name member rhs _ inductionHypothesis =>
      obtain ⟨front, firstYields⟩ := inductionHypothesis
      obtain ⟨back, restYields⟩ := productive.exists_yields member
        (rhs ▸ List.subset_cons_self first rest)
      have inner : grammar.Yields production.rhs (name :: (front ++ back)) :=
        rhs ▸ firstYields.append restYields
      have whole := Yields.nonterminal member inner .nil
      rw [List.append_nil] at whole
      exact ⟨front ++ back, whole⟩

/-- A word of `behind` begins with a given terminal of FIRST, counting what comes
after the word. -/
theorem exists_word_of_first (nonempty : ∀ production ∈ grammar.productions, production.rhs ≠ [])
    (productive : grammar.Productive) {behind : List Symbol} {next terminal : String}
    (words : ∀ symbol ∈ behind, ∃ word, grammar.Yields [symbol] word)
    (ahead : terminal ∈ grammar.First (behind ++ [.terminal next])) :
    ∃ word, grammar.Yields behind word ∧ (word ++ [next]).head? = some terminal := by
  rcases (mem_First_append nonempty).1 ahead with ⟨rfl, rfl⟩ | ⟨first, others, rfl, starts⟩
  · exact ⟨[], .nil, rfl⟩
  · obtain ⟨front, firstYields⟩ := starts.exists_yields productive
    obtain ⟨back, othersYields⟩ := exists_yields_of_symbols fun symbol inOthers =>
      words symbol (List.mem_cons_of_mem first inOthers)
    exact ⟨_, firstYields.append othersYields, rfl⟩

/-- The terminal that comes behind a word of `behind` is in FIRST. -/
theorem first_of_word (nonempty : ∀ production ∈ grammar.productions, production.rhs ≠ [])
    {behind : List Symbol} {word : List String} {next terminal : String}
    (yields : grammar.Yields behind word) (starts : (word ++ [next]).head? = some terminal) :
    terminal ∈ grammar.First (behind ++ [.terminal next]) := by
  rw [mem_First_append nonempty]
  cases behind with
  | nil =>
      cases yields
      exact .inl ⟨rfl, (Option.some.inj starts).symm⟩
  | cons first others =>
      obtain ⟨name, rest, rfl, firstStarts⟩ := yields.starts nonempty
      cases Option.some.inj starts
      exact .inr ⟨first, others, rfl, firstStarts⟩

/-! ### The agreement of both notions -/

private theorem head?_append_cons {Value : Type} (front back : List Value) (value : Value) :
    (front ++ value :: back).head? = (front ++ [value]).head? := by
  cases front <;> rfl

theorem exists_head? (word : List String) (last : String) :
    ∃ name, (word ++ [last]).head? = some name := by
  cases word with
  | nil => exact ⟨last, rfl⟩
  | cons name rest => exact ⟨name, rfl⟩

/-- What comes behind a word matters only if the word is empty. -/
private theorem head?_append_word {after : List String} {last next : String}
    (begins : (after ++ [last]).head? = some next) (word : List String) :
    (word ++ after ++ [last]).head? = (word ++ [next]).head? := by
  cases word with
  | nil => exact begins
  | cons name rest => rfl

/-- The derivation of an item goes on by its production and a word for what stands
behind the symbol after the dot. -/
private theorem Expands.call {before behind : List Symbol} {caller index : Nat}
    {production called : Production} {after word : List String} {dot : Nat}
    (expands : grammar.Expands before caller production after)
    (drop : production.rhs.drop dot = .nonterminal called.lhs :: behind)
    (found : grammar.productions[index]? = some called) (yields : grammar.Yields behind word) :
    grammar.Expands (before ++ production.rhs.take dot) index called (word ++ after) := by
  obtain ⟨start, first, indices, started, callerFound, derivation, isFirst⟩ := expands
  obtain ⟨later, behindDerivation⟩ := yields.rightmost
  have within := behindDerivation.context
    (before ++ production.rhs.take dot ++ [.nonterminal called.lhs]) after
  have sameForm : before ++ production.rhs.take dot ++ [.nonterminal called.lhs] ++ behind ++
      after.map .terminal = before ++ production.rhs ++ after.map .terminal := by
    conv_rhs => rw [← List.take_append_drop dot production.rhs, drop]
    simp only [List.append_assoc, List.singleton_append]
  rw [sameForm] at within
  have whole := derivation.append (.step callerFound before after within)
  refine ⟨start, first, indices ++ caller :: later, started, found, ?_, ?_⟩
  · rw [List.map_append]
    simpa only [List.append_assoc, List.cons_append, List.nil_append] using whole
  · rw [List.append_assoc, List.cons_append, head?_append_cons, isFirst]

theorem Valid.validItem (readable : grammar.Readable) (productive : grammar.Productive)
    {form : List Symbol} {triple : Triple} (valid : grammar.Valid form triple) :
    grammar.ValidItem form triple := by
  induction valid with
  | @start triple member =>
      obtain ⟨first, started, sameDot, sameTerminal⟩ := member
      refine ⟨[], first, [], ⟨triple.production, first, [], started,
        getElem?_of_startProduction? started, .refl _, rfl⟩, ?_, ?_, ?_⟩
      · omega
      · rw [sameDot]
        rfl
      · rw [sameTerminal]
        rfl
  | @advance form behind triple symbol _ behindDot inductionHypothesis =>
      obtain ⟨before, production, after, expands, -, rfl, next⟩ := inductionHypothesis
      obtain ⟨other, found, drop⟩ := behind?_eq_some.1 behindDot
      have ⟨_, _, _, _, foundToo, _⟩ := expands
      cases found.symm.trans foundToo
      have behindDot : production.rhs[triple.dot]? = some symbol := by
        rw [← List.head?_drop, drop, List.head?_cons]
      obtain ⟨inRange, rfl⟩ := List.getElem?_eq_some_iff.1 behindDot
      refine ⟨before, production, after, expands, inRange, ?_, next⟩
      rw [List.append_assoc, ← List.take_succ_eq_append_getElem]
      rfl
  | @call form behind caller called index terminal _ behindDot found ahead inductionHypothesis =>
      obtain ⟨before, production, after, expands, -, rfl, next⟩ := inductionHypothesis
      obtain ⟨other, foundToo, drop⟩ := behind?_eq_some.1 behindDot
      have ⟨_, _, _, _, callerFound, _⟩ := expands
      cases foundToo.symm.trans callerFound
      have words : ∀ symbol ∈ behind, ∃ word, grammar.Yields [symbol] word := by
        intro symbol member
        apply productive production (List.mem_of_getElem? callerFound)
        exact List.mem_of_mem_drop (i := caller.dot) (drop ▸ List.mem_cons_of_mem _ member)
      obtain ⟨word, yields, begins⟩ :=
        exists_word_of_first readable.nonempty productive words ahead
      exact ⟨_, called, word ++ after, expands.call drop found yields, Nat.zero_le _,
        (List.append_nil _).symm, (head?_append_word next word).trans begins⟩

/-- The items of a production that is expanded are valid, by the step that has
introduced its left-hand side. -/
private theorem valid_of_rightmost (readable : grammar.Readable) {start : Nat} {first : Production}
    (started : grammar.startProduction? = some (start, first)) (length : Nat) :
    ∀ {indices : List Nat} {before : List Symbol} {index : Nat} {production : Production}
      {after : List String} {terminal : String}, indices.length = length →
      grammar.productions[index]? = some production →
      grammar.Rightmost indices [.nonterminal first.lhs]
        (before ++ .nonterminal production.lhs :: after.map .terminal) →
      (indices ++ [index]).head? = some start →
      (after ++ [grammar.endMarker]).head? = some terminal →
      grammar.Valid before ⟨index, 0, terminal⟩ := by
  induction length using Nat.strongRecOn with
  | ind length inductionHypothesis =>
      intro indices before index production after terminal sameLength found derivation isFirst next
      rcases derivation.introduction with ⟨tail, whole, rest⟩ |
        ⟨earlier, later, caller, callerProduction, front, inner, behind, back, rfl, callerFound,
          sameRhs, rfl, beginning, rest⟩
      · cases before with
        | cons head others => simp at whole
        | nil =>
            obtain ⟨-, rfl⟩ := List.cons.inj whole
            obtain ⟨rfl, nothingAfter⟩ := rest.eq_nil
            cases List.map_eq_nil_iff.1 nothingAfter
            cases Option.some.inj isFirst
            cases Option.some.inj next
            exact .start ⟨first, started, rfl, rfl⟩
      · obtain ⟨lookahead, callerNext⟩ := exists_head? back grammar.endMarker
        have shorter : earlier.length < length := by
          rw [List.length_append, List.length_cons] at sameLength
          omega
        have callerFirst : (earlier ++ [caller]).head? = some start := by
          rw [← isFirst, List.append_assoc, List.cons_append]
          exact (head?_append_cons earlier (later ++ [index]) caller).symm
        have callerValid : grammar.Valid front ⟨caller, 0, lookahead⟩ :=
          inductionHypothesis earlier.length shorter rfl callerFound beginning callerFirst
            callerNext
        obtain ⟨word, others, rfl, yields, backYields⟩ :=
          (derives_iff_yields.1 rest.derives).split
        cases Yields.eq_of_terminals backYields
        have begins : (word ++ [lookahead]).head? = some terminal :=
          (head?_append_word callerNext word).symm.trans next
        exact callerValid.call_within callerFound sameRhs found
          (first_of_word readable.nonempty yields begins)

/-- Items of derivations are valid, whether or not the nonterminals have words. -/
theorem ValidItem.valid (readable : grammar.Readable) {form : List Symbol} {triple : Triple}
    (validItem : grammar.ValidItem form triple) : grammar.Valid form triple := by
  obtain ⟨before, production, after, ⟨start, first, indices, started, found, derivation, isFirst⟩,
    inRange, rfl, next⟩ := validItem
  have valid := valid_of_rightmost readable started _ rfl found derivation isFirst next
  exact valid.advance_take found inRange

theorem valid_iff (readable : grammar.Readable) (productive : grammar.Productive)
    {form : List Symbol} {triple : Triple} :
    grammar.Valid form triple ↔ grammar.ValidItem form triple :=
  ⟨Valid.validItem readable productive, ValidItem.valid readable⟩

/-- The complete item of a production is valid behind its right-hand side. -/
theorem Expands.valid (readable : grammar.Readable) {before : List Symbol} {index : Nat}
    {production : Production} {after : List String} {terminal : String}
    (expands : grammar.Expands before index production after)
    (next : (after ++ [grammar.endMarker]).head? = some terminal) :
    grammar.Valid (before ++ production.rhs) ⟨index, production.rhs.length, terminal⟩ := by
  apply ValidItem.valid readable
  refine ⟨before, production, after, expands, Nat.le_refl _, ?_, next⟩
  rw [List.take_length]

/-- The viable prefixes are the forms with a valid item. -/
theorem viablePrefix_iff (readable : grammar.Readable) (productive : grammar.Productive)
    {form : List Symbol} : grammar.ViablePrefix form ↔ ∃ triple, grammar.Valid form triple := by
  constructor
  · rintro ⟨before, index, production, after, expands, isPrefix⟩
    obtain ⟨terminal, next⟩ := exists_head? after grammar.endMarker
    exact (expands.valid readable next).exists_shorter isPrefix
  · rintro ⟨triple, valid⟩
    obtain ⟨before, production, after, expands, -, rfl, -⟩ := valid.validItem readable productive
    refine ⟨before, triple.production, production, after, expands, ?_⟩
    exact (List.prefix_append_right_inj before).2 (List.take_prefix _ _)

end CanonicalLR.Grammar
