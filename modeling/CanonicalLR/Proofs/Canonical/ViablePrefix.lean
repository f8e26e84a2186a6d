import CanonicalLR.Proofs.Canonical.Path
import CanonicalLR.Proofs.Table.Lookup

/-!
Contract: what the states of a table without conflicts hold.

Owns:
- the state that the entries of a table lead to, symbol by symbol;
- that following the entries is possible exactly along viable prefixes;
- that the state reached holds exactly the valid items.

Does not own: runs, which also pop states.
-/

namespace CanonicalLR

namespace ParseTable

/-- The target of a shift or of a GOTO entry. -/
def entry? (table : ParseTable) (id : Nat) : Symbol → Option Nat
  | .nonterminal name => table.goto? id name
  | .terminal name =>
      match table.action? id name with
      | some (.shift target) => some target
      | some (.reduce _) => none
      | none => none

/-- The state to which the entries lead from the state `id` along the symbols. -/
def follow? (table : ParseTable) : Nat → List Symbol → Option Nat
  | id, [] => some id
  | id, symbol :: rest => (table.entry? id symbol).bind fun target => table.follow? target rest

variable {policy : ConflictPolicy} {table : ParseTable}

theorem follow?_append_singleton (id : Nat) (form : List Symbol) (symbol : Symbol) :
    table.follow? id (form ++ [symbol]) =
      (table.follow? id form).bind fun last => table.entry? last symbol := by
  induction form generalizing id with
  | nil =>
      show (table.entry? id symbol).bind some = table.entry? id symbol
      exact Option.bind_fun_some _
  | cons head tail inductionHypothesis =>
      show (table.entry? id head).bind _ = ((table.entry? id head).bind _).bind _
      cases table.entry? id head with
      | none => rfl
      | some target => exact inductionHypothesis target

namespace Generated

variable (generated : table.Generated policy)

include generated

/-- Without conflicts every transition has its entry. -/
theorem entry?_eq_some (none : table.conflicts = []) {id target : Nat} {symbol : Symbol} :
    table.entry? id symbol = some target ↔ table.Edge id symbol target := by
  cases symbol with
  | nonterminal name => exact generated.goto?_eq_some id name target
  | terminal name =>
      unfold entry?
      constructor
      · intro found
        cases entry : table.action? id name with
        | none => simp [entry] at found
        | some action =>
            cases action with
            | shift other =>
                simp only [entry, Option.some.injEq] at found
                exact found ▸ (generated.candidate_of_action? _ _ _ entry).edge
            | reduce index => simp [entry] at found
      · intro edge
        simp only [generated.action?_of_candidate none (.shift edge)]

/-- Without conflicts the entries lead along the paths from the first state. -/
theorem follow?_eq_some (none : table.conflicts = []) {form : List Symbol} {id : Nat} :
    table.follow? 0 form = some id ↔ ∃ below, table.Path (id :: below) form := by
  induction form using List.reverseRecOn generalizing id with
  | nil =>
      constructor
      · intro followed
        cases Option.some.inj followed
        exact ⟨[], .initial⟩
      · rintro ⟨below, path⟩
        generalize spelled : ([] : List Symbol) = form at path
        cases path with
        | initial => rfl
        | edge => simp at spelled
  | append_singleton form symbol inductionHypothesis =>
      rw [follow?_append_singleton, Option.bind_eq_some_iff]
      constructor
      · rintro ⟨last, followed, entry⟩
        obtain ⟨below, path⟩ := inductionHypothesis.1 followed
        exact ⟨last :: below, path.edge ((generated.entry?_eq_some none).1 entry)⟩
      · rintro ⟨below, path⟩
        generalize spelled : form ++ [symbol] = whole at path
        cases path with
        | initial => simp at spelled
        | edge path edge =>
            obtain ⟨rfl, sameSymbol⟩ := List.append_inj' spelled rfl
            cases sameSymbol
            exact ⟨_, inductionHypothesis.2 ⟨_, path⟩, (generated.entry?_eq_some none).2 edge⟩

end Generated

end ParseTable

/-- A symbol with a word starts with the first terminal of the word. -/
theorem Grammar.Productive.startable {grammar : Grammar} (productive : grammar.Productive)
    (readable : grammar.Readable) : grammar.Startable := by
  intro production member symbol inRhs
  obtain ⟨word, yields⟩ := productive production member symbol inRhs
  obtain ⟨name, -, -, starts⟩ := yields.starts readable.nonempty
  exact ⟨name, starts⟩

/-- In a table without conflicts the entries lead from the first state along the
viable prefixes and along no other form, and the state they lead to holds exactly
the items that are valid behind the form. -/
theorem follow?_iff_viablePrefix {endMarker source : String} {grammar : Grammar}
    {table : ParseTable} (parsed : Grammar.parse endMarker source = .ok grammar)
    (productive : ∀ name ∈ grammar.nonterminals,
      ∃ word : List String, grammar.Derives [.nonterminal name] (word.map .terminal))
    (generation : ParseTable.generate .fail grammar = .ok table) :
    (∀ form, (∃ id, table.follow? 0 form = some id) ↔ grammar.ViablePrefix form) ∧
      ∀ form id, table.follow? 0 form = some id → ∀ triple,
        triple ∈ table.view id ↔ grammar.ValidItem form triple := by
  obtain ⟨rfl, generated⟩ := ParseTable.generated_of_generateWith generation
  have none : table.conflicts = [] := generated.conflicts_eq_nil rfl
  have readable := Grammar.parse_readable parsed
  have symbolsProductive := readable.productive productive
  have startable := symbolsProductive.startable readable
  constructor
  · intro form
    rw [Grammar.viablePrefix_iff readable symbolsProductive]
    constructor
    · rintro ⟨id, followed⟩
      obtain ⟨below, path⟩ := (generated.follow?_eq_some none).1 followed
      exact path.exists_valid generated readable startable
    · rintro ⟨triple, valid⟩
      obtain ⟨top, below, path⟩ := generated.exists_path_of_valid readable valid
      exact ⟨top, (generated.follow?_eq_some none).2 ⟨below, path⟩⟩
  · intro form id followed triple
    obtain ⟨below, path⟩ := (generated.follow?_eq_some none).1 followed
    rw [path.view_eq generated readable startable]
    exact Grammar.valid_iff readable symbolsProductive

/-- The items that are valid behind the first part of a sum. -/
theorem follow?_iff_viablePrefix_sum :
    ∃ table, ParseTable.generate .fail Grammar.sums = .ok table ∧
      table.follow? 0 [.nonterminal "E", .terminal "+"] = some 3 ∧
      Grammar.sums.ViablePrefix [.nonterminal "E", .terminal "+"] ∧
      ∀ triple, triple ∈ table.view 3 ↔
        Grammar.sums.ValidItem [.nonterminal "E", .terminal "+"] triple := by
  have computed : (ParseTable.generateWith .scan .fail Grammar.sums).toOption.bind
      (fun table => table.follow? 0 [.nonterminal "E", .terminal "+"]) = some 3 := by
    decide +kernel
  obtain ⟨table, generation, followed⟩ := ParseTable.exists_generate_of_scan computed
  obtain ⟨viable, valid⟩ := follow?_iff_viablePrefix Grammar.parse_sums
    Grammar.sums_productive generation
  exact ⟨table, generation, followed, (viable _).1 ⟨3, followed⟩, valid _ 3 followed⟩

end CanonicalLR
