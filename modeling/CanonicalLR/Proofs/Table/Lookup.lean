import CanonicalLR.Proofs.Table.Generated

/-!
Contract: the two ways to look for an equal state.

Owns:
- that a construction with buckets simulates one without them, step by step;
- that both make the same table or fail alike, whatever the hash;
- a way to compute with generated tables that needs no hash;
- the conflicts in the tables of the samples.

Does not own: the search itself.
-/

namespace CanonicalLR

namespace Construction

/-- The construction as one that scans all states would have it. -/
def forget (construction : Construction) : Construction :=
  { construction with buckets := ∅ }

variable {lookup : StateLookup} {construction : Construction}

theorem Indexed.forget (indexed : Indexed lookup construction) :
    Indexed .scan construction.forget where
  id_eq := indexed.id_eq
  distinct := indexed.distinct
  listed := by
    intro hash hashed
    contradiction

theorem find?_forget (indexed : Indexed lookup construction) (kernel : Item) (items : ItemSet) :
    construction.forget.find? .scan kernel items = construction.find? lookup kernel items := by
  ext id
  exact (find?_eq_some_iff indexed.forget).trans (find?_eq_some_iff indexed).symm

theorem intern_forget (indexed : Indexed lookup construction) (kernel : Item) (items : ItemSet) :
    construction.forget.intern .scan kernel items =
      ((construction.intern lookup kernel items).1,
        (construction.intern lookup kernel items).2.forget) := by
  unfold intern
  rw [find?_forget indexed]
  cases construction.find? lookup kernel items with
  | none => rfl
  | some id => rfl

theorem follow_forget {closure : Closing} (indexed : Indexed lookup construction)
    (transitions : List Transition) :
    construction.forget.follow .scan closure transitions =
      (construction.follow lookup closure transitions).map fun followed =>
        (followed.1, followed.2.forget) := by
  induction transitions generalizing construction with
  | nil => rfl
  | cons transition rest inductionHypothesis =>
      unfold follow
      cases closure transition.seeds with
      | error cause => rfl
      | ok items =>
          cases interned : construction.intern lookup transition.kernel items with
          | mk target extended =>
          have extendedIndexed := (intern_spec indexed interned).1
          have sameIntern := intern_forget indexed transition.kernel items
          rw [interned] at sameIntern
          simp only [bind, Except.bind, interned, sameIntern, inductionHypothesis extendedIndexed]
          cases extended.follow lookup closure rest <;> rfl

theorem complete_forget {policy : ConflictPolicy} {closure : Closing}
    (indexed : Indexed lookup construction) (state : State) :
    construction.forget.complete .scan policy closure state =
      (construction.complete lookup policy closure state).map forget := by
  unfold complete
  rw [follow_forget indexed]
  cases construction.follow lookup closure state.items.transitions with
  | error cause => rfl
  | ok followed =>
      obtain ⟨targets, extended⟩ := followed
      simp only [Except.map, bind, Except.bind]
      cases writeActions policy state.id ∅ (state.items.reductions ++ shiftsOf targets) with
      | error cause => rfl
      | ok written => rfl

theorem complete_indexed {policy : ConflictPolicy} {closure : Closing} {state : State}
    {final : Construction} (indexed : Indexed lookup construction)
    (completed : construction.complete lookup policy closure state = .ok final) :
    Indexed lookup final := by
  obtain ⟨⟨targets, extended⟩, followed, writing⟩ := bind_eq_ok.1 completed
  obtain ⟨_, _, same⟩ := bind_eq_ok.1 writing
  cases same
  have ⟨id_eq, distinct, listed⟩ := (follow_spec indexed followed).1
  exact ⟨id_eq, distinct, listed⟩

theorem run_forget {policy : ConflictPolicy} {closure : Closing} {limit : Nat}
    (indexed : Indexed lookup construction) :
    run .scan policy closure limit construction.forget =
      (run lookup policy closure limit construction).map forget := by
  induction limit generalizing construction with
  | zero => rfl
  | succ limit inductionHypothesis =>
      have sameWaiting : construction.forget.states[construction.forget.rows.size]? =
          construction.states[construction.rows.size]? := rfl
      cases waits : construction.states[construction.rows.size]? with
      | none =>
          rw [run_of_noneWaits waits, run_of_noneWaits (sameWaiting.trans waits)]
          rfl
      | some state =>
          rw [run_succ_of_waits waits, run_succ_of_waits (sameWaiting.trans waits),
            complete_forget indexed]
          cases completed : construction.complete lookup policy closure state with
          | error cause => rfl
          | ok extended => exact inductionHypothesis (complete_indexed indexed completed)

/-- Wherever a run has come to, its index is in order. -/
theorem indexed_of_run {policy : ConflictPolicy} {closure : Closing} {kernel : Item} {limit : Nat}
    {first final : Construction} (begun : initial lookup closure kernel = .ok first)
    (ran : run lookup policy closure limit first = .ok final) : Indexed lookup final := by
  obtain ⟨_, _, coherent⟩ := Coherent.of_initial policy begun
  exact run_keeps (fun _ _ _ indexed _ completed => complete_indexed indexed completed)
    coherent.toIndexed ran

theorem initial_forget (lookup : StateLookup) (closure : Closing) (kernel : Item) :
    initial .scan closure kernel = (initial lookup closure kernel).map forget := by
  unfold initial
  cases closure [kernel] with
  | error cause => rfl
  | ok items => rfl

end Construction

namespace ParseTable

open Construction

/-- The way to look for equal states, and so the hash of a state, has no
influence on the table. -/
theorem draft_eq_scan (lookup : StateLookup) (policy : ConflictPolicy) (limit : Nat)
    (grammar : Grammar) :
    draft lookup policy limit grammar = draft .scan policy limit grammar := by
  rw [draft_eq, draft_eq]
  cases grammar.checkedStart with
  | error cause => rfl
  | ok start =>
      obtain ⟨index, production⟩ := start
      simp only [bind, Except.bind, initial_forget lookup]
      cases begun : initial lookup (close grammar (Sets.ofGrammar grammar))
          (.start index production {grammar.endMarker}) with
      | error cause => rfl
      | ok first =>
          obtain ⟨_, _, coherent⟩ := Coherent.of_initial policy begun
          simp only [Except.map, run_forget coherent.toIndexed]
          cases run lookup policy (close grammar (Sets.ofGrammar grammar)) limit first <;> rfl

/-- No hash of states has an influence on what is generated, however many states it gives the
same value. The outcome is that of scanning all states, and so are the states, rows and
conflicts after any number of completed states; wherever a run has come to, the bucket of a
state holds what a scan would find. -/
theorem generation_blind_to_hash (hash : Item → ItemSet → UInt64) (policy : ConflictPolicy)
    (grammar : Grammar) :
    generateWith (.hashed hash) policy grammar = generateWith .scan policy grammar ∧
      (∀ limit, draft (.hashed hash) policy limit grammar = draft .scan policy limit grammar) ∧
      ∀ (kernel : Item) (limit : Nat) (first construction : Construction),
        initial (.hashed hash) (close grammar (Sets.ofGrammar grammar)) kernel = .ok first →
        run (.hashed hash) policy (close grammar (Sets.ofGrammar grammar)) limit first =
          .ok construction →
        ∀ (wanted : Item) (items : ItemSet),
          construction.find? (.hashed hash) wanted items =
            construction.find? .scan wanted items := by
  refine ⟨draft_eq_scan _ policy _ grammar, fun limit => draft_eq_scan _ policy limit grammar, ?_⟩
  intro kernel limit first construction begun ran wanted items
  exact (find?_forget (indexed_of_run begun ran) wanted items).symm

private theorem size_scan_sums :
    (generateWith .scan .fail Grammar.sums).toOption.bind
      (fun table => some table.states.size) = some 5 := by
  decide +kernel

/-- All states in one bucket. -/
theorem generation_blind_to_hash_constant :
    ∃ table, generateWith (.hashed fun _ _ => 0) .fail Grammar.sums = .ok table ∧
      table.states.size = 5 ∧
      ∃ first construction, initial (.hashed fun _ _ => 0)
          (close Grammar.sums (Sets.ofGrammar Grammar.sums))
          (.start 0 ⟨"S", [.nonterminal "E"], true⟩ {"eof"}) = .ok first ∧
        run (.hashed fun _ _ => 0) .fail (close Grammar.sums (Sets.ofGrammar Grammar.sums))
          (limit Grammar.sums) first = .ok construction ∧
        ∀ (wanted : Item) (items : ItemSet),
          construction.find? (.hashed fun _ _ => 0) wanted items =
            construction.find? .scan wanted items := by
  obtain ⟨same, -, finds⟩ := generation_blind_to_hash (fun _ _ => 0) .fail Grammar.sums
  obtain ⟨table, scanned, size⟩ := Option.bind_eq_some_iff.1 size_scan_sums
  rw [← same, toOption_eq_some] at scanned
  obtain ⟨_, _, first, construction, started, -, -, begun, ran, -⟩ := draft_eq_ok.1 scanned
  cases Grammar.startProduction?_sums.symm.trans started
  exact ⟨table, scanned, Option.some.inj size, first, construction, begun, ran,
    finds _ _ first construction begun ran⟩

/-- What is computed of the table that scanning makes holds of the generated one. -/
theorem exists_generate_of_scan {Result : Type} {policy : ConflictPolicy} {grammar : Grammar}
    {compute : ParseTable → Option Result} {result : Result}
    (computed : (generateWith .scan policy grammar).toOption.bind compute = some result) :
    ∃ table, generate policy grammar = .ok table ∧ compute table = some result := by
  obtain ⟨table, scanned, same⟩ := Option.bind_eq_some_iff.1 computed
  refine ⟨table, ?_, same⟩
  rw [generate, generateWith, draft_eq_scan]
  exact toOption_eq_some.1 scanned

/-- The first sample has a table without conflicts. -/
theorem exists_generate_sums : ∃ table, generate .fail Grammar.sums = .ok table := by
  obtain ⟨table, generation, -⟩ := exists_generate_of_scan size_scan_sums
  exact ⟨table, generation⟩

/-- So has the sample with a cycle. -/
theorem exists_generate_loop : ∃ table, generate .fail Grammar.loop = .ok table := by
  have computed : (generateWith .scan .fail Grammar.loop).toOption.bind
      (fun table => some table.states.size) = some 4 := by
    decide +kernel
  obtain ⟨table, generation, -⟩ := exists_generate_of_scan computed
  exact ⟨table, generation⟩

/-- In the first state of the sample made by hand, a shift loses to a reduction of nothing. -/
theorem exists_generate_optional : ∃ table, generate .report Grammar.optional = .ok table ∧
    table.conflicts = [⟨0, "a", .reduce 1, .shift 2⟩] := by
  have computed : (generateWith .scan .report Grammar.optional).toOption.bind
      (fun table => some table.conflicts) = some [⟨0, "a", .reduce 1, .shift 2⟩] := by
    decide +kernel
  obtain ⟨table, generation, conflicts⟩ := exists_generate_of_scan computed
  exact ⟨table, generation, Option.some.inj conflicts⟩

end ParseTable

end CanonicalLR
