import CanonicalLR.Proofs.Grammar.Layout
import CanonicalLR.Proofs.Render.Delimited
import CanonicalLR.Proofs.Table.WellFormed
import CanonicalLR.Render.Table

/-!
Contract: what the compact form of a table tells of it.

Owns:
- the entries that the compact form lists, state by state, and that these are all entries of
  a generated table, each once;
- where an entry of the compact form ends;
- that the compact form of a table determines its states' entries.

Does not own: grammars whose names hold the closing bracket of their own kind.

Names may hold commas, line feeds, equality signs and the other brackets. An entry is read from
its front: the name ends at the first closing bracket, the number with its last digit.
-/

namespace CanonicalLR

/-! ### Entries -/

/-- What a line of the compact form lists. -/
inductive Entry where
  | action (terminal : String) (value : Action)
  | goto (nonterminal : String) (target : Nat)

namespace Entry

def text : Entry → String
  | action terminal value => "[" ++ terminal ++ "]=" ++ value.text
  | goto nonterminal target => "<" ++ nonterminal ++ ">=" ++ toString target

/-- The name lacks the bracket that would end it. -/
def Legible : Entry → Prop
  | action terminal _ => ']' ∉ terminal.toList
  | goto nonterminal _ => '>' ∉ nonterminal.toList

variable {leftRest rightRest : List Char}

private theorem number_inj {left right : Nat} (leftStops : Stops [',', '\n'] leftRest)
    (rightStops : Stops [',', '\n'] rightRest)
    (same : (toString left).toList ++ leftRest = (toString right).toList ++ rightRest) :
    left = right ∧ leftRest = rightRest := by
  have noDigit : ∀ {rest : List Char}, Stops [',', '\n'] rest →
      ∀ character ∈ rest.head?, character.isDigit = false := by
    intro rest stops character isFirst
    rcases List.mem_pair.1 (stops character isFirst) with rfl | rfl
    · rfl
    · rfl
  exact toString_append_inj (noDigit leftStops) (noDigit rightStops) same

private theorem name_inj {closing : Char} {left right : String}
    (leftLegible : closing ∉ left.toList) (rightLegible : closing ∉ right.toList)
    (same : left.toList ++ closing :: leftRest = right.toList ++ closing :: rightRest) :
    left = right ∧ leftRest = rightRest := by
  have isName : ∀ {name : String}, closing ∉ name.toList → ∀ character ∈ name.toList,
      (character != closing) = true := by
    intro name legible character member
    exact bne_iff_ne.2 fun isClosing => legible (isClosing ▸ member)
  have stops : ∀ {rest : List Char}, ∀ character ∈ (closing :: rest).head?,
      (character != closing) = false := by
    intro rest character isFirst
    cases isFirst
    exact bne_self_eq_false closing
  obtain ⟨sameName, sameRest⟩ :=
    append_inj_of_sort (isName leftLegible) (isName rightLegible) stops stops same
  exact ⟨String.toList_injective sameName, (List.cons.inj sameRest).2⟩

private theorem action_inj {left right : Action} (leftStops : Stops [',', '\n'] leftRest)
    (rightStops : Stops [',', '\n'] rightRest)
    (same : left.text.toList ++ leftRest = right.text.toList ++ rightRest) :
    left = right ∧ leftRest = rightRest := by
  have shifts : ∀ state : Nat, (Action.shift state).text.toList = 's' :: (toString state).toList :=
    fun state => String.toList_append
  have reduces : ∀ production : Nat,
      (Action.reduce production).text.toList = 'r' :: (toString production).toList :=
    fun production => String.toList_append
  cases left with
  | shift leftState =>
      rw [shifts] at same
      cases right with
      | shift rightState =>
          rw [shifts] at same
          obtain ⟨rfl, sameRest⟩ := number_inj leftStops rightStops (List.cons.inj same).2
          exact ⟨rfl, sameRest⟩
      | reduce production =>
          rw [reduces] at same
          exact absurd (List.cons.inj same).1 (by decide)
  | reduce leftProduction =>
      rw [reduces] at same
      cases right with
      | shift state =>
          rw [shifts] at same
          exact absurd (List.cons.inj same).1 (by decide)
      | reduce rightProduction =>
          rw [reduces] at same
          obtain ⟨rfl, sameRest⟩ := number_inj leftStops rightStops (List.cons.inj same).2
          exact ⟨rfl, sameRest⟩

private theorem toList_action (terminal : String) (value : Action) :
    (action terminal value).text.toList =
      '[' :: (terminal.toList ++ ']' :: '=' :: value.text.toList) := by
  simp [text]

private theorem toList_goto (nonterminal : String) (target : Nat) :
    (goto nonterminal target).text.toList =
      '<' :: (nonterminal.toList ++ '>' :: '=' :: (toString target).toList) := by
  simp [text]

/-- An entry ends where a comma, a line feed or nothing follows a digit of it. -/
theorem delimited : Delimited (fun entry : Entry => entry.text.toList) Legible [',', '\n'] := by
  refine ⟨fun {left right leftRest rightRest} leftLegible rightLegible leftStops rightStops same =>
    ?_⟩
  cases left with
  | action leftTerminal leftValue =>
      cases right with
      | action rightTerminal rightValue =>
          simp only [toList_action, List.cons_append, List.append_assoc] at same
          obtain ⟨rfl, sameBehind⟩ :=
            name_inj leftLegible rightLegible (List.cons.inj same).2
          obtain ⟨rfl, sameRest⟩ := action_inj leftStops rightStops (List.cons.inj sameBehind).2
          exact ⟨rfl, sameRest⟩
      | goto nonterminal target =>
          simp only [toList_action, toList_goto, List.cons_append] at same
          exact absurd (List.cons.inj same).1 (by decide)
  | goto leftNonterminal leftTarget =>
      cases right with
      | action terminal value =>
          simp only [toList_action, toList_goto, List.cons_append] at same
          exact absurd (List.cons.inj same).1 (by decide)
      | goto rightNonterminal rightTarget =>
          simp only [toList_goto, List.cons_append, List.append_assoc] at same
          obtain ⟨rfl, sameBehind⟩ :=
            name_inj leftLegible rightLegible (List.cons.inj same).2
          obtain ⟨rfl, sameRest⟩ := number_inj leftStops rightStops (List.cons.inj sameBehind).2
          exact ⟨rfl, sameRest⟩

/-- Entries begin with a bracket, which no line feed is. -/
theorem begins (entry : Entry) :
    ∃ first rest, entry.text.toList = first :: rest ∧ first ∉ ['\n'] := by
  cases entry with
  | action terminal value => exact ⟨_, _, toList_action terminal value, by decide⟩
  | goto nonterminal target => exact ⟨_, _, toList_goto nonterminal target, by decide⟩

/-- The entries of one state. -/
def line (entries : List Entry) : String :=
  ", ".intercalate (entries.map text)

/-- The lines of a text are told apart by line feeds, although names may hold some. -/
theorem lines_inj {left right : List (List Entry)} (someLeft : left ≠ []) (someRight : right ≠ [])
    (leftLegible : ∀ entries ∈ left, ∀ entry ∈ entries, entry.Legible)
    (rightLegible : ∀ entries ∈ right, ∀ entry ∈ entries, entry.Legible)
    (same : "\n".intercalate (left.map line) = "\n".intercalate (right.map line)) :
    left = right := by
  have lines : Delimited (fun entries => (line entries).toList)
      (fun entries => ∀ entry ∈ entries, entry.Legible) ['\n'] :=
    Delimited.intercalate_of_begins rfl delimited (by decide) begins
  have texts : Delimited
      (fun lines : List (List Entry) => ("\n".intercalate (lines.map line)).toList)
      (fun lines => lines ≠ [] ∧ ∀ entries ∈ lines, ∀ entry ∈ entries, entry.Legible) [] :=
    Delimited.intercalate rfl lines List.not_mem_nil
  have nothing : Stops [] [] := by simp [Stops]
  refine (texts.inj ⟨someLeft, leftLegible⟩ ⟨someRight, rightLegible⟩ nothing nothing ?_).1
  rw [same]

end Entry

/-! ### Tables -/

namespace ParseTable

/-- The entries that the compact form lists for a state. -/
def entries (table : ParseTable) (state : Nat) : List Entry :=
  (table.grammar.terminals.names.filterMap fun name =>
    (table.action? state name).map (Entry.action name)) ++
  table.grammar.nonterminals.names.filterMap fun name =>
    (table.goto? state name).map (Entry.goto name)

/-- The entries of all states, by the numbers of the states. -/
def lines (table : ParseTable) : List (List Entry) :=
  (List.range table.states.size).map table.entries

/-- The compact form lists the entries of each state in a line of its own: all entries of the
state, and none of them twice. -/
structure Prints (table : ParseTable) : Prop where
  text_eq : table.compactText = "\n".intercalate (table.lines.map Entry.line)
  mem_action : ∀ id terminal value,
    Entry.action terminal value ∈ table.entries id ↔ table.action? id terminal = some value
  mem_goto : ∀ id nonterminal target,
    Entry.goto nonterminal target ∈ table.entries id ↔ table.goto? id nonterminal = some target
  nodup : ∀ id, (table.entries id).Nodup

/-- The table has been generated from grammar text, with an end marker that can stand in
brackets. -/
def FromText (table : ParseTable) : Prop :=
  ∃ policy endMarker source grammar, ']' ∉ endMarker.toList ∧
    Grammar.parse endMarker source = .ok grammar ∧ generate policy grammar = .ok table

/-- Names that have been read lack the bracket that would end them. -/
theorem legible_of_parse {endMarker source : String} {grammar : Grammar}
    (parsed : Grammar.parse endMarker source = .ok grammar) (closed : ']' ∉ endMarker.toList) :
    (∀ name ∈ grammar.terminals, ']' ∉ name.toList) ∧
      ∀ name ∈ grammar.nonterminals, '>' ∉ name.toList := by
  obtain ⟨productions, -, spellable, rfl⟩ := Grammar.exists_productions_of_parse parsed
  have ofRhs : ∀ {production : Production} {symbol : Symbol}, production ∈ productions →
      symbol ∈ production.rhs → symbol.token.Spellable := by
    intro production symbol member occurs
    refine (spellable production member).1 symbol.token ?_
    exact List.mem_cons_of_mem _ (List.mem_cons_of_mem _
      (List.mem_append_left _ (List.mem_map_of_mem occurs)))
  constructor
  · intro name member
    rcases NameList.mem_add.1 member with isTerminal | rfl
    · obtain ⟨production, inProductions, inRhs⟩ :=
        List.mem_flatMap.1 (NameList.mem_ofList.1 isTerminal)
      obtain ⟨symbol, occurs, named⟩ := List.mem_filterMap.1 inRhs
      cases symbol with
      | terminal other =>
          cases named
          exact (ofRhs inProductions occurs).2
      | nonterminal other => contradiction
    · exact closed
  · intro name member
    obtain ⟨production, inProductions, inNames⟩ :=
      List.mem_flatMap.1 (NameList.mem_ofList.1 member)
    rcases List.mem_cons.1 inNames with rfl | inRhs
    · exact ((spellable production inProductions).1 (.nonterminal production.lhs)
        List.mem_cons_self).2
    · obtain ⟨symbol, occurs, named⟩ := List.mem_filterMap.1 inRhs
      cases symbol with
      | terminal other => contradiction
      | nonterminal other =>
          cases named
          exact (ofRhs inProductions occurs).2

theorem entryTexts_eq (table : ParseTable) (state : Nat) :
    table.entryTexts state = (table.entries state).map Entry.text := by
  unfold entryTexts entries
  rw [List.map_append, List.map_filterMap, List.map_filterMap]
  simp only [Option.map_map]
  rfl

section Generated

variable {policy : ConflictPolicy} {table : ParseTable} (generated : table.Generated policy)

include generated

private theorem lines_eq :
    table.lines = table.states.toList.map fun state => table.entries state.id := by
  apply List.ext_getElem?
  intro id
  have byNumber : table.states.toList[id]? = table.states[id]? := Array.getElem?_toList
  rw [lines, List.getElem?_map, List.getElem?_map, byNumber]
  cases present : table.states[id]? with
  | none =>
      have beyond := Array.getElem?_eq_none_iff.1 present
      rw [List.getElem?_eq_none (by rwa [List.length_range])]
      rfl
  | some state =>
      have inRange := (Array.getElem?_eq_some_iff.1 present).1
      rw [List.getElem?_range inRange, Option.map_some, Option.map_some, generated.id_eq present]

variable (listed : table.grammar.Listed) {id : Nat}

include listed

private theorem mem_entries_action {terminal : String} {value : Action} :
    Entry.action terminal value ∈ table.entries id ↔ table.action? id terminal = some value := by
  simp only [entries, List.mem_append, List.mem_filterMap, Option.map_eq_some_iff]
  constructor
  · rintro (⟨name, -, action, entry, same⟩ | ⟨name, -, target, -, same⟩)
    · cases same
      exact entry
    · contradiction
  · intro entry
    have candidate := generated.candidate_of_action? _ _ _ entry
    exact .inl ⟨terminal, (generated.candidate_inRange listed candidate).1, value, entry, rfl⟩

private theorem mem_entries_goto {nonterminal : String} {target : Nat} :
    Entry.goto nonterminal target ∈ table.entries id ↔
      table.goto? id nonterminal = some target := by
  simp only [entries, List.mem_append, List.mem_filterMap, Option.map_eq_some_iff]
  constructor
  · rintro (⟨name, -, action, -, same⟩ | ⟨name, -, target, entry, same⟩)
    · contradiction
    · cases same
      exact entry
  · intro entry
    have edge := (generated.goto?_eq_some id nonterminal target).1 entry
    obtain ⟨production, member, occurs⟩ := generated.exists_mem_rhs edge
    exact .inr ⟨nonterminal, listed.nonterminal production member nonterminal occurs, target,
      entry, rfl⟩

omit generated listed in
private theorem entries_nodup : (table.entries id).Nodup := by
  refine List.Nodup.append ?_ ?_ ?_
  · refine List.Nodup.filterMap ?_ table.grammar.terminals.distinct
    intro left right entry ofLeft ofRight
    obtain ⟨_, -, rfl⟩ := Option.map_eq_some_iff.1 ofLeft
    obtain ⟨_, -, same⟩ := Option.map_eq_some_iff.1 ofRight
    exact (Entry.action.inj same).1.symm
  · refine List.Nodup.filterMap ?_ table.grammar.nonterminals.distinct
    intro left right entry ofLeft ofRight
    obtain ⟨_, -, rfl⟩ := Option.map_eq_some_iff.1 ofLeft
    obtain ⟨_, -, same⟩ := Option.map_eq_some_iff.1 ofRight
    exact (Entry.goto.inj same).1.symm
  · intro entry isAction isGoto
    obtain ⟨_, -, ofAction⟩ := List.mem_filterMap.1 isAction
    obtain ⟨_, -, ofGoto⟩ := List.mem_filterMap.1 isGoto
    obtain ⟨_, -, rfl⟩ := Option.map_eq_some_iff.1 ofAction
    obtain ⟨_, -, same⟩ := Option.map_eq_some_iff.1 ofGoto
    contradiction

/-- Every entry is for a name that the grammar lists. -/
theorem Generated.prints : table.Prints where
  text_eq := by
    rw [lines_eq generated, List.map_map]
    simp only [compactText, entryTexts_eq]
    rfl
  mem_action _ _ _ := mem_entries_action generated listed
  mem_goto _ _ _ := mem_entries_goto generated listed
  nodup _ := entries_nodup

end Generated

/-- What the compact form of a generated table is made of. -/
private theorem FromText.spec {table : ParseTable} (fromText : table.FromText) :
    table.Prints ∧ table.lines ≠ [] ∧ table.rows.size = table.states.size ∧
      ∀ entries ∈ table.lines, ∀ entry ∈ entries, entry.Legible := by
  obtain ⟨policy, endMarker, source, grammar, closed, parsed, generation⟩ := fromText
  have complete := rows_size_of_generateWith generation
  obtain ⟨rfl, generated⟩ := generated_of_generateWith generation
  have listed := (Grammar.Made.parsed parsed).listed
  have prints := generated.prints listed
  obtain ⟨terminals, nonterminals⟩ := legible_of_parse parsed closed
  refine ⟨prints, ?_, complete, ?_⟩
  · obtain ⟨_, _, _, -, -, present⟩ := generated.initial
    have inRange := (Array.getElem?_eq_some_iff.1 present).1
    rw [lines, ne_eq, List.map_eq_nil_iff, List.range_eq_nil]
    omega
  · intro entries inLines entry member
    obtain ⟨id, -, rfl⟩ := List.mem_map.1 inLines
    cases entry with
    | action terminal value =>
        have candidate := generated.candidate_of_action? _ _ _ ((prints.mem_action _ _ _).1 member)
        exact terminals terminal (generated.candidate_inRange listed candidate).1
    | goto nonterminal target =>
        have edge := (generated.goto?_eq_some _ _ _).1 ((prints.mem_goto _ _ _).1 member)
        obtain ⟨production, inProductions, occurs⟩ := generated.exists_mem_rhs edge
        exact nonterminals nonterminal
          (listed.nonterminal production inProductions nonterminal occurs)

/-- Tables with the same lines have the same rows. -/
private theorem rows_eq_of_lines_eq {left right : ParseTable} (leftPrints : left.Prints)
    (rightPrints : right.Prints) (leftComplete : left.rows.size = left.states.size)
    (rightComplete : right.rows.size = right.states.size)
    (sameLines : left.lines = right.lines) :
    left.states.size = right.states.size ∧ left.rows = right.rows := by
  have sameSize : left.states.size = right.states.size := by
    simpa [lines] using congrArg List.length sameLines
  have sameEntries : ∀ id < left.rows.size, left.entries id = right.entries id := by
    intro id inRange
    have sameLine := congrArg (fun lines => lines[id]?) sameLines
    simp only [lines, List.getElem?_map] at sameLine
    rw [List.getElem?_range (by omega), List.getElem?_range (by omega)] at sameLine
    exact Option.some.inj sameLine
  refine ⟨sameSize, rows_ext (by omega) ?_ ?_⟩
  · intro id inRange terminal value
    rw [← leftPrints.mem_action, ← rightPrints.mem_action, sameEntries id inRange]
  · intro id inRange nonterminal target
    rw [← leftPrints.mem_goto, ← rightPrints.mem_goto, sameEntries id inRange]

/-- The compact form loses nothing of the tables of grammars from text. It lists every entry
once, and tables with the same compact form have equally many states and, state by state, the
same entries. -/
theorem compactText_loses_nothing :
    (∀ table : ParseTable, table.FromText → table.Prints) ∧
      ∀ left right : ParseTable, left.FromText → right.FromText →
        left.compactText = right.compactText →
          left.states.size = right.states.size ∧ left.rows = right.rows := by
  refine ⟨fun table fromText => fromText.spec.1, fun left right leftFrom rightFrom same => ?_⟩
  obtain ⟨leftPrints, someLeft, leftComplete, leftLegible⟩ := leftFrom.spec
  obtain ⟨rightPrints, someRight, rightComplete, rightLegible⟩ := rightFrom.spec
  rw [leftPrints.text_eq, rightPrints.text_eq] at same
  exact rows_eq_of_lines_eq leftPrints rightPrints leftComplete rightComplete
    (Entry.lines_inj someLeft someRight leftLegible rightLegible same)

/-- A production with a terminal whose name looks like entries and a new line. -/
def lookalike : List Production :=
  [⟨"S", [.terminal "a[=s1, <S>=1\n[b"], false⟩]

/-- Two grammars with the same compact form, one of which declares a terminal that no entry is
for. -/
theorem compactText_loses_nothing_lookalike :
    ∃ left right : ParseTable, left.FromText ∧ right.FromText ∧
      "b" ∉ left.grammar.terminals ∧ "b" ∈ right.grammar.terminals ∧
      left.Prints ∧ left.states.size = right.states.size ∧ left.rows = right.rows := by
  have leftComputed : (generateWith .scan .fail (.ofProductions "eof" lookalike)).toOption.bind
      (fun table => some (table.compactText, table.grammar.terminals.names)) =
        some ("[a[=s1, <S>=1\n[b]=s1\n[eof]=r0", ["a[=s1, <S>=1\n[b", "eof"]) := by
    decide +kernel
  have rightComputed : (generateWith .scan .report
      (.ofProductions "eof" (lookalike ++ [⟨"X", [.terminal "b"], false⟩]))).toOption.bind
      (fun table => some (table.compactText, table.grammar.terminals.names)) =
        some ("[a[=s1, <S>=1\n[b]=s1\n[eof]=r0", ["a[=s1, <S>=1\n[b", "b", "eof"]) := by
    decide +kernel
  obtain ⟨left, leftGeneration, leftShows⟩ := exists_generate_of_scan leftComputed
  obtain ⟨right, rightGeneration, rightShows⟩ := exists_generate_of_scan rightComputed
  obtain ⟨leftText, leftNames⟩ := Prod.mk.inj (Option.some.inj leftShows)
  obtain ⟨rightText, rightNames⟩ := Prod.mk.inj (Option.some.inj rightShows)
  have leftFrom : left.FromText :=
    ⟨.fail, "eof", "<S> : [a[=s1, <S>=1\n[b] ;", _, by decide, by decide +kernel, leftGeneration⟩
  have rightFrom : right.FromText :=
    ⟨.report, "eof", "<S> : [a[=s1, <S>=1\n[b] ; <X> : [b] ;", _, by decide, by decide +kernel,
      rightGeneration⟩
  refine ⟨left, right, leftFrom, rightFrom, ?_, ?_, compactText_loses_nothing.1 left leftFrom,
    compactText_loses_nothing.2 left right leftFrom rightFrom (leftText.trans rightText.symm)⟩
  · rw [← NameList.mem_names, leftNames]
    decide
  · rw [← NameList.mem_names, rightNames]
    decide

end ParseTable

end CanonicalLR
