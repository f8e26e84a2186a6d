import CanonicalLR.Proofs.Render.Escape
import CanonicalLR.Proofs.Table.Identity
import CanonicalLR.Proofs.Table.Lookup
import CanonicalLR.Render.Graph

/-!
Contract: what the graph of a table tells of it.

Owns:
- the nodes and labelled edges that the graph describes;
- that a description can be read back, whatever names it shows;
- the nodes and edges of generated tables: their states, their GOTO entries and their shifts;
- that the graph of a table determines these.

Does not own: lookaheads, whose names are joined without escapes, and reductions, for which there
are no edges.

A label is the only place where text from a grammar stands. It is read from its front up to the
character that ends its kind of label, which its escape has removed from the text.
-/

namespace CanonicalLR

theorem Symbol.text_injective : Function.Injective Symbol.text := by
  have terminals : ∀ name, (terminal name).text.toList = '[' :: (name.toList ++ [']']) := by
    simp [text]
  have nonterminals : ∀ name, (nonterminal name).text.toList = '<' :: (name.toList ++ ['>']) := by
    simp [text]
  intro left right same
  have sameList := congrArg String.toList same
  cases left with
  | terminal leftName =>
      cases right with
      | terminal rightName =>
          rw [terminals, terminals] at sameList
          have sameName := List.append_cancel_right (List.cons.inj sameList).2
          rw [String.toList_injective sameName]
      | nonterminal rightName =>
          rw [terminals, nonterminals] at sameList
          exact absurd (List.cons.inj sameList).1 (by decide)
  | nonterminal leftName =>
      cases right with
      | terminal rightName =>
          rw [terminals, nonterminals] at sameList
          exact absurd (List.cons.inj sameList).1 (by decide)
      | nonterminal rightName =>
          rw [nonterminals, nonterminals] at sameList
          have sameName := List.append_cancel_right (List.cons.inj sameList).2
          rw [String.toList_injective sameName]

namespace Graph

/-! ### Lines of a node -/

/-- What a node shows of an item: its dotted rule, and a text for its lookahead, which is
underlined if the item is complete. -/
structure Line where
  rule : String
  lookahead : String
  complete : Bool
deriving DecidableEq

namespace Line

/-- The cell of the lookahead. -/
def cell (line : Line) : String :=
  if line.complete then "<U>" ++ escapeMarkup line.lookahead ++ "</U>"
  else escapeMarkup line.lookahead

def text (line : Line) : String :=
  "      <TR><TD ALIGN=\"LEFT\">" ++ escapeMarkup line.rule ++ "</TD><TD>" ++ line.cell ++
    "</TD></TR>"

def ofItem (item : Item) : Line where
  rule := item.toCore.text
  lookahead :=
    if item.lookahead.text = "" ∧ ¬ item.isComplete then "∅" else item.lookahead.text
  complete := item.isComplete

private theorem toList_text (line : Line) :
    line.text.toList = "      <TR><TD ALIGN=\"LEFT\">".toList ++
      ((escapeMarkup line.rule).toList ++
        ("</TD><TD>".toList ++ (line.cell.toList ++ "</TD></TR>".toList))) := by
  -- An equation lemma for a text of long literals takes far too long to derive.
  unfold text
  simp only [String.toList_append, List.append_assoc]

/-- What stands behind an opening bracket tells an underlined text from a plain one. -/
private theorem underlined_ne_plain {lookahead : String} {leftRest rightRest : List Char} :
    "<U>".toList ++ leftRest ≠
      (escapeMarkup lookahead).toList ++ ("</TD></TR>".toList ++ rightRest) := by
  intro same
  have sameRest :=
    (@escapeMarkup_append_inj "" lookahead ("<U>".toList ++ leftRest) _ rfl rfl same).2
  have second : some 'U' = some '/' := congrArg (fun rest => rest[1]?) sameRest
  exact absurd second (by decide)

/-- Labels end where the markup around them begins. -/
theorem selfDelimited : SelfDelimited fun line : Line => line.text.toList := by
  refine ⟨?_⟩
  rintro ⟨leftRule, leftLookahead, leftComplete⟩ ⟨rightRule, rightLookahead, rightComplete⟩
    leftRest rightRest same
  simp only [toList_text, List.append_assoc] at same
  obtain ⟨rfl, sameBehind⟩ := escapeMarkup_append_inj rfl rfl (List.append_cancel_left same)
  have sameCell := List.append_cancel_left sameBehind
  cases leftComplete with
  | true =>
      cases rightComplete with
      | true =>
          simp only [cell, if_pos, String.toList_append, List.append_assoc] at sameCell
          obtain ⟨rfl, sameRest⟩ :=
            escapeMarkup_append_inj rfl rfl (List.append_cancel_left sameCell)
          exact ⟨rfl, List.append_cancel_left (List.append_cancel_left sameRest)⟩
      | false =>
          simp only [cell, if_pos, Bool.false_eq_true, if_false, String.toList_append,
            List.append_assoc] at sameCell
          exact absurd sameCell underlined_ne_plain
  | false =>
      cases rightComplete with
      | true =>
          simp only [cell, if_pos, Bool.false_eq_true, if_false, String.toList_append,
            List.append_assoc] at sameCell
          exact absurd sameCell.symm underlined_ne_plain
      | false =>
          simp only [cell, Bool.false_eq_true, if_false] at sameCell
          obtain ⟨rfl, sameRest⟩ := escapeMarkup_append_inj rfl rfl sameCell
          exact ⟨rfl, List.append_cancel_left sameRest⟩

private theorem escapeMarkup_ne_empty {text : String} (someText : text ≠ "") :
    escapeMarkup text ≠ "" := by
  intro empty
  have same : (escapeMarkup text).toList ++ ['<'] = (escapeMarkup "").toList ++ ['<'] := by
    rw [empty]
    rfl
  exact someText (escapeMarkup_append_inj rfl rfl same).1

/-- The row of an item is the line that shows it. -/
theorem text_ofItem (item : Item) : (ofItem item).text = itemRow item := by
  have sameCell : (ofItem item).cell = lookaheadLabel item := by
    unfold cell lookaheadLabel ofItem
    by_cases complete : item.isComplete
    case pos => simp [complete]
    case neg =>
      by_cases nothing : item.lookahead.text = ""
      case pos =>
        have sign : escapeMarkup "∅" = "∅" := by decide +kernel
        have empty : escapeMarkup "" = "" := by decide +kernel
        simp [complete, nothing, sign, empty]
      case neg => simp [complete, nothing, escapeMarkup_ne_empty nothing]
  unfold text itemRow
  rw [sameCell]
  rfl

end Line

/-! ### Nodes and edges -/

/-- What the graph describes: a node with a line per item, or an edge with a symbol. -/
inductive Element where
  | node (id : Nat) (lines : List Line)
  | edge (source target : Nat) (symbol : Symbol)
deriving DecidableEq

/-- The text of a node up to its first line. -/
def opening (id : Nat) : String :=
  " [shape=plain label=<\n" ++
    "    <TABLE BORDER=\"0\" CELLBORDER=\"1\" CELLSPACING=\"0\">\n" ++
    "      <TR><TD><B>State #" ++ toString id ++ "</B></TD><TD><B>Lookahead</B></TD></TR>\n"

/-- The text of a node from its last line. -/
def closing : String :=
  "\n" ++ "    </TABLE>\n" ++ "  >];"

namespace Element

def text : Element → String
  | node id lines =>
      "  State" ++ toString id ++ opening id ++ "\n".intercalate (lines.map Line.text) ++ closing
  | edge source target symbol =>
      "  State" ++ toString source ++ " -> State" ++ toString target ++ " [label=\"" ++
        escapeQuoted symbol.text ++ "\"];"

def node? : Element → Option (Nat × List Line)
  | node id lines => some (id, lines)
  | edge _ _ _ => none

private theorem lines_inj {left right : List Line} {leftRest rightRest : List Char}
    (same : ("\n".intercalate (left.map Line.text)).toList ++ (closing.toList ++ leftRest) =
      ("\n".intercalate (right.map Line.text)).toList ++ (closing.toList ++ rightRest)) :
    left = right ∧ leftRest = rightRest := by
  have apart : ∀ (line : Line) (rest : List Char),
      ¬ ∃ behind, line.text.toList ++ rest = closing.toList ++ behind := by
    rintro line rest ⟨behind, isEnd⟩
    rw [Line.toList_text, List.append_assoc] at isEnd
    have first : some ' ' = some '\n' := congrArg List.head? isEnd
    exact absurd first (by decide)
  have apartBehind : ∀ (line : Line) (rest : List Char),
      ¬ ∃ behind, "\n".toList ++ line.text.toList ++ rest = closing.toList ++ behind := by
    rintro line rest ⟨behind, isEnd⟩
    rw [Line.toList_text, List.append_assoc, List.append_assoc] at isEnd
    have sixth : some ' ' = some '<' := congrArg (fun rest => rest[5]?) isEnd
    exact absurd sixth (by decide)
  obtain ⟨sameLines, sameEnd⟩ :=
    @SelfDelimited.intercalate_inj Line Line.text "\n"
      (fun rest => ∃ behind, rest = closing.toList ++ behind) Line.selfDelimited apart apartBehind
      _ _ _ _ ⟨leftRest, rfl⟩ ⟨rightRest, rfl⟩ same
  exact ⟨sameLines, List.append_cancel_left sameEnd⟩

private theorem toList_node (id : Nat) (lines : List Line) :
    (node id lines).text.toList =
      "  State".toList ++ ((toString id).toList ++ ((opening id).toList ++
        (("\n".intercalate (lines.map Line.text)).toList ++ closing.toList))) := by
  unfold text
  simp only [String.toList_append, List.append_assoc]

private theorem toList_edge (source target : Nat) (symbol : Symbol) :
    (edge source target symbol).text.toList =
      "  State".toList ++ ((toString source).toList ++ (" -> State".toList ++
        ((toString target).toList ++ (" [label=\"".toList ++
          ((escapeQuoted symbol.text).toList ++ "\"];".toList))))) := by
  unfold text
  simp only [String.toList_append, List.append_assoc]

private theorem number_inj {left right : Nat} {leftRest rightRest : List Char}
    (leftSpace : leftRest.head? = some ' ') (rightSpace : rightRest.head? = some ' ')
    (same : (toString left).toList ++ leftRest = (toString right).toList ++ rightRest) :
    left = right ∧ leftRest = rightRest := by
  have stops : ∀ {rest : List Char}, rest.head? = some ' ' →
      ∀ character ∈ rest.head?, character.isDigit = false := by
    intro rest space character isFirst
    rw [space] at isFirst
    cases isFirst
    rfl
  exact toString_append_inj (stops leftSpace) (stops rightSpace) same

private theorem exists_opening (id : Nat) (rest : List Char) :
    ∃ behind, (opening id).toList ++ rest = ' ' :: '[' :: behind := by
  unfold opening
  simp only [String.toList_append, List.append_assoc]
  exact ⟨_, rfl⟩

private theorem opening_ne_arrow {id : Nat} {leftRest rightRest : List Char} :
    (opening id).toList ++ leftRest ≠ " -> State".toList ++ rightRest := by
  intro same
  obtain ⟨behind, opens⟩ := exists_opening id leftRest
  rw [opens] at same
  have second : some '[' = some '-' := congrArg (fun rest => rest[1]?) same
  exact absurd second (by decide)

private theorem exists_text (element : Element) :
    ∃ behind, element.text.toList = "  State".toList ++ behind := by
  cases element with
  | node id lines => exact ⟨_, toList_node id lines⟩
  | edge source target symbol => exact ⟨_, toList_edge source target symbol⟩

/-- Elements end where their labels do: numbers end at a space, and what stands behind the first
number tells a node from an edge. -/
theorem selfDelimited : SelfDelimited fun element : Element => element.text.toList := by
  refine ⟨?_⟩
  intro left right leftRest rightRest same
  have space : ∀ (id : Nat) (rest : List Char), ((opening id).toList ++ rest).head? = some ' ' := by
    intro id rest
    obtain ⟨behind, opens⟩ := exists_opening id rest
    rw [opens]
    rfl
  cases left with
  | node leftId leftLines =>
      cases right with
      | node rightId rightLines =>
          simp only [toList_node, List.append_assoc] at same
          obtain ⟨rfl, sameBehind⟩ :=
            number_inj (space _ _) (space _ _) (List.append_cancel_left same)
          obtain ⟨rfl, sameRest⟩ := lines_inj (List.append_cancel_left sameBehind)
          exact ⟨rfl, sameRest⟩
      | edge source target symbol =>
          simp only [toList_node, toList_edge, List.append_assoc] at same
          obtain ⟨-, sameBehind⟩ := number_inj (space _ _) rfl (List.append_cancel_left same)
          exact absurd sameBehind opening_ne_arrow
  | edge leftSource leftTarget leftSymbol =>
      cases right with
      | node id lines =>
          simp only [toList_node, toList_edge, List.append_assoc] at same
          obtain ⟨-, sameBehind⟩ := number_inj rfl (space _ _) (List.append_cancel_left same)
          exact absurd sameBehind.symm opening_ne_arrow
      | edge rightSource rightTarget rightSymbol =>
          simp only [toList_edge, List.append_assoc] at same
          obtain ⟨rfl, sameTarget⟩ := number_inj rfl rfl (List.append_cancel_left same)
          obtain ⟨rfl, sameLabel⟩ := number_inj rfl rfl (List.append_cancel_left sameTarget)
          obtain ⟨sameText, sameRest⟩ :=
            escapeQuoted_append_inj rfl rfl (List.append_cancel_left sameLabel)
          cases Symbol.text_injective sameText
          exact ⟨rfl, List.append_cancel_left sameRest⟩

/-- The brackets of a symbol need no escapes. -/
private theorem text_edge {source target : Nat} {symbol : Symbol} {opening name closing : String}
    (isText : symbol.text = opening ++ name ++ closing)
    (plainOpening : escapeQuoted opening = opening)
    (plainClosing : escapeQuoted closing = closing) :
    (edge source target symbol).text = Graph.edge source target opening name closing := by
  unfold text Graph.edge
  dsimp only
  rw [isText, escapeQuoted_append, escapeQuoted_append, plainOpening, plainClosing]
  simp only [String.append_assoc]

theorem text_shift (source target : Nat) (name : String) :
    (edge source target (.terminal name)).text = Graph.edge source target "[" name "]" :=
  text_edge rfl (by decide +kernel) (by decide +kernel)

theorem text_goto (source target : Nat) (name : String) :
    (edge source target (.nonterminal name)).text = Graph.edge source target "<" name ">" :=
  text_edge rfl (by decide +kernel) (by decide +kernel)

theorem text_node (state : State) :
    (node state.id (state.items.items.map Line.ofItem)).text = Graph.node state := by
  have sameRows : Line.text ∘ Line.ofItem = itemRow := funext Line.text_ofItem
  unfold text Graph.node opening closing
  dsimp only
  rw [List.map_map, sameRows]
  simp only [String.append_assoc]

end Element

/-- The description of nodes and edges, each on lines of its own. -/
def document (elements : List Element) : String :=
  "\n".intercalate ("digraph lr1_states \x7b" :: elements.map Element.text ++ ["\x7d"])

/-- A description can be read back, whatever names stand in the labels. -/
theorem document_injective : Function.Injective document := by
  have toList_document : ∀ elements, (document elements).toList =
      "digraph lr1_states \x7b".toList ++
        ((elements.flatMap fun element => "\n".toList ++ element.text.toList) ++
          ("\n".toList ++ "\x7d".toList)) := by
    intro elements
    have joined := toList_intercalate_cons "\n" id "digraph lr1_states \x7b"
      (elements.map Element.text ++ ["\x7d"])
    rw [List.map_id, List.flatMap_append, List.flatMap_map] at joined
    exact joined
  intro left right same
  have sameList := congrArg String.toList same
  rw [toList_document, toList_document] at sameList
  have apart : ∀ (element : Element) (rest : List Char),
      "\n".toList ++ element.text.toList ++ rest ≠ "\n".toList ++ "\x7d".toList := by
    intro element rest isEnd
    obtain ⟨behind, begins⟩ := element.exists_text
    rw [begins] at isEnd
    have second : some ' ' = some '\x7d' := congrArg (fun rest => rest[1]?) isEnd
    exact absurd second (by decide)
  exact (@SelfDelimited.flatMap_inj _ _ (Element.selfDelimited.behind "\n".toList)
    (fun rest => rest = "\n".toList ++ "\x7d".toList) apart _ _ _ _ rfl rfl
    (List.append_cancel_left sameList)).1

end Graph

/-! ### Tables -/

namespace ParseTable

/-- The edges of one state: its GOTO entries, then its shifts. -/
def edgesFrom (table : ParseTable) (source : Nat) : List Graph.Element :=
  match table.rows[source]? with
  | some row =>
      (row.gotos.entries.map fun (name, target) => .edge source target (.nonterminal name)) ++
        row.actions.entries.filterMap fun (name, action) =>
          match action with
          | .shift target => some (.edge source target (.terminal name))
          | .reduce _ => none
  | none => []

/-- The nodes in the order of the states, each followed by its edges. -/
def drawing (table : ParseTable) : List Graph.Element :=
  table.states.toList.flatMap fun state =>
    .node state.id (state.items.items.map Graph.Line.ofItem) :: table.edgesFrom state.id

/-- The dotted rules of every state, by the numbers of the states. -/
def ruleTexts (table : ParseTable) : List (List String) :=
  table.states.toList.map fun state => state.items.items.map fun item => item.toCore.text

/-- The graph describes the states with their items, the GOTO entries and the shifts, and nothing
else. -/
structure Draws (table : ParseTable) : Prop where
  text_eq : table.graph = Graph.document table.drawing
  node_at : ∀ id : Nat, (table.drawing.filterMap Graph.Element.node?)[id]? =
    table.states[id]?.map fun state => (id, state.items.items.map Graph.Line.ofItem)
  mem_goto : ∀ id name target,
    Graph.Element.edge id target (.nonterminal name) ∈ table.drawing ↔
      table.goto? id name = some target
  mem_shift : ∀ id name target,
    Graph.Element.edge id target (.terminal name) ∈ table.drawing ↔
      table.action? id name = some (.shift target)

theorem graph_eq (table : ParseTable) : table.graph = Graph.document table.drawing := by
  have gotos : ∀ (source : Nat) (row : Row),
      (row.gotos.entries.map fun (name, target) =>
        Graph.Element.edge source target (.nonterminal name)).map Graph.Element.text =
        Graph.gotoEdges source row := by
    intro source row
    rw [List.map_map]
    exact List.map_congr_left fun entry _ => Graph.Element.text_goto source entry.2 entry.1
  have shifts : ∀ (source : Nat) (row : Row),
      (row.actions.entries.filterMap fun (name, action) =>
        match action with
        | .shift target => some (Graph.Element.edge source target (.terminal name))
        | .reduce _ => none).map Graph.Element.text =
        Graph.shiftEdges source row := by
    intro source row
    rw [List.map_filterMap]
    refine List.filterMap_congr ?_
    rintro ⟨name, action⟩ -
    cases action with
    | shift target => exact congrArg some (Graph.Element.text_shift source target name)
    | reduce production => rfl
  have described : ∀ state : State,
      (Graph.Element.node state.id (state.items.items.map Graph.Line.ofItem) ::
        table.edgesFrom state.id).map Graph.Element.text =
        Graph.node state ::
          match table.rows[state.id]? with
          | some row => Graph.gotoEdges state.id row ++ Graph.shiftEdges state.id row
          | none => [] := by
    intro state
    unfold edgesFrom
    rw [List.map_cons, Graph.Element.text_node]
    cases table.rows[state.id]? with
    | none => rfl
    | some row =>
        dsimp only
        rw [List.map_append, gotos, shifts]
  unfold graph Graph.document drawing
  rw [List.map_flatMap]
  exact congrArg
    (fun describe : State → List String => "\n".intercalate
      ("digraph lr1_states \x7b" :: table.states.toList.flatMap describe ++ ["\x7d"]))
    (funext fun state => (described state).symm)

/-- An edge is drawn for a GOTO entry or for a shift of its source. -/
theorem mem_edgesFrom {table : ParseTable} {source : Nat} {element : Graph.Element} :
    element ∈ table.edgesFrom source ↔
      (∃ name target, table.goto? source name = some target ∧
        element = .edge source target (.nonterminal name)) ∨
      ∃ name target, table.action? source name = some (.shift target) ∧
        element = .edge source target (.terminal name) := by
  unfold edgesFrom goto? action?
  cases table.rows[source]? with
  | none => simp
  | some row =>
      simp only [Option.bind_some, NameMap.get?_eq_some_iff]
      constructor
      · intro member
        rcases List.mem_append.1 member with isGoto | isShift
        · obtain ⟨⟨name, target⟩, entry, rfl⟩ := List.mem_map.1 isGoto
          exact .inl ⟨name, target, entry, rfl⟩
        · obtain ⟨⟨name, action⟩, entry, drawn⟩ := List.mem_filterMap.1 isShift
          cases action with
          | shift target =>
              cases drawn
              exact .inr ⟨name, target, entry, rfl⟩
          | reduce production => contradiction
      · rintro (⟨name, target, entry, rfl⟩ | ⟨name, target, entry, rfl⟩)
        · exact List.mem_append_left _ (List.mem_map.2 ⟨(name, target), entry, rfl⟩)
        · exact List.mem_append_right _
            (List.mem_filterMap.2 ⟨(name, .shift target), entry, rfl⟩)

section Generated

variable {policy : ConflictPolicy} {table : ParseTable} (generated : table.Generated policy)

include generated

private theorem nodes_at (id : Nat) :
    (table.drawing.filterMap Graph.Element.node?)[id]? =
      table.states[id]?.map fun state => (id, state.items.items.map Graph.Line.ofItem) := by
  have nodeOf : ∀ state : State,
      (Graph.Element.node state.id (state.items.items.map Graph.Line.ofItem) ::
        table.edgesFrom state.id).filterMap Graph.Element.node? =
        [(state.id, state.items.items.map Graph.Line.ofItem)] := by
    intro state
    have noNodes : (table.edgesFrom state.id).filterMap Graph.Element.node? = [] := by
      refine List.filterMap_eq_nil_iff.2 fun element member => ?_
      rcases mem_edgesFrom.1 member with ⟨_, _, -, rfl⟩ | ⟨_, _, -, rfl⟩
      · rfl
      · rfl
    rw [List.filterMap_cons, noNodes]
    rfl
  have byNumber : table.states.toList[id]? = table.states[id]? := Array.getElem?_toList
  rw [drawing, List.filterMap_flatMap]
  simp only [nodeOf]
  rw [← List.map_eq_flatMap, List.getElem?_map, byNumber]
  cases present : table.states[id]? with
  | none => rfl
  | some state => rw [Option.map_some, Option.map_some, generated.id_eq present]

private theorem edge_mem_drawing (complete : table.rows.size = table.states.size)
    {source target : Nat} {symbol : Symbol} :
    .edge source target symbol ∈ table.drawing ↔
      .edge source target symbol ∈ table.edgesFrom source := by
  constructor
  · intro member
    obtain ⟨state, -, drawn⟩ := List.mem_flatMap.1 member
    rcases List.mem_cons.1 drawn with isNode | isEdge
    · contradiction
    · have sameSource : source = state.id := by
        rcases mem_edgesFrom.1 isEdge with ⟨_, _, -, same⟩ | ⟨_, _, -, same⟩
        · exact (Graph.Element.edge.inj same).1
        · exact (Graph.Element.edge.inj same).1
      exact sameSource ▸ isEdge
  · intro member
    have inRange : source < table.states.size := by
      by_contra beyond
      have noRow : table.rows[source]? = none := Array.getElem?_eq_none (by omega)
      unfold edgesFrom at member
      rw [noRow] at member
      contradiction
    have present : table.states[source]? = some table.states[source] :=
      Array.getElem?_eq_getElem inRange
    refine List.mem_flatMap.2 ⟨table.states[source], Array.getElem_mem_toList inRange, ?_⟩
    rw [generated.id_eq present]
    exact List.mem_cons_of_mem _ member

/-- Every state has its row, so all entries are drawn. -/
theorem Generated.draws (complete : table.rows.size = table.states.size) : table.Draws where
  text_eq := table.graph_eq
  node_at _ := nodes_at generated _
  mem_goto id name target := by
    rw [edge_mem_drawing generated complete, mem_edgesFrom]
    simp
  mem_shift id name target := by
    rw [edge_mem_drawing generated complete, mem_edgesFrom]
    simp

end Generated

/-- The table has been generated from a grammar, whatever its names are. -/
def FromGrammar (table : ParseTable) : Prop :=
  ∃ policy grammar, generate policy grammar = .ok table

private theorem FromGrammar.spec {table : ParseTable} (fromGrammar : table.FromGrammar) :
    table.Draws ∧ table.rows.size = table.states.size := by
  obtain ⟨policy, grammar, generation⟩ := fromGrammar
  have complete := rows_size_of_generateWith generation
  exact ⟨(generated_of_generateWith generation).2.draws complete, complete⟩

/-- Tables with the same nodes have the same dotted rules. -/
private theorem ruleTexts_eq_of_drawing_eq {left right : ParseTable} (leftDraws : left.Draws)
    (rightDraws : right.Draws) (sameDrawing : left.drawing = right.drawing) :
    left.ruleTexts = right.ruleTexts := by
  have rules : ∀ {table : ParseTable}, table.Draws → table.ruleTexts =
      (table.drawing.filterMap Graph.Element.node?).map fun (_, lines) =>
        lines.map Graph.Line.rule := by
    intro table draws
    apply List.ext_getElem?
    intro id
    rw [ruleTexts, List.getElem?_map, List.getElem?_map, draws.node_at, Array.getElem?_toList]
    cases table.states[id]? with
    | none => rfl
    | some state => simp [Function.comp_def, Graph.Line.ofItem]
  rw [rules leftDraws, rules rightDraws, sameDrawing]

/-- The graph tells the automaton. It describes the states and transitions of a table by nodes and
labelled edges, a description can be read back whatever names it shows, and tables with the same
graph have equally many states and, state by state, the same dotted rules, the same GOTO entries
and the same shifts. -/
theorem graph_tells_automaton :
    (∀ table : ParseTable, table.FromGrammar → table.Draws) ∧
      Function.Injective Graph.document ∧
      ∀ left right : ParseTable, left.FromGrammar → right.FromGrammar → left.graph = right.graph →
        left.states.size = right.states.size ∧ left.ruleTexts = right.ruleTexts ∧
          left.rows.map Row.gotos = right.rows.map Row.gotos ∧
          ∀ id name target, left.action? id name = some (.shift target) ↔
            right.action? id name = some (.shift target) := by
  refine ⟨fun table fromGrammar => fromGrammar.spec.1, Graph.document_injective, ?_⟩
  intro left right leftFrom rightFrom same
  obtain ⟨leftDraws, leftComplete⟩ := leftFrom.spec
  obtain ⟨rightDraws, rightComplete⟩ := rightFrom.spec
  rw [leftDraws.text_eq, rightDraws.text_eq] at same
  have sameDrawing := Graph.document_injective same
  have sameRules := ruleTexts_eq_of_drawing_eq leftDraws rightDraws sameDrawing
  have sameSize : left.states.size = right.states.size := by
    simpa [ruleTexts] using congrArg List.length sameRules
  have sameGotos : ∀ id name target,
      left.goto? id name = some target ↔ right.goto? id name = some target := by
    intro id name target
    rw [← leftDraws.mem_goto, ← rightDraws.mem_goto, sameDrawing]
  refine ⟨sameSize, sameRules, rows_map_ext (by omega) fun id _ => sameGotos id, ?_⟩
  · intro id name target
    rw [← leftDraws.mem_shift, ← rightDraws.mem_shift, sameDrawing]

/-- A name that ends a cell, and one that ends a label and imitates a further edge. -/
def imitations : List Production :=
  [⟨"S", [.nonterminal "</TD>\\"], false⟩,
    ⟨"</TD>\\", [.terminal "\"];\n  State0 -> State0 [label=\"&lt;"], false⟩]

/-- What the graph of the imitations describes: three states and two edges. -/
def imitationsDrawn : List Graph.Element :=
  [.node 0
      [⟨"<S> → • <</TD>\\>", "eof", false⟩,
        ⟨"<</TD>\\> → • [\"];\n  State0 -> State0 [label=\"&lt;]", "eof", false⟩],
    .edge 0 1 (.nonterminal "</TD>\\"),
    .edge 0 2 (.terminal "\"];\n  State0 -> State0 [label=\"&lt;"),
    .node 1 [⟨"<S> → <</TD>\\> •", "eof", true⟩],
    .node 2 [⟨"<</TD>\\> → [\"];\n  State0 -> State0 [label=\"&lt;] •", "eof", true⟩]]

/-- Two grammars with the same graph, one of which declares a terminal that no edge is for. -/
theorem graph_tells_automaton_imitations :
    ∃ left right : ParseTable, left.FromGrammar ∧ right.FromGrammar ∧
      "b" ∉ left.grammar.terminals ∧ "b" ∈ right.grammar.terminals ∧
      left.Draws ∧ left.drawing = imitationsDrawn ∧ left.graph = right.graph ∧
      left.states.size = right.states.size ∧ left.ruleTexts = right.ruleTexts ∧
      left.rows.map Row.gotos = right.rows.map Row.gotos ∧
      ∀ id name target, left.action? id name = some (.shift target) ↔
        right.action? id name = some (.shift target) := by
  have leftComputed : (generateWith .scan .fail (.ofProductions "eof" imitations)).toOption.bind
      (fun table => some (table.drawing, decide ("b" ∈ table.grammar.terminals))) =
        some (imitationsDrawn, false) := by
    decide +kernel
  have rightComputed : (generateWith .scan .report
      (.ofProductions "eof" (imitations ++ [⟨"X", [.terminal "b"], false⟩]))).toOption.bind
      (fun table => some (table.drawing, decide ("b" ∈ table.grammar.terminals))) =
        some (imitationsDrawn, true) := by
    decide +kernel
  obtain ⟨left, leftGeneration, leftShows⟩ := exists_generate_of_scan leftComputed
  obtain ⟨right, rightGeneration, rightShows⟩ := exists_generate_of_scan rightComputed
  obtain ⟨leftDrawn, leftLacks⟩ := Prod.mk.inj (Option.some.inj leftShows)
  obtain ⟨rightDrawn, rightHas⟩ := Prod.mk.inj (Option.some.inj rightShows)
  have leftFrom : left.FromGrammar := ⟨_, _, leftGeneration⟩
  have rightFrom : right.FromGrammar := ⟨_, _, rightGeneration⟩
  have sameGraph : left.graph = right.graph := by
    rw [graph_eq, graph_eq, leftDrawn, rightDrawn]
  exact ⟨left, right, leftFrom, rightFrom, of_decide_eq_false leftLacks, of_decide_eq_true rightHas,
    graph_tells_automaton.1 left leftFrom, leftDrawn, sameGraph,
    graph_tells_automaton.2.2 left right leftFrom rightFrom sameGraph⟩

end ParseTable

end CanonicalLR
