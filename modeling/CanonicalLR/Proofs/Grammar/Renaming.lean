import CanonicalLR.Proofs.Closure.Fact
import CanonicalLR.Proofs.Grammar.Readable
import CanonicalLR.Proofs.Sets.First

/-!
Contract: one grammar inside another one, with other names.

Owns:
- renamings of symbols, and what they make of items and of their facts;
- when the productions of some nonterminals of one grammar are, up to the names, all
  productions that another grammar has for them;
- that those nonterminals then start with the same terminals, up to the names.

Does not own: whether different names stay different.
-/

namespace CanonicalLR

/-- New names, given for terminals and for nonterminals apart. -/
structure Renaming where
  terminal : String → String
  nonterminal : String → String

namespace Renaming

/-- The renaming that changes no name. -/
def keep : Renaming := ⟨id, id⟩

variable (rename : Renaming)

def symbol : Symbol → Symbol
  | .terminal name => .terminal (rename.terminal name)
  | .nonterminal name => .nonterminal (rename.nonterminal name)

def production (production : Production) : Production where
  lhs := rename.nonterminal production.lhs
  rhs := production.rhs.map rename.symbol
  isStart := production.isStart

def core (core : Core) : Core where
  production := core.production
  lhs := rename.nonterminal core.lhs
  rhs := core.rhs.map rename.symbol
  dot := core.dot

def names (set : NameSet) : NameSet :=
  NameSet.ofList (set.names.map rename.terminal)

def item (item : Item) : Item where
  toCore := rename.core item.toCore
  lookahead := rename.names item.lookahead

def fact (fact : Fact) : Fact :=
  (rename.core fact.1, fact.2.map rename.terminal)

variable {rename : Renaming}

@[simp] theorem mem_names {set : NameSet} {other : String} :
    other ∈ rename.names set ↔ ∃ name ∈ set, rename.terminal name = other := by
  simp [names]

theorem symbol_eq_terminal {symbol : Symbol} {other : String}
    (same : rename.symbol symbol = .terminal other) :
    ∃ name, symbol = .terminal name ∧ rename.terminal name = other := by
  cases symbol with
  | terminal name => exact ⟨name, rfl, Symbol.terminal.inj same⟩
  | nonterminal name => contradiction

theorem symbol_eq_nonterminal {symbol : Symbol} {other : String}
    (same : rename.symbol symbol = .nonterminal other) :
    ∃ name, symbol = .nonterminal name ∧ rename.nonterminal name = other := by
  cases symbol with
  | terminal name => contradiction
  | nonterminal name => exact ⟨name, rfl, Symbol.nonterminal.inj same⟩

@[simp] theorem next?_core (core : Core) :
    (rename.core core).next? = core.next?.map rename.symbol :=
  List.getElem?_map

@[simp] theorem afterNext?_core (core : Core) :
    (rename.core core).afterNext? = core.afterNext?.map rename.symbol :=
  List.getElem?_map

theorem exists_next?_nonterminal {core : Core} {other : String}
    (next : (rename.core core).next? = some (.nonterminal other)) :
    ∃ name, core.next? = some (.nonterminal name) ∧ rename.nonterminal name = other := by
  rw [next?_core, Option.map_eq_some_iff] at next
  obtain ⟨symbol, behindDot, same⟩ := next
  obtain ⟨name, rfl, named⟩ := symbol_eq_nonterminal same
  exact ⟨name, behindDot, named⟩

/-- A renamed item records the renamed facts. -/
theorem records_item {item : Item} {other : Fact} :
    (rename.item item).Records other ↔
      ∃ fact, item.Records fact ∧ rename.fact fact = other := by
  obtain ⟨core, terminal?⟩ := other
  constructor
  · rintro ⟨same, terminals⟩
    cases terminal? with
    | none => exact ⟨(item.toCore, none), item.records_core, Prod.ext same rfl⟩
    | some terminal =>
        obtain ⟨name, member, named⟩ := mem_names.1 (terminals terminal rfl)
        exact ⟨(item.toCore, some name), Item.records_terminal member,
          Prod.ext same (congrArg some named)⟩
  · rintro ⟨⟨origin, name?⟩, ⟨same, terminals⟩, renamed⟩
    cases renamed
    refine ⟨congrArg rename.core same, fun terminal member => ?_⟩
    obtain ⟨name, inFact, named⟩ := Option.map_eq_some_iff.1 member
    exact mem_names.2 ⟨name, terminals name inFact, named⟩

/-! ### Keeping the names -/

private theorem keep_symbols (symbols : List Symbol) : symbols.map keep.symbol = symbols :=
  List.map_id'' (fun symbol => by cases symbol <;> rfl) symbols

@[simp] theorem keep_production (production : Production) :
    keep.production production = production := by
  obtain ⟨lhs, rhs, isStart⟩ := production
  exact congrArg (Production.mk lhs · isStart) (keep_symbols rhs)

@[simp] theorem keep_core (core : Core) : keep.core core = core := by
  obtain ⟨index, lhs, rhs, dot⟩ := core
  exact congrArg (Core.mk index lhs · dot) (keep_symbols rhs)

theorem keep_items (items : List Item) : items.map keep.item = items := by
  refine List.map_id'' (fun item => Item.eq_of_core_eq (keep_core item.toCore) ?_) items
  ext name
  show name ∈ keep.names item.lookahead ↔ _
  simp [keep]

@[simp] theorem keep_fact (fact : Fact) : keep.fact fact = fact :=
  Prod.ext (keep_core fact.1) (Option.map_id_apply)

end Renaming

/-- The nonterminals among the symbols are live ones. -/
def AllLive (live : String → Prop) (symbols : List Symbol) : Prop :=
  ∀ name, .nonterminal name ∈ symbols → live name

/-- The productions of the live nonterminals of `source` lead to live ones again, and
with their names changed they are all that `target` has for these, at the same indices. -/
structure Embeds (rename : Renaming) (live : String → Prop) (source target : Grammar) :
    Prop where
  mem_productionsFor : ∀ name, live name → ∀ index other,
    (index, other) ∈ target.productionsFor (rename.nonterminal name) ↔
      ∃ production, (index, production) ∈ source.productionsFor name ∧
        rename.production production = other
  live_rhs : ∀ production ∈ source.productions, live production.lhs →
    AllLive live production.rhs

namespace Embeds

variable {rename : Renaming} {live : String → Prop} {source target : Grammar}
  (embeds : Embeds rename live source target)

include embeds

private theorem starts_of_starts {symbol : Symbol} (isLive : AllLive live [symbol])
    {other : String} (starts : target.Starts (rename.symbol symbol) other) :
    ∃ name, source.Starts symbol name ∧ rename.terminal name = other := by
  generalize renamed : rename.symbol symbol = image at starts
  induction starts generalizing symbol with
  | terminal other =>
      obtain ⟨name, rfl, named⟩ := Renaming.symbol_eq_terminal renamed
      exact ⟨name, .terminal name, named⟩
  | @nonterminal image first rest other member rhs _ inductionHypothesis =>
      obtain ⟨name, rfl, named⟩ := Renaming.symbol_eq_nonterminal renamed
      have nameLive := isLive name List.mem_cons_self
      obtain ⟨index, found⟩ := List.getElem?_of_mem member
      obtain ⟨production, inSource, rfl⟩ := (embeds.mem_productionsFor name nameLive index _).1
        (Grammar.mem_productionsFor.2 ⟨found, named.symm⟩)
      obtain ⟨foundToo, rfl⟩ := Grammar.mem_productionsFor.1 inSource
      have inProductions := List.mem_of_getElem? foundToo
      obtain ⟨origin, others, sourceRhs, firstRenamed, -⟩ := List.map_eq_cons_iff.1 rhs
      have originLive : AllLive live [origin] := by
        intro other isOrigin
        apply embeds.live_rhs production inProductions nameLive
        rw [sourceRhs, ← List.mem_singleton.1 isOrigin]
        exact List.mem_cons_self
      obtain ⟨terminal, starts, renamedTerminal⟩ := inductionHypothesis originLive firstRenamed
      exact ⟨terminal, .nonterminal inProductions sourceRhs starts, renamedTerminal⟩

private theorem starts_renamed {symbol : Symbol} (isLive : AllLive live [symbol])
    {name : String} (starts : source.Starts symbol name) :
    target.Starts (rename.symbol symbol) (rename.terminal name) := by
  induction starts with
  | terminal name => exact .terminal _
  | @nonterminal production first rest name member rhs _ inductionHypothesis =>
      have lhsLive := isLive production.lhs List.mem_cons_self
      obtain ⟨index, found⟩ := List.getElem?_of_mem member
      have inTarget := (embeds.mem_productionsFor _ lhsLive index _).2
        ⟨production, Grammar.mem_productionsFor.2 ⟨found, rfl⟩, rfl⟩
      have firstLive : AllLive live [first] := by
        intro other isFirst
        apply embeds.live_rhs production member lhsLive
        rw [rhs, ← List.mem_singleton.1 isFirst]
        exact List.mem_cons_self
      have renamedRhs : (rename.production production).rhs =
          rename.symbol first :: rest.map rename.symbol := by
        show production.rhs.map rename.symbol = _
        rw [rhs, List.map_cons]
      exact .nonterminal (List.mem_of_getElem? (Grammar.mem_productionsFor.1 inTarget).1) renamedRhs
        (inductionHypothesis firstLive)

/-- A live symbol starts with the same terminals in both grammars, up to their names. -/
theorem mem_firstOf {symbol : Symbol} (isLive : AllLive live [symbol]) {other : String} :
    other ∈ (Sets.ofGrammar target).firstOf (rename.symbol symbol) ↔
      ∃ name ∈ (Sets.ofGrammar source).firstOf symbol, rename.terminal name = other := by
  simp only [Grammar.mem_firstOf]
  constructor
  · exact embeds.starts_of_starts isLive
  · rintro ⟨name, starts, rfl⟩
    exact embeds.starts_renamed isLive starts

end Embeds

end CanonicalLR
