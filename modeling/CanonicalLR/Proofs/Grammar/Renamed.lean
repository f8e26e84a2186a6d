import CanonicalLR.Proofs.Grammar.Check
import CanonicalLR.Proofs.Grammar.Renaming
import Mathlib.Data.List.Find
import Mathlib.Data.Set.Function

/-!
Contract: grammars that differ in their names alone.

Owns:
- renamings that keep different names different, and renamed reasons of failure;
- that renamed productions are the productions of the renamed nonterminals;
- that the checks before generation come to the same, up to the names.

Does not own: the order of names, which a renaming may change.
-/

namespace CanonicalLR

namespace Renaming

variable (rename : Renaming)

def conflict (conflict : Conflict) : Conflict :=
  { conflict with terminal := rename.terminal conflict.terminal }

def cause : GenerationError → GenerationError
  | .malformedText cause => .malformedText cause
  | .missingStartProduction => .missingStartProduction
  | .undefinedNonterminal nonterminal lhs =>
      .undefinedNonterminal (rename.nonterminal nonterminal) (rename.nonterminal lhs)
  | .duplicateRightHandSide rhs productions =>
      .duplicateRightHandSide (rhs.map rename.symbol) productions
  | .ambiguity conflict => .ambiguity (rename.conflict conflict)

/-- Different terminals of the grammar, its end marker among them, get different names, and
so do different nonterminals. A terminal may get the name of a nonterminal. -/
structure InjectiveOn (grammar : Grammar) : Prop where
  terminals : Set.InjOn rename.terminal {name | name ∈ grammar.terminals}
  nonterminals : Set.InjOn rename.nonterminal {name | name ∈ grammar.nonterminals}

end Renaming

namespace Grammar

/-- The symbol is one of those whose names are listed. -/
def Lists (grammar : Grammar) : Symbol → Prop
  | .terminal name => name ∈ grammar.terminals
  | .nonterminal name => name ∈ grammar.nonterminals

theorem Listed.lists {grammar : Grammar} (listed : grammar.Listed) {production : Production}
    (member : production ∈ grammar.productions) {symbol : Symbol}
    (inRhs : symbol ∈ production.rhs) : grammar.Lists symbol := by
  cases symbol with
  | terminal name => exact listed.terminal production member name inRhs
  | nonterminal name => exact listed.nonterminal production member name inRhs

/-- Nothing but equality counts for the first repeated value. -/
theorem firstRepeated?_map {Value Image : Type} [DecidableEq Value] [DecidableEq Image]
    {view : Value → Image} {earlier values : List Value}
    (injective : Set.InjOn view {value | value ∈ earlier ∨ value ∈ values}) :
    firstRepeated? (earlier.map view) (values.map view) =
      (firstRepeated? earlier values).map view := by
  induction values generalizing earlier with
  | nil => rfl
  | cons head rest inductionHypothesis =>
      have repeated : view head ∈ earlier.map view ↔ head ∈ earlier := by
        refine ⟨fun member => ?_, List.mem_map_of_mem⟩
        obtain ⟨other, inEarlier, same⟩ := List.mem_map.1 member
        rwa [← injective (.inl inEarlier) (.inr List.mem_cons_self) same]
      have injectiveLater :
          Set.InjOn view {value | value ∈ head :: earlier ∨ value ∈ rest} := by
        refine injective.mono fun value member => ?_
        rcases member with here | inRest
        · rcases List.mem_cons.1 here with rfl | inEarlier
          · exact .inr List.mem_cons_self
          · exact .inl inEarlier
        · exact .inr (List.mem_cons_of_mem head inRest)
      have later := inductionHypothesis injectiveLater
      rw [List.map_cons] at later
      simp only [List.map_cons, firstRepeated?, repeated, later]
      split <;> rfl

theorem mem_of_firstRepeated? {Value : Type} [DecidableEq Value] {earlier values : List Value}
    {value : Value} (first : firstRepeated? earlier values = some value) : value ∈ values := by
  induction values generalizing earlier with
  | nil => contradiction
  | cons head rest inductionHypothesis =>
      unfold firstRepeated? at first
      split at first
      · cases first
        exact List.mem_cons_self
      · exact List.mem_cons_of_mem head (inductionHypothesis first)

end Grammar

/-- `target` has the productions and the end marker of `source` under other names, and no two
names of `source` become one. -/
structure Renames (rename : Renaming) (source target : Grammar) : Prop where
  productions_eq : target.productions = source.productions.map rename.production
  endMarker_eq : target.endMarker = rename.terminal source.endMarker
  listed : source.Listed
  injective : rename.InjectiveOn source

namespace Renames

variable {rename : Renaming} {source target : Grammar} (renames : Renames rename source target)

include renames

theorem symbol_injOn : Set.InjOn rename.symbol {symbol | source.Lists symbol} := by
  intro left leftListed right rightListed same
  cases left with
  | terminal name =>
      cases right with
      | terminal other =>
          exact congrArg _
            (renames.injective.terminals leftListed rightListed (Symbol.terminal.inj same))
      | nonterminal other => contradiction
  | nonterminal name =>
      cases right with
      | terminal other => contradiction
      | nonterminal other =>
          exact congrArg _
            (renames.injective.nonterminals leftListed rightListed (Symbol.nonterminal.inj same))

private theorem symbols_injective {left right : List Symbol}
    (leftListed : ∀ symbol ∈ left, source.Lists symbol)
    (rightListed : ∀ symbol ∈ right, source.Lists symbol)
    (same : left.map rename.symbol = right.map rename.symbol) : left = right := by
  induction left generalizing right with
  | nil => exact (List.map_eq_nil_iff.1 same.symm).symm
  | cons first others inductionHypothesis =>
      obtain ⟨other, rest, rfl, sameFirst, sameRest⟩ := List.map_eq_cons_iff.1 same.symm
      rw [List.forall_mem_cons] at leftListed rightListed
      rw [renames.symbol_injOn leftListed.1 rightListed.1 sameFirst.symm,
        inductionHypothesis leftListed.2 rightListed.2 sameRest.symm]

theorem rhs_injOn : Set.InjOn (List.map rename.symbol)
    {rhs | ∃ production ∈ source.productions, production.rhs = rhs} := by
  rintro _ ⟨left, leftMember, rfl⟩ _ ⟨right, rightMember, rfl⟩ same
  exact renames.symbols_injective (fun _ => renames.listed.lists leftMember)
    (fun _ => renames.listed.lists rightMember) same

theorem embeds : Embeds rename (· ∈ source.nonterminals) source target where
  mem_productionsFor := by
    intro name inNonterminals index other
    simp only [Grammar.mem_productionsFor, renames.productions_eq, List.getElem?_map,
      Option.map_eq_some_iff]
    constructor
    · rintro ⟨⟨production, found, rfl⟩, sameLhs⟩
      have lhsListed := renames.listed.lhs production (List.mem_of_getElem? found)
      exact ⟨production, ⟨found,
        renames.injective.nonterminals lhsListed inNonterminals sameLhs⟩, rfl⟩
    · rintro ⟨production, ⟨found, rfl⟩, rfl⟩
      exact ⟨⟨production, found, rfl⟩, rfl⟩
  live_rhs := fun production member _ => renames.listed.nonterminal production member

/-! ### The checks -/

theorem startProduction?_eq :
    target.startProduction? = source.startProduction?.map fun (index, production) =>
      (index, rename.production production) := by
  unfold Grammar.startProduction?
  rw [renames.productions_eq, List.zipIdx_map, List.find?_map, Option.map_map, Option.map_map]
  rfl

private theorem uses_eq : target.uses =
    source.uses.map (Prod.map rename.nonterminal rename.nonterminal) := by
  have ofProduction : ∀ production : Production,
      ((rename.production production).rhs.filterMap Symbol.nonterminal?).map
          ((rename.production production).lhs, ·) =
        ((production.rhs.filterMap Symbol.nonterminal?).map (production.lhs, ·)).map
          (Prod.map rename.nonterminal rename.nonterminal) := by
    intro production
    show ((production.rhs.map rename.symbol).filterMap _).map _ = _
    rw [List.filterMap_map, List.map_map, List.map_filterMap, List.map_filterMap]
    congr 1
    funext symbol
    cases symbol <;> rfl
  unfold Grammar.uses
  rw [renames.productions_eq, List.flatMap_map, List.map_flatMap]
  exact congrArg (source.productions.flatMap ·) (funext ofProduction)

private theorem isDefined_eq {name : String} (inNonterminals : name ∈ source.nonterminals) :
    target.isDefined (rename.nonterminal name) = source.isDefined name := by
  unfold Grammar.isDefined
  rw [renames.productions_eq, List.any_map, Bool.eq_iff_iff, List.any_eq_true, List.any_eq_true]
  simp only [Function.comp_apply, decide_eq_true_eq]
  refine exists_congr fun production => and_congr_right fun member => ?_
  exact renames.injective.nonterminals.eq_iff (renames.listed.lhs production member) inNonterminals

/-- The first use of an undefined nonterminal is at the same place. -/
private theorem firstUndefined_eq :
    target.uses.find? (fun (_, nonterminal) => !target.isDefined nonterminal) =
      (source.uses.find? fun (_, nonterminal) => !source.isDefined nonterminal).map
        (Prod.map rename.nonterminal rename.nonterminal) := by
  rw [renames.uses_eq, List.find?_map]
  refine congrArg _ (List.find?_congr fun usage inUses => ?_)
  obtain ⟨production, member, used⟩ := List.mem_flatMap.1 inUses
  obtain ⟨other, inRhs, same⟩ := List.mem_map.1 used
  cases same
  obtain ⟨symbol, occurs, isName⟩ := List.mem_filterMap.1 inRhs
  cases symbol with
  | terminal name => contradiction
  | nonterminal name =>
      cases isName
      have inNonterminals := renames.listed.nonterminal production member other occurs
      exact congrArg not (renames.isDefined_eq inNonterminals)

private theorem checkDefined_eq :
    target.checkDefined = source.checkDefined.mapError rename.cause := by
  unfold Grammar.checkDefined
  rw [renames.firstUndefined_eq]
  generalize List.find? _ source.uses = first
  cases first <;> rfl

private theorem indicesOf_eq {rhs : List Symbol}
    (isRhs : ∃ production ∈ source.productions, production.rhs = rhs) :
    target.indicesOf (rhs.map rename.symbol) = source.indicesOf rhs := by
  unfold Grammar.indicesOf
  rw [renames.productions_eq, List.zipIdx_map, List.filter_map, List.map_map]
  congr 1
  refine List.filter_congr fun ⟨production, index⟩ member => decide_eq_decide.2 ?_
  have inProductions := List.mem_of_getElem? (List.mem_zipIdx_iff_getElem?.1 member)
  exact renames.rhs_injOn.eq_iff ⟨production, inProductions, rfl⟩ isRhs

private theorem checkDistinctRightHandSides_eq : target.checkDistinctRightHandSides =
    source.checkDistinctRightHandSides.mapError rename.cause := by
  have allRhs : target.productions.map Production.rhs =
      (source.productions.map Production.rhs).map (List.map rename.symbol) := by
    rw [renames.productions_eq, List.map_map, List.map_map]
    rfl
  have sameSearch : Grammar.firstRepeated? [] (target.productions.map Production.rhs) =
      (Grammar.firstRepeated? [] (source.productions.map Production.rhs)).map
        (List.map rename.symbol) := by
    rw [allRhs, ← Grammar.firstRepeated?_map, List.map_nil]
    refine renames.rhs_injOn.mono ?_
    rintro rhs (inNone | isRhs)
    · exact absurd inNone List.not_mem_nil
    · exact List.mem_map.1 isRhs
  unfold Grammar.checkDistinctRightHandSides
  rw [sameSearch]
  cases first : Grammar.firstRepeated? [] (source.productions.map Production.rhs) with
  | none => rfl
  | some rhs =>
      have isRhs := List.mem_map.1 (Grammar.mem_of_firstRepeated? first)
      simp only [Option.map_some, renames.indicesOf_eq isRhs]
      rfl

/-- The checks find the same start production or the same defect. -/
theorem checkedStart_eq : target.checkedStart =
    (source.checkedStart.mapError rename.cause).map fun (index, production) =>
      (index, rename.production production) := by
  unfold Grammar.checkedStart
  rw [renames.startProduction?_eq, renames.checkDefined_eq, renames.checkDistinctRightHandSides_eq]
  cases source.startProduction? with
  | none => rfl
  | some start =>
      cases source.checkDefined with
      | error cause => rfl
      | ok => cases source.checkDistinctRightHandSides <;> rfl

end Renames

/-- Productions under other names make a grammar under other names. -/
theorem Renaming.InjectiveOn.renames {rename : Renaming} {endMarker : String}
    {productions : List Production}
    (injective : rename.InjectiveOn (.ofProductions endMarker productions)) :
    Renames rename (.ofProductions endMarker productions)
      (.ofProductions (rename.terminal endMarker) (productions.map rename.production)) where
  productions_eq := by
    cases productions with
    | nil => rfl
    | cons first others => simp [Grammar.ofProductions, Grammar.markStart, Renaming.production]
  endMarker_eq := rfl
  listed := Grammar.ofProductions_listed endMarker productions
  injective := injective

end CanonicalLR
