import CanonicalLR.Grammar.Basic
import Mathlib.Logic.Relation

/-!
Contract: what the productions of a grammar derive.

Owns:
- derivations in any order and rightmost derivations with their productions;
- the words that a form yields, by the structure of a derivation tree;
- the agreement of the three on words of terminals.

Does not own: how any of this is computed.
-/

namespace CanonicalLR.Grammar

/-- Replace one nonterminal by a right-hand side. -/
inductive Rewrites (grammar : Grammar) : List Symbol → List Symbol → Prop where
  | expand {production : Production} (member : production ∈ grammar.productions)
      (before after : List Symbol) :
      Rewrites grammar (before ++ .nonterminal production.lhs :: after)
        (before ++ production.rhs ++ after)

/-- A derivation replaces nonterminals in any order, zero or more times. -/
def Derives (grammar : Grammar) : List Symbol → List Symbol → Prop :=
  Relation.ReflTransGen grammar.Rewrites

/-- A derivation that always replaces the last nonterminal. It is listed by the
indices of its productions, the first step first. -/
inductive Rightmost (grammar : Grammar) : List Nat → List Symbol → List Symbol → Prop where
  | refl (form : List Symbol) : Rightmost grammar [] form form
  | step {index : Nat} {production : Production} {indices : List Nat} {target : List Symbol}
      (found : grammar.productions[index]? = some production)
      (before : List Symbol) (after : List String)
      (rest : Rightmost grammar indices
        (before ++ production.rhs ++ after.map .terminal) target) :
      Rightmost grammar (index :: indices)
        (before ++ .nonterminal production.lhs :: after.map .terminal) target

/-- The words of a form: each nonterminal contributes a word of one of its
right-hand sides. -/
inductive Yields (grammar : Grammar) : List Symbol → List String → Prop where
  | nil : Yields grammar [] []
  | terminal (name : String) {form : List Symbol} {word : List String}
      (rest : Yields grammar form word) :
      Yields grammar (.terminal name :: form) (name :: word)
  | nonterminal {production : Production} {form : List Symbol} {front back : List String}
      (member : production ∈ grammar.productions)
      (inner : Yields grammar production.rhs front) (rest : Yields grammar form back) :
      Yields grammar (.nonterminal production.lhs :: form) (front ++ back)

variable {grammar : Grammar}

/-! ### Derivations in context -/

theorem Rewrites.context {form target : List Symbol} (rewrites : grammar.Rewrites form target)
    (before after : List Symbol) :
    grammar.Rewrites (before ++ form ++ after) (before ++ target ++ after) := by
  obtain ⟨member, front, back⟩ := rewrites
  have := Rewrites.expand member (before ++ front) (back ++ after)
  simpa only [List.append_assoc, List.cons_append] using this

theorem Derives.context {form target : List Symbol} (derives : grammar.Derives form target)
    (before after : List Symbol) :
    grammar.Derives (before ++ form ++ after) (before ++ target ++ after) := by
  induction derives with
  | refl => exact .refl
  | tail _ rewrites inductionHypothesis =>
      exact inductionHypothesis.tail (rewrites.context before after)

theorem derives_of_production {production : Production}
    (member : production ∈ grammar.productions) :
    grammar.Derives [.nonterminal production.lhs] production.rhs := by
  have := Rewrites.expand member [] []
  rw [List.append_nil] at this
  exact .single this

theorem Rightmost.derives {indices : List Nat} {form target : List Symbol}
    (derivation : grammar.Rightmost indices form target) : grammar.Derives form target := by
  induction derivation with
  | refl => exact .refl
  | step found before after _ inductionHypothesis =>
      exact .head (.expand (List.mem_of_getElem? found) before _) inductionHypothesis

theorem Rightmost.append {first second : List Nat} {form middle target : List Symbol}
    (start : grammar.Rightmost first form middle) (rest : grammar.Rightmost second middle target) :
    grammar.Rightmost (first ++ second) form target := by
  induction start with
  | refl => exact rest
  | step found before after _ inductionHypothesis =>
      exact .step found before after (inductionHypothesis rest)

/-- Terminals behind a form do not keep a derivation from being rightmost. -/
theorem Rightmost.context {indices : List Nat} {form target : List Symbol}
    (derivation : grammar.Rightmost indices form target) (before : List Symbol)
    (after : List String) :
    grammar.Rightmost indices (before ++ form ++ after.map .terminal)
      (before ++ target ++ after.map .terminal) := by
  induction derivation with
  | refl => exact .refl _
  | @step index production indices target found front back _ inductionHypothesis =>
      have rest : grammar.Rightmost indices
          ((before ++ front) ++ production.rhs ++ (back ++ after).map .terminal)
          (before ++ target ++ after.map .terminal) := by
        simpa only [List.map_append, List.append_assoc] using inductionHypothesis
      have step := Rightmost.step found (before ++ front) (back ++ after) rest
      simpa only [List.map_append, List.append_assoc, List.cons_append] using step

/-! ### Words -/

namespace Yields

theorem append {left right : List Symbol} {front back : List String}
    (leftYields : grammar.Yields left front) (rightYields : grammar.Yields right back) :
    grammar.Yields (left ++ right) (front ++ back) := by
  induction leftYields with
  | nil => exact rightYields
  | terminal name _ inductionHypothesis => exact .terminal name inductionHypothesis
  | nonterminal member inner _ _ inductionHypothesis =>
      rw [List.append_assoc]
      exact .nonterminal member inner inductionHypothesis

theorem split {left right : List Symbol} {word : List String}
    (yields : grammar.Yields (left ++ right) word) :
    ∃ front back, word = front ++ back ∧ grammar.Yields left front ∧
      grammar.Yields right back := by
  induction left generalizing word with
  | nil => exact ⟨[], word, rfl, .nil, yields⟩
  | cons head tail inductionHypothesis =>
      cases yields with
      | terminal name rest =>
          obtain ⟨front, back, rfl, tailYields, rightYields⟩ := inductionHypothesis rest
          exact ⟨name :: front, back, rfl, .terminal name tailYields, rightYields⟩
      | nonterminal member inner rest =>
          obtain ⟨front, back, rfl, tailYields, rightYields⟩ := inductionHypothesis rest
          exact ⟨_, back, (List.append_assoc ..).symm, .nonterminal member inner tailYields,
            rightYields⟩

theorem of_terminals (word : List String) : grammar.Yields (word.map .terminal) word := by
  induction word with
  | nil => exact .nil
  | cons name rest inductionHypothesis => exact .terminal name inductionHypothesis

theorem eq_of_terminals {names word : List String}
    (yields : grammar.Yields (names.map .terminal) word) : word = names := by
  induction names generalizing word with
  | nil =>
      cases yields
      rfl
  | cons name rest inductionHypothesis =>
      cases yields with
      | terminal _ restYields => rw [inductionHypothesis restYields]

/-- A form yields what any form after a step yields. -/
theorem of_rewrites {form target : List Symbol} {word : List String}
    (rewrites : grammar.Rewrites form target) (yields : grammar.Yields target word) :
    grammar.Yields form word := by
  obtain ⟨member, before, after⟩ := rewrites
  rw [List.append_assoc] at yields
  obtain ⟨front, rest, rfl, beforeYields, restYields⟩ := yields.split
  obtain ⟨middle, back, rfl, innerYields, afterYields⟩ := restYields.split
  exact beforeYields.append (.nonterminal member innerYields afterYields)

/-- A derivation tree can be read off from the right. -/
theorem rightmost {form : List Symbol} {word : List String} (yields : grammar.Yields form word) :
    ∃ indices, grammar.Rightmost indices form (word.map .terminal) := by
  induction yields with
  | nil => exact ⟨[], .refl _⟩
  | terminal name _ inductionHypothesis =>
      obtain ⟨indices, derivation⟩ := inductionHypothesis
      have := derivation.context [.terminal name] []
      simp only [List.map_nil, List.append_nil] at this
      exact ⟨indices, this⟩
  | @nonterminal production form front back member _ _ innerHypothesis restHypothesis =>
      obtain ⟨innerIndices, innerDerivation⟩ := innerHypothesis
      obtain ⟨restIndices, restDerivation⟩ := restHypothesis
      obtain ⟨index, found⟩ := List.getElem?_of_mem member
      -- The form behind the nonterminal comes first, so that terminals stand there.
      have behind := restDerivation.context [.nonterminal production.lhs] []
      have within := innerDerivation.context [] back
      simp only [List.map_nil, List.append_nil, List.nil_append, List.singleton_append,
        ← List.map_append] at behind within
      exact ⟨restIndices ++ index :: innerIndices, behind.append (.step found [] back within)⟩

end Yields

theorem derives_iff_yields {form : List Symbol} {word : List String} :
    grammar.Derives form (word.map .terminal) ↔ grammar.Yields form word := by
  constructor
  · intro derives
    induction derives using Relation.ReflTransGen.head_induction_on with
    | refl => exact .of_terminals word
    | head rewrites _ inductionHypothesis => exact .of_rewrites rewrites inductionHypothesis
  · intro yields
    obtain ⟨indices, derivation⟩ := yields.rightmost
    exact derivation.derives

end CanonicalLR.Grammar
