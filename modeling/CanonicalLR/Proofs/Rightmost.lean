import CanonicalLR.Proofs.Derivation
import Mathlib.Data.List.Basic

/-!
Contract: rightmost derivations, production by production.

Owns:
- the last nonterminal of a form, which is the one that a step replaces;
- that the productions determine where a derivation leads;
- a derivation in two parts, its first step and its last one;
- that forms never become shorter when no right-hand side is empty;
- that each symbol stands in the first form or comes from a right-hand side.

Does not own: which derivations have the same end.
-/

namespace CanonicalLR.Grammar

/-- An element of two joined lists stands in one of them. -/
theorem append_eq_append_cons {Value : Type} {left right before after : List Value} {value : Value}
    (same : left ++ right = before ++ value :: after) :
    (∃ behind, left = before ++ value :: behind ∧ after = behind ++ right) ∨
      ∃ front, before = left ++ front ∧ right = front ++ value :: after := by
  rcases List.append_eq_append_iff.1 same with ⟨front, rfl, inRight⟩ | ⟨between, rfl, rest⟩
  · exact .inr ⟨front, rfl, inRight⟩
  · cases between with
    | nil => exact .inr ⟨[], by simp, rest.symm⟩
    | cons head behind =>
        obtain ⟨rfl, rfl⟩ := List.cons.inj rest
        exact .inl ⟨behind, rfl, rfl⟩

theorem map_terminal_injective : Function.Injective (List.map Symbol.terminal) :=
  List.map_injective_iff.2 fun _ _ => Symbol.terminal.inj

theorem nonterminal_not_mem (name : String) (word : List String) :
    .nonterminal name ∉ word.map Symbol.terminal := by
  simp

/-- Only terminals follow the last nonterminal, so a form has only one. -/
theorem last_nonterminal_unique {before otherBefore : List Symbol} {name other : String}
    {after otherAfter : List String}
    (same : before ++ .nonterminal name :: after.map .terminal =
      otherBefore ++ .nonterminal other :: otherAfter.map .terminal) :
    before = otherBefore ∧ name = other ∧ after = otherAfter := by
  rcases append_eq_append_cons same with ⟨behind, -, terminals⟩ | ⟨front, rfl, rest⟩
  · refine absurd ?_ (nonterminal_not_mem name otherAfter)
    rw [terminals]
    simp
  · cases front with
    | nil =>
        obtain ⟨sameNonterminal, terminals⟩ := List.cons.inj rest
        exact ⟨(List.append_nil before).symm, Symbol.nonterminal.inj sameNonterminal,
          map_terminal_injective terminals⟩
    | cons head front =>
        refine absurd ?_ (nonterminal_not_mem other after)
        rw [(List.cons.inj rest).2]
        simp

variable {grammar : Grammar}

namespace Rightmost

theorem target_unique {indices : List Nat} {form target other : List Symbol}
    (derivation : grammar.Rightmost indices form target)
    (otherDerivation : grammar.Rightmost indices form other) : target = other := by
  induction derivation with
  | refl form =>
      cases otherDerivation
      rfl
  | @step index production indices target found before after _ inductionHypothesis =>
      generalize same : before ++ .nonterminal production.lhs :: after.map .terminal = form
        at otherDerivation
      cases otherDerivation with
      | step otherFound otherBefore otherAfter rest =>
          cases found.symm.trans otherFound
          obtain ⟨rfl, -, rfl⟩ := last_nonterminal_unique same
          exact inductionHypothesis rest

theorem split {first second : List Nat} {form target : List Symbol}
    (derivation : grammar.Rightmost (first ++ second) form target) :
    ∃ middle, grammar.Rightmost first form middle ∧ grammar.Rightmost second middle target := by
  induction first generalizing form with
  | nil => exact ⟨form, .refl form, derivation⟩
  | cons index first inductionHypothesis =>
      cases derivation with
      | step found before after rest =>
          obtain ⟨middle, beginning, ending⟩ := inductionHypothesis rest
          exact ⟨middle, .step found before after beginning, ending⟩

/-- The last step replaces the last nonterminal of the form before it. -/
theorem last_step {indices : List Nat} {index : Nat} {form target : List Symbol}
    (derivation : grammar.Rightmost (indices ++ [index]) form target) :
    ∃ (before : List Symbol) (production : Production) (after : List String),
      grammar.productions[index]? = some production ∧
      grammar.Rightmost indices form
        (before ++ .nonterminal production.lhs :: after.map .terminal) ∧
      target = before ++ production.rhs ++ after.map .terminal := by
  obtain ⟨middle, beginning, ending⟩ := derivation.split
  cases ending with
  | step found before after rest =>
      cases rest
      exact ⟨before, _, after, found, beginning, rfl⟩

/-- The first step from a single nonterminal leads to a right-hand side. -/
theorem first_step {indices : List Nat} {index : Nat} {name : String} {target : List Symbol}
    (derivation : grammar.Rightmost (index :: indices) [.nonterminal name] target) :
    ∃ production, grammar.productions[index]? = some production ∧ production.lhs = name ∧
      grammar.Rightmost indices production.rhs target := by
  generalize single : [Symbol.nonterminal name] = form at derivation
  cases derivation with
  | @step index production _ _ found before after rest =>
      have same : [] ++ .nonterminal name :: ([] : List String).map Symbol.terminal =
          before ++ .nonterminal production.lhs :: after.map .terminal := single
      obtain ⟨rfl, rfl, rfl⟩ := last_nonterminal_unique same
      rw [List.nil_append, List.map_nil, List.append_nil] at rest
      exact ⟨production, found, rfl, rest⟩

/-- A derivation of a form from itself can be repeated. -/
theorem repeated {indices : List Nat} {form : List Symbol}
    (derivation : grammar.Rightmost indices form form) (count : Nat) :
    grammar.Rightmost (List.replicate count indices).flatten form form := by
  induction count with
  | zero => exact .refl form
  | succ count inductionHypothesis =>
      rw [List.replicate_succ, List.flatten_cons]
      exact derivation.append inductionHypothesis

end Rightmost

/-! ### Lengths -/

section Lengths

variable (nonempty : ∀ production ∈ grammar.productions, production.rhs ≠ [])

include nonempty

theorem Rewrites.length_le {form target : List Symbol} (rewrites : grammar.Rewrites form target) :
    form.length ≤ target.length := by
  obtain ⟨member, before, after⟩ := rewrites
  have := List.length_pos_iff.2 (nonempty _ member)
  simp only [List.length_append, List.length_cons]
  omega

theorem Derives.length_le {form target : List Symbol} (derives : grammar.Derives form target) :
    form.length ≤ target.length := by
  induction derives with
  | refl => exact Nat.le_refl _
  | tail _ rewrites inductionHypothesis =>
      exact Nat.le_trans inductionHypothesis (rewrites.length_le nonempty)

end Lengths

/-! ### Symbols -/

/-- A symbol of a derived form has stood in the first form or in a right-hand side. -/
theorem Derives.mem {form target : List Symbol} {symbol : Symbol}
    (derives : grammar.Derives form target) (member : symbol ∈ target) :
    symbol ∈ form ∨ ∃ production ∈ grammar.productions, symbol ∈ production.rhs := by
  induction derives with
  | refl => exact .inl member
  | tail _ rewrites inductionHypothesis =>
      obtain ⟨inProductions, before, after⟩ := rewrites
      rw [List.append_assoc] at member
      rcases List.mem_append.1 member with inBefore | behind
      · exact inductionHypothesis (List.mem_append_left _ inBefore)
      rcases List.mem_append.1 behind with inRhs | inAfter
      · exact .inr ⟨_, inProductions, inRhs⟩
      · exact inductionHypothesis (List.mem_append_right _ (List.mem_cons_of_mem _ inAfter))

end CanonicalLR.Grammar
