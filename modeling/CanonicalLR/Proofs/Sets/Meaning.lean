import CanonicalLR.Proofs.Grammar.Readable
import CanonicalLR.Proofs.Rightmost
import CanonicalLR.Proofs.Sets.Follow
import Mathlib.Data.List.Chain

/-!
Contract: what the FIRST and FOLLOW sets of a grammar mean for derivations.

Owns:
- what the neighbours in a derived form tell of the FOLLOW sets, one step at a time;
- the derivation behind each member of a FOLLOW set;
- membership in the sets of a grammar from text, by derivations alone.

Does not own: the lookaheads of items.

Nonterminals may be undefined or derive no word: a derivation may stop at any form.
-/

namespace CanonicalLR

namespace Grammar

variable {grammar : Grammar} {form target : List Symbol} {name terminal : String}

/-! ### Neighbours in a form -/

/-- A nonterminal on the left is followed by whatever the symbol on the right starts with. -/
def Adjoins (grammar : Grammar) (left right : Symbol) : Prop :=
  ∀ name terminal, left = .nonterminal name → grammar.Starts right terminal →
    grammar.Follows name terminal

theorem isChain_rhs {production : Production} (member : production ∈ grammar.productions) :
    production.rhs.IsChain grammar.Adjoins := by
  rw [List.isChain_iff_forall_rel_of_append_cons_cons]
  intro left right before behind rhs name terminal isLeft starts
  exact .ahead member (isLeft ▸ rhs) starts

section Neighbours

variable (nonempty : ∀ production ∈ grammar.productions, production.rhs ≠ [])

include nonempty

/-- A step keeps the neighbours. Those of the nonterminal that is replaced become neighbours of
the first and of the last symbol of the right-hand side. -/
theorem Rewrites.isChain (rewrites : grammar.Rewrites form target)
    (chain : form.IsChain grammar.Adjoins) : target.IsChain grammar.Adjoins := by
  obtain @⟨production, member, before, after⟩ := rewrites
  obtain ⟨chainBefore, chainBehind, meets⟩ := List.isChain_append.1 chain
  obtain ⟨meetsAfter, chainAfter⟩ := List.isChain_cons.1 chainBehind
  have meetsRhs : ∀ left ∈ before.getLast?, ∀ right ∈ production.rhs.head?,
      grammar.Adjoins left right := by
    intro left isLast right isHead name terminal isLeft starts
    obtain ⟨rest, rhs⟩ := List.head?_eq_some_iff.1 isHead
    exact meets left isLast _ rfl name terminal isLeft (.nonterminal member rhs starts)
  have rhsMeets : ∀ left ∈ (before ++ production.rhs).getLast?, ∀ right ∈ after.head?,
      grammar.Adjoins left right := by
    intro left isLast right isHead name terminal isLeft starts
    rw [List.getLast?_append_of_ne_nil _ (nonempty production member)] at isLast
    obtain ⟨front, rhs⟩ := List.getLast?_eq_some_iff.1 isLast
    exact .atEnd member (isLeft ▸ rhs) (meetsAfter right isHead _ terminal rfl starts)
  have chainFront : (before ++ production.rhs).IsChain grammar.Adjoins :=
    List.isChain_append.2 ⟨chainBefore, isChain_rhs member, meetsRhs⟩
  exact List.isChain_append.2 ⟨chainFront, chainAfter, rhsMeets⟩

theorem Derives.isChain (derives : grammar.Derives form target)
    (chain : form.IsChain grammar.Adjoins) : target.IsChain grammar.Adjoins := by
  induction derives with
  | refl => exact chain
  | tail _ rewrites inductionHypothesis => exact rewrites.isChain nonempty inductionHypothesis

/-- A terminal that stands behind a nonterminal in a derived form follows it, provided that
the form at the beginning holds no other neighbours. -/
theorem Derives.follows {before behind : List Symbol} (chain : form.IsChain grammar.Adjoins)
    (derives : grammar.Derives form
      (before ++ .nonterminal name :: .terminal terminal :: behind)) :
    grammar.Follows name terminal := by
  have neighbours := derives.isChain nonempty chain
  rw [List.isChain_iff_forall_rel_of_append_cons_cons] at neighbours
  exact neighbours rfl name terminal rfl (.terminal terminal)

/-- The end of input behind the start symbol stays behind every form that it derives, so the
last symbol of such a form meets it. -/
theorem Derives.follows_endMarker (listed : grammar.start ∈ grammar.nonterminals)
    {before : List Symbol}
    (derives : grammar.Derives [.nonterminal grammar.start] (before ++ [.nonterminal name])) :
    grammar.Follows name grammar.endMarker := by
  have chain : [.nonterminal grammar.start, .terminal grammar.endMarker].IsChain
      grammar.Adjoins := by
    refine List.isChain_pair.2 fun other terminal isStart starts => ?_
    cases isStart
    cases starts
    exact .endMarker listed
  have inContext := derives.context [] [.terminal grammar.endMarker]
  rw [List.nil_append, List.nil_append, List.append_assoc] at inContext
  exact inContext.follows nonempty chain

end Neighbours

/-! ### Derivations -/

/-- What follows a nonterminal stands behind it in a form that some left-hand side derives,
unless it is the end of input behind a form that the start symbol derives. -/
theorem Follows.derives (follows : grammar.Follows name terminal) :
    (terminal = grammar.endMarker ∧ ∃ before,
        grammar.Derives [.nonterminal grammar.start] (before ++ [.nonterminal name])) ∨
      ∃ production ∈ grammar.productions, ∃ before behind,
        grammar.Derives [.nonterminal production.lhs]
          (before ++ .nonterminal name :: .terminal terminal :: behind) := by
  induction follows with
  | endMarker _ => exact .inl ⟨rfl, [], .refl⟩
  | @ahead production before behind name next terminal member rhs starts =>
      obtain ⟨rest, derives⟩ := starts.derives
      have step := derives_of_production member
      rw [rhs] at step
      have inContext := derives.context (before ++ [.nonterminal name]) behind
      simp only [List.append_assoc, List.cons_append] at inContext
      exact .inr ⟨production, member, before, rest ++ behind, step.trans inContext⟩
  | @atEnd production before name terminal member rhs _ inductionHypothesis =>
      have step := derives_of_production member
      rw [rhs] at step
      rcases inductionHypothesis with ⟨isEnd, front, derives⟩ | ⟨origin, inProductions, front,
        behind, derives⟩
      · have inContext := step.context front []
        rw [List.append_nil, List.append_nil, ← List.append_assoc] at inContext
        exact .inl ⟨isEnd, front ++ before, derives.trans inContext⟩
      · have inContext := step.context front (.terminal terminal :: behind)
        simp only [List.append_assoc, List.singleton_append] at inContext
        refine .inr ⟨origin, inProductions, front ++ before, behind, ?_⟩
        rw [List.append_assoc]
        exact derives.trans inContext

namespace Readable

variable (readable : grammar.Readable)

include readable

theorem starts_iff_derives : grammar.Starts (.nonterminal name) terminal ↔
    ∃ behind, grammar.Derives [.nonterminal name] (.terminal terminal :: behind) := by
  constructor
  · exact Starts.derives
  · rintro ⟨behind, derives⟩
    obtain ⟨first, others, same, starts⟩ := starts_of_derives readable.nonempty derives
    cases same
    exact starts

/-- The end of input stands in no form that a nonterminal derives. -/
theorem endMarker_not_mem_of_derives
    (derives : grammar.Derives [.nonterminal name] form) :
    .terminal grammar.endMarker ∉ form := by
  intro member
  rcases derives.mem member with isFirst | ⟨production, inProductions, inRhs⟩
  · simp at isFirst
  · exact (readable.readable production inProductions).2 inRhs

theorem start_listed : grammar.start ∈ grammar.nonterminals := by
  obtain ⟨first, others, productions, -, sameLhs⟩ := readable.starts
  rw [← sameLhs]
  exact readable.lhs_listed first (by simp [productions])

theorem follows_iff_derives (isOther : terminal ≠ grammar.endMarker) :
    grammar.Follows name terminal ↔ ∃ origin ∈ grammar.nonterminals, ∃ before behind,
      grammar.Derives [.nonterminal origin]
        (before ++ .nonterminal name :: .terminal terminal :: behind) := by
  constructor
  · intro follows
    rcases follows.derives with ⟨isEnd, -⟩ | ⟨production, member, derivation⟩
    · exact absurd isEnd isOther
    · exact ⟨production.lhs, readable.lhs_listed production member, derivation⟩
  · rintro ⟨origin, -, before, behind, derives⟩
    exact derives.follows readable.nonempty (List.isChain_singleton _)

theorem follows_endMarker_iff_derives :
    grammar.Follows name grammar.endMarker ↔
      ∃ before, grammar.Derives [.nonterminal grammar.start] (before ++ [.nonterminal name]) := by
  constructor
  · intro follows
    rcases follows.derives with ⟨-, derivation⟩ | ⟨production, -, before, behind, derives⟩
    · exact derivation
    · exact absurd (by simp) (readable.endMarker_not_mem_of_derives derives)
  · rintro ⟨before, derives⟩
    exact derives.follows_endMarker readable.nonempty readable.start_listed

end Readable

end Grammar

namespace Sets

/-! ### Membership -/

/-- The FIRST set and the FOLLOW set of a nonterminal, told by derivations. -/
structure Means (grammar : Grammar) (name : String) (first follow : NameSet) : Prop where
  mem_first : ∀ terminal, terminal ∈ first ↔
    ∃ behind, grammar.Derives [.nonterminal name] (.terminal terminal :: behind)
  mem_follow : ∀ terminal, terminal ≠ grammar.endMarker → (terminal ∈ follow ↔
    ∃ origin ∈ grammar.nonterminals, ∃ before behind, grammar.Derives [.nonterminal origin]
      (before ++ .nonterminal name :: .terminal terminal :: behind))
  endMarker_mem_follow : grammar.endMarker ∈ follow ↔
    ∃ before, grammar.Derives [.nonterminal grammar.start] (before ++ [.nonterminal name])

/-- A set that is found under a name is the one that membership is told of. -/
theorem mem_setOf {sets : NameMap NameSet} {name terminal : String} {set : NameSet}
    (found : sets.get? name = some set) : terminal ∈ sets.setOf name ↔ terminal ∈ set := by
  rw [NameMap.setOf, found, Option.getD_some]

/-- For a grammar from text FIRST of a nonterminal holds the terminals that begin a form
which it derives. FOLLOW holds those that stand behind it in a form which any nonterminal
derives, and the end of input if it ends a form which the start symbol derives. -/
theorem mem_iff_derives {endMarker source : String} {grammar : Grammar}
    (parsed : Grammar.parse endMarker source = .ok grammar) :
    (∀ name ∈ grammar.nonterminals, ∃ first follow,
      (ofGrammar grammar).first.get? name = some first ∧
        (ofGrammar grammar).follow.get? name = some follow ∧
        Means grammar name first follow) ∧
      ∀ name first, (ofGrammar grammar).first.get? name = some first →
        grammar.endMarker ∉ first := by
  have readable := Grammar.parse_readable parsed
  constructor
  · intro name listed
    obtain ⟨first, foundFirst⟩ := Grammar.exists_first listed
    obtain ⟨follow, foundFollow⟩ := Grammar.exists_follow listed
    refine ⟨first, follow, foundFirst, foundFollow, ?_, ?_, ?_⟩
    · intro terminal
      rw [← mem_setOf foundFirst]
      exact Grammar.mem_firstOf.trans readable.starts_iff_derives
    · intro terminal isOther
      rw [← mem_setOf foundFollow]
      exact Grammar.mem_follow.trans (readable.follows_iff_derives isOther)
    · rw [← mem_setOf foundFollow]
      exact Grammar.mem_follow.trans readable.follows_endMarker_iff_derives
  · intro name first found member
    rw [← mem_setOf found] at member
    obtain ⟨behind, derives⟩ := readable.starts_iff_derives.1 (Grammar.mem_firstOf.1 member)
    exact readable.endMarker_not_mem_of_derives derives List.mem_cons_self

/-- A nonterminal without productions at the end of one that calls itself from the left. -/
def trailing : Grammar :=
  .ofProductions "eof"
    [⟨"S", [.nonterminal "S", .nonterminal "A"], false⟩,
      ⟨"S", [.nonterminal "A", .terminal "x"], false⟩,
      ⟨"A", [.terminal "a", .nonterminal "B"], false⟩,
      ⟨"B", [.nonterminal "B", .nonterminal "U"], false⟩]

theorem mem_iff_derives_trailing :
    Grammar.parse "eof" "<S> : <S> <A> ; <S> : <A> [x] ; <A> : [a] <B> ; <B> : <B> <U> ;" =
        .ok trailing ∧
      (∃ origin ∈ trailing.nonterminals, ∃ before behind,
        trailing.Derives [.nonterminal origin]
          (before ++ .nonterminal "U" :: .terminal "x" :: behind)) ∧
      (∃ before, trailing.Derives [.nonterminal "S"] (before ++ [.nonterminal "U"])) ∧
      ∀ terminal behind, ¬ trailing.Derives [.nonterminal "B"] (.terminal terminal :: behind) := by
  have parsed : Grammar.parse "eof"
      "<S> : <S> <A> ; <S> : <A> [x] ; <A> : [a] <B> ; <B> : <B> <U> ;" = .ok trailing := by
    decide +kernel
  have means := (mem_iff_derives parsed).1
  obtain ⟨_, follow, -, foundFollow, undefined⟩ := means "U" (by decide)
  obtain ⟨first, _, foundFirst, -, unproductive⟩ := means "B" (by decide)
  have follows : "x" ∈ follow ∧ "eof" ∈ follow := by
    have computed : "x" ∈ (ofGrammar trailing).follow.setOf "U" ∧
        "eof" ∈ (ofGrammar trailing).follow.setOf "U" := by
      decide +kernel
    rwa [mem_setOf foundFollow, mem_setOf foundFollow] at computed
  have nothing : first = ∅ := by
    have computed : (ofGrammar trailing).first.setOf "B" = ∅ := by
      decide +kernel
    rwa [NameMap.setOf, foundFirst, Option.getD_some] at computed
  refine ⟨parsed, (undefined.mem_follow "x" (by decide)).1 follows.1,
    undefined.endMarker_mem_follow.1 follows.2, fun terminal behind derives => ?_⟩
  have member := (unproductive.mem_first terminal).2 ⟨behind, derives⟩
  rw [nothing] at member
  exact NameSet.not_mem_empty terminal member

end Sets

end CanonicalLR
