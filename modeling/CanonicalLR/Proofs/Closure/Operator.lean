import CanonicalLR.Proofs.Closure.Reach

/-!
Contract: closures of several lists of seeds side by side.

Owns:
- what two lists of seeds lead to together, and what a closure leads to as seeds;
- that closing is additive, blind to the order and the repetition of seeds, and idempotent.

Does not own: what a single closure records.

Which undefined nonterminal a failure names is the first one in the order of expansion, so it
does depend on the order of the seeds; whether there is a failure does not.
-/

namespace CanonicalLR

namespace Closure

/-! ### What lists of seeds lead to -/

variable {grammar : Grammar} {sets : Sets} {left right seeds : List Item} {fact : Fact}

theorem Reaches.trans {origin : Fact} (reaches : Reaches grammar sets seeds origin)
    (path : Relation.ReflTransGen (Calls grammar sets) origin fact) :
    Reaches grammar sets seeds fact := by
  obtain ⟨seed, member, first, records, before⟩ := reaches
  exact ⟨seed, member, first, records, before.trans path⟩

theorem reaches_append :
    Reaches grammar sets (left ++ right) fact ↔
      Reaches grammar sets left fact ∨ Reaches grammar sets right fact := by
  simp only [Reaches, List.mem_append, or_and_right, exists_or]

/-- The items of a closure lead to nothing beyond it. -/
theorem reaches_items_iff {set : ItemSet} (closed : close grammar sets seeds = .ok set) :
    Reaches grammar sets set.items fact ↔ Reaches grammar sets seeds fact := by
  constructor
  · rintro ⟨item, member, origin, records, path⟩
    exact ((records_close closed origin).1 ⟨item, member, records⟩).trans path
  · intro reaches
    obtain ⟨item, member, records⟩ := (records_close closed fact).2 reaches
    exact .of_seed member records

/-- Seeds that lead to the same facts close alike. -/
theorem close_eq_ok_congr
    (same : ∀ fact, Reaches grammar sets left fact ↔ Reaches grammar sets right fact)
    (set : ItemSet) :
    close grammar sets left = .ok set ↔ close grammar sets right = .ok set := by
  simp only [close_eq_ok_iff, same]

/-! ### Two lists together -/

theorem exists_close_append_iff :
    (∃ set, close grammar sets (left ++ right) = .ok set) ↔
      (∃ set, close grammar sets left = .ok set) ∧
        ∃ set, close grammar sets right = .ok set := by
  constructor
  · rintro ⟨set, closed⟩
    have unblocked := (close_eq_ok_iff.1 closed).1
    refine ⟨exists_close fun core name reaches => ?_, exists_close fun core name reaches => ?_⟩
    · exact unblocked core name (reaches_append.2 (.inl reaches))
    · exact unblocked core name (reaches_append.2 (.inr reaches))
  · rintro ⟨⟨leftSet, leftClosed⟩, rightSet, rightClosed⟩
    refine exists_close fun core name reaches => ?_
    rcases reaches_append.1 reaches with ofLeft | ofRight
    · exact (close_eq_ok_iff.1 leftClosed).1 core name ofLeft
    · exact (close_eq_ok_iff.1 rightClosed).1 core name ofRight

theorem close_append {leftSet rightSet : ItemSet}
    (leftClosed : close grammar sets left = .ok leftSet)
    (rightClosed : close grammar sets right = .ok rightSet) :
    close grammar sets (left ++ right) = .ok (.ofList (leftSet.items ++ rightSet.items)) := by
  obtain ⟨set, closed⟩ := exists_close_append_iff.2 ⟨⟨_, leftClosed⟩, _, rightClosed⟩
  rw [closed]
  refine congrArg Except.ok (ItemSet.ext_records fun fact => ?_)
  calc set.Records fact
      ↔ Reaches grammar sets left fact ∨ Reaches grammar sets right fact :=
        (records_close closed fact).trans reaches_append
    _ ↔ leftSet.Records fact ∨ rightSet.Records fact := by
        rw [records_close leftClosed, records_close rightClosed]
    _ ↔ ∃ item ∈ leftSet.items ++ rightSet.items, item.Records fact := by
        simp only [List.mem_append, or_and_right, exists_or]
        rfl
    _ ↔ (ItemSet.ofList (leftSet.items ++ rightSet.items)).Records fact :=
        ItemSet.records_ofList.symm

end Closure

open Closure

/-- Closing is an additive closure operator. Two lists of seeds close together exactly if each
of them closes, to the union of the closures; so neither the order of the seeds nor their
repetition matters for the result. The items of a closure close to that very closure. -/
theorem close_additive (grammar : Grammar) (sets : Sets) :
    (∀ left right : List Item,
      (∃ set, close grammar sets (left ++ right) = .ok set) ↔
        (∃ set, close grammar sets left = .ok set) ∧
          ∃ set, close grammar sets right = .ok set) ∧
      (∀ (left right : List Item) (leftSet rightSet : ItemSet),
        close grammar sets left = .ok leftSet → close grammar sets right = .ok rightSet →
          close grammar sets (left ++ right) = .ok (.ofList (leftSet.items ++ rightSet.items))) ∧
      (∀ left right : List Item, (∀ seed, seed ∈ left ↔ seed ∈ right) →
        (close grammar sets left).toOption = (close grammar sets right).toOption) ∧
      ∀ (seeds : List Item) (set : ItemSet),
        close grammar sets seeds = .ok set → close grammar sets set.items = .ok set := by
  refine ⟨fun _ _ => exists_close_append_iff, fun _ _ _ _ => close_append, ?_, ?_⟩
  · intro left right sameSeeds
    have same : ∀ fact, Reaches grammar sets left fact ↔ Reaches grammar sets right fact := by
      simp only [Reaches, sameSeeds, implies_true]
    ext set
    rw [toOption_eq_some, toOption_eq_some]
    exact close_eq_ok_congr same set
  · intro seeds set closed
    exact (close_eq_ok_congr (fun _ => reaches_items_iff closed) set).2 closed

/-- A summand that is called for and given as a seed: its lookaheads are united. -/
theorem close_additive_sums :
    ∃ (start summand : Item) (leftSet rightSet set : ItemSet),
      close .sums (.ofGrammar .sums) [start] = .ok leftSet ∧
      close .sums (.ofGrammar .sums) [summand] = .ok rightSet ∧
      close .sums (.ofGrammar .sums) ([start] ++ [summand]) =
        .ok (.ofList (leftSet.items ++ rightSet.items)) ∧
      (close .sums (.ofGrammar .sums) [summand, start, summand]).toOption = some set ∧
      set.items.map (fun item => (item.production, item.lookahead.names)) =
        [(0, ["eof"]), (1, ["+", "eof"]), (2, ["+", "eof", "z"])] ∧
      close .sums (.ofGrammar .sums) set.items = .ok set := by
  let start : Item := ⟨⟨0, "S", [.nonterminal "E"], 0⟩, {"eof"}⟩
  let summand : Item := ⟨⟨2, "E", [.terminal "n"], 0⟩, {"z"}⟩
  have ⟨together, united, sameSeeds, idempotent⟩ := close_additive .sums (.ofGrammar .sums)
  have computed : (close .sums (.ofGrammar .sums) ([start] ++ [summand])).toOption.map
      (fun set => set.items.map fun item => (item.production, item.lookahead.names)) =
        some [(0, ["eof"]), (1, ["+", "eof"]), (2, ["+", "eof", "z"])] := by
    decide +kernel
  obtain ⟨set, closed, shows⟩ := Option.map_eq_some_iff.1 computed
  obtain ⟨⟨leftSet, leftClosed⟩, rightSet, rightClosed⟩ :=
    (together [start] [summand]).1 ⟨set, toOption_eq_some.1 closed⟩
  have reordered := sameSeeds [summand, start, summand] ([start] ++ [summand])
    (by simp [or_comm, or_left_comm])
  exact ⟨start, summand, leftSet, rightSet, set, leftClosed, rightClosed,
    united _ _ _ _ leftClosed rightClosed, reordered.trans closed, shows,
    idempotent _ _ (toOption_eq_some.1 closed)⟩

end CanonicalLR
