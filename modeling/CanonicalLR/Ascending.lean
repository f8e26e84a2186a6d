/-!
Contract: lists whose entries stand in strictly ascending order of a key.

Owns:
- look-up and placement by key;
- the preservation of the order by placement;
- the law that look-up sees exactly the last placement, and the law that the
  members alone determine such a list.

Does not own: what the keys and entries mean.
-/

namespace CanonicalLR

variable {Entry Key : Type} [Ord Key]

/-- The keys increase strictly from left to right. -/
def Ascending (key : Entry → Key) (entries : List Entry) : Prop :=
  entries.Pairwise fun earlier later => compare (key earlier) (key later) = .lt

namespace Ascending

/-- The entry under `wanted`; the search ends at the first larger key. -/
def find? (key : Entry → Key) (wanted : Key) : List Entry → Option Entry
  | [] => none
  | head :: rest =>
      match compare wanted (key head) with
      | .lt => none
      | .eq => some head
      | .gt => find? key wanted rest

/-- Put `entry` at its place, in exchange for the entry of the same key. -/
def place (key : Entry → Key) (entry : Entry) : List Entry → List Entry
  | [] => [entry]
  | head :: rest =>
      match compare (key entry) (key head) with
      | .lt => entry :: head :: rest
      | .eq => entry :: rest
      | .gt => head :: place key entry rest

variable {key : Entry → Key}

theorem nil : Ascending key [] := List.Pairwise.nil

theorem singleton (entry : Entry) : Ascending key [entry] :=
  List.pairwise_singleton _ entry

theorem mem_of_mem_place {entry other : Entry} {entries : List Entry}
    (member : other ∈ place key entry entries) : other = entry ∨ other ∈ entries := by
  induction entries with
  | nil => simpa [place] using member
  | cons head rest inductionHypothesis =>
      unfold place at member
      split at member
      · simpa using member
      · rcases List.mem_cons.1 member with same | inRest
        · exact .inl same
        · exact .inr (List.mem_cons_of_mem head inRest)
      · rcases List.mem_cons.1 member with same | inRest
        · exact .inr (same ▸ List.mem_cons_self)
        · exact (inductionHypothesis inRest).imp_right (List.mem_cons_of_mem head)

variable [Std.TransOrd Key]

theorem place_ascending {entries : List Entry} (entry : Entry)
    (ascending : Ascending key entries) : Ascending key (place key entry entries) := by
  induction entries with
  | nil => exact singleton entry
  | cons head rest inductionHypothesis =>
      have ⟨headBelow, restAscending⟩ := List.pairwise_cons.1 ascending
      unfold place
      split
      case h_1 below =>
        refine List.pairwise_cons.2 ⟨fun other member => ?_, ascending⟩
        rcases List.mem_cons.1 member with same | inRest
        · exact same ▸ below
        · exact Std.TransCmp.lt_trans below (headBelow other inRest)
      case h_2 equal =>
        refine List.pairwise_cons.2 ⟨fun other member => ?_, restAscending⟩
        exact (Std.TransCmp.congr_left equal).trans (headBelow other member)
      case h_3 above =>
        refine List.pairwise_cons.2 ⟨fun other member => ?_, inductionHypothesis restAscending⟩
        rcases mem_of_mem_place member with same | inRest
        · exact same ▸ Std.OrientedCmp.lt_of_gt above
        · exact headBelow other inRest

/-- After a placement look-up finds the placed entry under its key and is
unchanged under every other key. -/
theorem find?_place (wanted : Key) (entry : Entry) (entries : List Entry) :
    find? key wanted (place key entry entries) =
      if compare wanted (key entry) = .eq then some entry else find? key wanted entries := by
  induction entries with
  | nil => cases order : compare wanted (key entry) <;> simp [place, find?, order]
  | cons head rest inductionHypothesis =>
      unfold place
      split
      case h_1 below =>
        cases order : compare wanted (key entry)
        · simp [find?, order, Std.TransCmp.lt_trans order below]
        · simp [find?, order]
        · simp [find?, order]
      case h_2 equal =>
        have same : compare wanted (key entry) = compare wanted (key head) :=
          Std.TransCmp.congr_right equal
        cases order : compare wanted (key entry) <;> simp [find?, order, ← same]
      case h_3 above =>
        by_cases same : compare wanted (key entry) = .eq
        · have beyond : compare wanted (key head) = .gt :=
            (Std.TransCmp.congr_left same).trans above
          simp [find?, beyond, inductionHypothesis, same]
        · cases order : compare wanted (key head) <;>
            simp [find?, order, inductionHypothesis, same]

omit [Std.TransOrd Key] in
theorem key_of_find? [Std.LawfulEqOrd Key] {wanted : Key} {entry : Entry} {entries : List Entry}
    (found : find? key wanted entries = some entry) : key entry = wanted := by
  induction entries with
  | nil => simp [find?] at found
  | cons head rest inductionHypothesis =>
      unfold find? at found
      split at found
      · simp at found
      case h_2 equal =>
        cases found
        exact (Std.LawfulEqOrd.eq_of_compare equal).symm
      · exact inductionHypothesis found

omit [Std.TransOrd Key] in
theorem mem_of_find? {wanted : Key} {entry : Entry} {entries : List Entry}
    (found : find? key wanted entries = some entry) : entry ∈ entries := by
  induction entries with
  | nil => simp [find?] at found
  | cons head rest inductionHypothesis =>
      unfold find? at found
      split at found
      · simp at found
      · cases found
        exact List.mem_cons_self
      · exact List.mem_cons_of_mem head (inductionHypothesis found)

theorem find?_of_mem {entry : Entry} {entries : List Entry}
    (ascending : Ascending key entries) (member : entry ∈ entries) :
    find? key (key entry) entries = some entry := by
  induction entries with
  | nil => simp at member
  | cons head rest inductionHypothesis =>
      have ⟨headBelow, restAscending⟩ := List.pairwise_cons.1 ascending
      rcases List.mem_cons.1 member with same | inRest
      · simp [find?, same]
      · have beyond : compare (key entry) (key head) = .gt :=
          Std.OrientedCmp.gt_of_lt (headBelow entry inRest)
        simp [find?, beyond, inductionHypothesis restAscending inRest]

/-- Look-up finds `entry` exactly when it is a member and stands under the
wanted key. -/
theorem find?_eq_some_iff [Std.LawfulEqOrd Key] {wanted : Key} {entry : Entry} {entries : List Entry}
    (ascending : Ascending key entries) :
    find? key wanted entries = some entry ↔ entry ∈ entries ∧ key entry = wanted :=
  ⟨fun found => ⟨mem_of_find? found, key_of_find? found⟩,
    fun ⟨member, same⟩ => same ▸ find?_of_mem ascending member⟩

/-- A placement takes the place of the entry under the same key and keeps all others. -/
theorem mem_place [Std.LawfulEqOrd Key] {entry other : Entry} {entries : List Entry}
    (ascending : Ascending key entries) :
    other ∈ place key entry entries ↔
      other = entry ∨ (other ∈ entries ∧ key other ≠ key entry) := by
  have found {candidates : List Entry} (ordered : Ascending key candidates) :
      other ∈ candidates ↔ find? key (key other) candidates = some other := by
    rw [find?_eq_some_iff ordered, and_iff_left rfl]
  rw [found (place_ascending entry ascending), found ascending, find?_place]
  by_cases same : key other = key entry
  · simp [same, eq_comm]
  · have different : other ≠ entry := fun equal => same (congrArg key equal)
    simp [same, different]

/-- The members determine an ascending list. -/
theorem ext {left right : List Entry} (leftAscending : Ascending key left)
    (rightAscending : Ascending key right)
    (sameMembers : ∀ entry, entry ∈ left ↔ entry ∈ right) : left = right := by
  induction left generalizing right with
  | nil =>
      cases right with
      | nil => rfl
      | cons head rest => exact absurd ((sameMembers head).2 List.mem_cons_self) (by simp)
  | cons leftHead leftRest inductionHypothesis =>
      have ⟨leftBelow, leftRestAscending⟩ := List.pairwise_cons.1 leftAscending
      cases right with
      | nil => exact absurd ((sameMembers leftHead).1 List.mem_cons_self) (by simp)
      | cons rightHead rightRest =>
          have ⟨rightBelow, rightRestAscending⟩ := List.pairwise_cons.1 rightAscending
          have sameHead : leftHead = rightHead := by
            rcases List.mem_cons.1 ((sameMembers leftHead).1 List.mem_cons_self) with
              same | inRight
            · exact same
            rcases List.mem_cons.1 ((sameMembers rightHead).2 List.mem_cons_self) with
              same | inLeft
            · exact same.symm
            have forward := rightBelow leftHead inRight
            have backward := leftBelow rightHead inLeft
            rw [Std.OrientedCmp.gt_of_lt forward] at backward
            contradiction
          subst sameHead
          congr 1
          refine inductionHypothesis leftRestAscending rightRestAscending fun entry => ?_
          have irreflexive : ∀ {entries : List Entry},
              (∀ other ∈ entries, compare (key leftHead) (key other) = .lt) →
                leftHead ∉ entries := by
            intro entries below member
            have selfBelow := below leftHead member
            rw [Std.ReflOrd.compare_self] at selfBelow
            contradiction
          have membership := sameMembers entry
          simp only [List.mem_cons] at membership
          constructor
          · intro inLeft
            rcases membership.1 (.inr inLeft) with same | inRight
            · exact absurd (same ▸ inLeft) (irreflexive leftBelow)
            · exact inRight
          · intro inRight
            rcases membership.2 (.inr inRight) with same | inLeft
            · exact absurd (same ▸ inRight) (irreflexive rightBelow)
            · exact inLeft

end Ascending

end CanonicalLR
