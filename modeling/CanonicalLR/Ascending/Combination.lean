import CanonicalLR.Ascending

/-!
Contract: union and difference of ascending lists of keys.

Owns:
- both operations as one walk through the two lists;
- their members, and the preservation of the order.

Does not own: lists whose entries carry more than their key.

Each walk is a recursion on the left list; within it, the entries of the right
list up to the head of the left one are a recursion on the right list.
-/

namespace CanonicalLR.Ascending

variable {Key : Type} [Ord Key]

/-- The union of `head :: tail` with a list, where `rest` unites `tail` with
another list. -/
def uniteHead (head : Key) (rest : List Key → List Key) : List Key → List Key
  | [] => head :: rest []
  | other :: others =>
      match compare head other with
      | .lt => head :: rest (other :: others)
      | .eq => head :: rest others
      | .gt => other :: uniteHead head rest others

def unite : List Key → List Key → List Key
  | [], right => right
  | head :: tail, right => uniteHead head (unite tail) right

/-- The members of `head :: tail` that a list lacks, where `rest` takes a list
from `tail`. -/
def subtractFromHead (head : Key) (rest : List Key → List Key) : List Key → List Key
  | [] => head :: rest []
  | other :: others =>
      match compare head other with
      | .lt => head :: rest (other :: others)
      | .eq => rest others
      | .gt => subtractFromHead head rest others

def subtract : List Key → List Key → List Key
  | [], _ => []
  | head :: tail, right => subtractFromHead head (subtract tail) right

theorem subtract_sublist (left right : List Key) : (subtract left right).Sublist left := by
  induction left generalizing right with
  | nil => exact List.Sublist.slnil
  | cons head tail inductionHypothesis =>
      unfold subtract
      induction right with
      | nil => exact (inductionHypothesis []).cons_cons head
      | cons other others walk =>
          unfold subtractFromHead
          split
          · exact (inductionHypothesis (other :: others)).cons_cons head
          · exact (inductionHypothesis others).cons head
          · exact walk

theorem subtract_ascending {left : List Key} (right : List Key)
    (ascending : Ascending id left) : Ascending id (subtract left right) :=
  List.Pairwise.sublist (subtract_sublist left right) ascending

variable [Std.LawfulEqOrd Key]

theorem mem_uniteHead {head key : Key} {tail : List Key} {rest : List Key → List Key}
    (mem_rest : ∀ right, key ∈ rest right ↔ key ∈ tail ∨ key ∈ right) (right : List Key) :
    key ∈ uniteHead head rest right ↔ key ∈ head :: tail ∨ key ∈ right := by
  induction right with
  | nil => simp [uniteHead, mem_rest]
  | cons other others inductionHypothesis =>
      unfold uniteHead
      split
      · simp only [List.mem_cons, mem_rest, or_assoc]
      case h_2 equal =>
        have same := Std.LawfulEqOrd.eq_of_compare equal
        subst same
        simp only [List.mem_cons, mem_rest]
        constructor
        · rintro (same | inTail | inOthers)
          · exact .inl (.inl same)
          · exact .inl (.inr inTail)
          · exact .inr (.inr inOthers)
        · rintro ((same | inTail) | (same | inOthers))
          · exact .inl same
          · exact .inr (.inl inTail)
          · exact .inl same
          · exact .inr (.inr inOthers)
      · rw [List.mem_cons, inductionHypothesis, List.mem_cons (l := others), or_left_comm]

theorem mem_unite {key : Key} {left right : List Key} :
    key ∈ unite left right ↔ key ∈ left ∨ key ∈ right := by
  induction left generalizing right with
  | nil => simp [unite]
  | cons head tail inductionHypothesis =>
      exact mem_uniteHead (fun _ => inductionHypothesis) right

variable [Std.TransOrd Key]

theorem unite_ascending {left right : List Key} (leftAscending : Ascending id left)
    (rightAscending : Ascending id right) : Ascending id (unite left right) := by
  induction left generalizing right with
  | nil => exact rightAscending
  | cons head tail inductionHypothesis =>
      have ⟨headBelow, tailAscending⟩ := List.pairwise_cons.1 leftAscending
      unfold unite
      induction right with
      | nil =>
          refine List.pairwise_cons.2 ⟨fun key member => ?_, inductionHypothesis tailAscending nil⟩
          exact headBelow key (by simpa [mem_unite] using member)
      | cons other others walk =>
          have ⟨otherBelow, othersAscending⟩ := List.pairwise_cons.1 rightAscending
          unfold uniteHead
          split
          case h_1 below =>
            refine List.pairwise_cons.2
              ⟨fun key member => ?_, inductionHypothesis tailAscending rightAscending⟩
            rcases mem_unite.1 member with inTail | inRight
            · exact headBelow key inTail
            rcases List.mem_cons.1 inRight with same | inOthers
            · exact same ▸ below
            · exact Std.TransCmp.lt_trans below (otherBelow key inOthers)
          case h_2 equal =>
            have same := Std.LawfulEqOrd.eq_of_compare equal
            subst same
            refine List.pairwise_cons.2
              ⟨fun key member => ?_, inductionHypothesis tailAscending othersAscending⟩
            exact (mem_unite.1 member).elim (headBelow key) (otherBelow key)
          case h_3 above =>
            refine List.pairwise_cons.2 ⟨fun key member => ?_, walk othersAscending⟩
            have below : compare other head = .lt := Std.OrientedCmp.lt_of_gt above
            rcases (mem_uniteHead (fun _ => mem_unite) others).1 member with inLeft | inOthers
            · rcases List.mem_cons.1 inLeft with same | inTail
              · exact same ▸ below
              · exact Std.TransCmp.lt_trans below (headBelow key inTail)
            · exact otherBelow key inOthers

/-- A smaller key is no member of an ascending list. -/
theorem not_mem_of_lt_head {key head : Key} {tail : List Key}
    (ascending : Ascending id (head :: tail)) (below : compare key head = .lt) :
    key ∉ head :: tail := by
  have irreflexive : compare key key ≠ .lt := by
    rw [Std.ReflOrd.compare_self]
    decide
  intro member
  rcases List.mem_cons.1 member with same | inTail
  · exact irreflexive (same ▸ below)
  · exact irreflexive
      (Std.TransCmp.lt_trans below ((List.pairwise_cons.1 ascending).1 key inTail))

theorem mem_subtract {key : Key} {left right : List Key} (leftAscending : Ascending id left)
    (rightAscending : Ascending id right) :
    key ∈ subtract left right ↔ key ∈ left ∧ key ∉ right := by
  induction left generalizing right with
  | nil => simp [subtract]
  | cons head tail inductionHypothesis =>
      have ⟨headBelow, tailAscending⟩ := List.pairwise_cons.1 leftAscending
      unfold subtract
      induction right with
      | nil => simp [subtractFromHead, inductionHypothesis tailAscending nil]
      | cons other others walk =>
          have ⟨otherBelow, othersAscending⟩ := List.pairwise_cons.1 rightAscending
          unfold subtractFromHead
          split
          case h_1 below =>
            rw [List.mem_cons, inductionHypothesis tailAscending rightAscending]
            have lacksHead := not_mem_of_lt_head rightAscending below
            constructor
            · rintro (same | ⟨inTail, lacks⟩)
              · exact ⟨same ▸ List.mem_cons_self, same ▸ lacksHead⟩
              · exact ⟨List.mem_cons_of_mem head inTail, lacks⟩
            · rintro ⟨inLeft, lacks⟩
              exact (List.mem_cons.1 inLeft).imp_right fun inTail => ⟨inTail, lacks⟩
          case h_2 equal =>
            have same := Std.LawfulEqOrd.eq_of_compare equal
            subst same
            rw [inductionHypothesis tailAscending othersAscending]
            constructor
            · rintro ⟨inTail, lacks⟩
              refine ⟨List.mem_cons_of_mem head inTail, fun inRight => ?_⟩
              rcases List.mem_cons.1 inRight with same | inOthers
              · subst same
                exact not_mem_of_lt_head (List.pairwise_cons.2 ⟨headBelow, tailAscending⟩)
                  (headBelow key inTail) List.mem_cons_self
              · exact lacks inOthers
            · rintro ⟨inLeft, lacks⟩
              rw [List.mem_cons, not_or] at lacks
              exact ⟨(List.mem_cons.1 inLeft).resolve_left lacks.1, lacks.2⟩
          case h_3 above =>
            refine (walk othersAscending).trans ?_
            have below : compare other head = .lt := Std.OrientedCmp.lt_of_gt above
            have lacksOther := not_mem_of_lt_head leftAscending below
            constructor
            · rintro ⟨inLeft, lacks⟩
              refine ⟨inLeft, fun inRight => ?_⟩
              rcases List.mem_cons.1 inRight with same | inOthers
              · exact lacksOther (same ▸ inLeft)
              · exact lacks inOthers
            · rintro ⟨inLeft, lacks⟩
              exact ⟨inLeft, fun inOthers => lacks (List.mem_cons_of_mem other inOthers)⟩

end CanonicalLR.Ascending
