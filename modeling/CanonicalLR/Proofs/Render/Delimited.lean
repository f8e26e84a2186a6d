import Mathlib.Data.List.Basic

/-!
Contract: texts that can be told from what follows them.

Owns:
- the longest beginning of one sort of characters, and numbers;
- lists of texts up to an end that none of them begins with;
- separated lists, where only some characters may follow.

Does not own: which texts are rendered.
-/

namespace CanonicalLR

/-- The longest beginning of one sort can be told from what follows. -/
theorem append_inj_of_sort {sort : Char → Bool} {left right leftRest rightRest : List Char}
    (leftSort : ∀ character ∈ left, sort character = true)
    (rightSort : ∀ character ∈ right, sort character = true)
    (leftStops : ∀ character ∈ leftRest.head?, sort character = false)
    (rightStops : ∀ character ∈ rightRest.head?, sort character = false)
    (same : left ++ leftRest = right ++ rightRest) : left = right ∧ leftRest = rightRest := by
  have beginning : ∀ {front rest : List Char}, (∀ character ∈ front, sort character = true) →
      (∀ character ∈ rest.head?, sort character = false) →
      (front ++ rest).takeWhile sort = front := by
    intro front rest ofSort stops
    rw [List.takeWhile_append_of_pos ofSort]
    cases rest with
    | nil => exact List.append_nil front
    | cons character behind =>
        rw [List.takeWhile_cons, stops character rfl]
        exact List.append_nil front
  have sameFront : left = right := by
    rw [← beginning leftSort leftStops, same, beginning rightSort rightStops]
  subst sameFront
  exact ⟨rfl, List.append_cancel_left same⟩

/-- A list of parts can be told from an end that no part begins with, if the text of each part
can be told from what follows it in such lists. -/
theorem flatMap_append_inj {Part : Type} {text : Part → List Char} {valid : Part → Prop}
    {ends : List Char → Prop}
    (first : ∀ {left right : Part} {leftOthers rightOthers : List Part}
      {leftEnd rightEnd : List Char}, valid left → valid right → ends leftEnd → ends rightEnd →
      text left ++ (leftOthers.flatMap text ++ leftEnd) =
        text right ++ (rightOthers.flatMap text ++ rightEnd) →
      left = right ∧ leftOthers.flatMap text ++ leftEnd = rightOthers.flatMap text ++ rightEnd)
    (apart : ∀ part rest, ¬ ends (text part ++ rest)) {left right : List Part}
    {leftEnd rightEnd : List Char} (leftValid : ∀ part ∈ left, valid part)
    (rightValid : ∀ part ∈ right, valid part) (leftEnds : ends leftEnd) (rightEnds : ends rightEnd)
    (same : left.flatMap text ++ leftEnd = right.flatMap text ++ rightEnd) :
    left = right ∧ leftEnd = rightEnd := by
  induction left generalizing right with
  | nil =>
      cases right with
      | nil => exact ⟨rfl, same⟩
      | cons part others =>
          rw [List.flatMap_nil, List.nil_append, List.flatMap_cons, List.append_assoc] at same
          exact absurd (same ▸ leftEnds) (apart part _)
  | cons leftPart leftOthers inductionHypothesis =>
      cases right with
      | nil =>
          rw [List.flatMap_nil, List.nil_append, List.flatMap_cons, List.append_assoc] at same
          exact absurd (same ▸ rightEnds) (apart leftPart _)
      | cons rightPart rightOthers =>
          rw [List.forall_mem_cons] at leftValid rightValid
          rw [List.flatMap_cons, List.flatMap_cons, List.append_assoc, List.append_assoc] at same
          obtain ⟨rfl, sameOthers⟩ := first leftValid.1 rightValid.1 leftEnds rightEnds same
          obtain ⟨rfl, sameEnd⟩ := inductionHypothesis leftValid.2 rightValid.2 sameOthers
          exact ⟨rfl, sameEnd⟩

/-- A number ends with its last digit. -/
theorem toString_append_inj {left right : Nat} {leftRest rightRest : List Char}
    (leftStops : ∀ character ∈ leftRest.head?, character.isDigit = false)
    (rightStops : ∀ character ∈ rightRest.head?, character.isDigit = false)
    (same : (toString left).toList ++ leftRest = (toString right).toList ++ rightRest) :
    left = right ∧ leftRest = rightRest := by
  rw [Nat.toString_eq_repr, Nat.toString_eq_repr, Nat.toList_repr, Nat.toList_repr] at same
  have digits : ∀ (number : Nat), ∀ character ∈ Nat.toDigits 10 number,
      character.isDigit = true :=
    fun number character member => Nat.isDigit_of_mem_toDigits (by decide) (by decide) member
  obtain ⟨sameDigits, sameRest⟩ :=
    append_inj_of_sort (digits left) (digits right) leftStops rightStops same
  refine ⟨?_, sameRest⟩
  calc left
      = Nat.ofDigitChars 10 (Nat.toDigits 10 left) 0 :=
        (Nat.ofDigitChars_toDigits (by decide) (by decide)).symm
    _ = Nat.ofDigitChars 10 (Nat.toDigits 10 right) 0 := by rw [sameDigits]
    _ = right := Nat.ofDigitChars_toDigits (by decide) (by decide)

/-- A separated list is its first text with the further ones behind. -/
theorem toList_intercalate_cons {Part : Type} (separator : String) (text : Part → String)
    (first : Part) (others : List Part) :
    (separator.intercalate ((first :: others).map text)).toList =
      (text first).toList ++
        others.flatMap fun part => separator.toList ++ (text part).toList := by
  induction others generalizing first with
  | nil => simp
  | cons next rest inductionHypothesis =>
      rw [List.map_cons, List.map_cons, String.intercalate_cons_cons, ← List.map_cons,
        String.toList_append, String.toList_append, inductionHypothesis, List.flatMap_cons,
        List.append_assoc, List.append_assoc]

/-! ### Where anything may follow -/

/-- The text of a part can be told from whatever follows it. -/
structure SelfDelimited {Part : Type} (text : Part → List Char) : Prop where
  inj : ∀ {left right : Part} {leftRest rightRest : List Char},
    text left ++ leftRest = text right ++ rightRest → left = right ∧ leftRest = rightRest

namespace SelfDelimited

variable {Part : Type} {text : Part → List Char}

/-- It is enough that a reader finds the part and leaves what follows. -/
theorem of_read (read : List Char → Option (Part × List Char))
    (reads : ∀ part rest, read (text part ++ rest) = some (part, rest)) : SelfDelimited text := by
  refine ⟨fun {left right leftRest rightRest} same => ?_⟩
  have sameRead : some (left, leftRest) = some (right, rightRest) := by
    rw [← reads, same, reads]
  exact Prod.mk.inj (Option.some.inj sameRead)

/-- Text in front of each part changes nothing. -/
theorem behind (delimited : SelfDelimited text) (front : List Char) :
    SelfDelimited fun part => front ++ text part := by
  refine ⟨fun same => ?_⟩
  rw [List.append_assoc, List.append_assoc] at same
  exact delimited.inj (List.append_cancel_left same)

/-- A list of parts can be told from an end that no part begins with. -/
theorem flatMap_inj (delimited : SelfDelimited text) {ends : List Char → Prop}
    (apart : ∀ part rest, ¬ ends (text part ++ rest)) {left right : List Part}
    {leftEnd rightEnd : List Char} (leftEnds : ends leftEnd) (rightEnds : ends rightEnd)
    (same : left.flatMap text ++ leftEnd = right.flatMap text ++ rightEnd) :
    left = right ∧ leftEnd = rightEnd :=
  @flatMap_append_inj Part text (fun _ => True) ends (fun _ _ _ _ => delimited.inj) apart _ _ _ _
    (fun _ _ => trivial) (fun _ _ => trivial) leftEnds rightEnds same

/-- A list of parts ends at a character that no part begins with. -/
theorem flatMap_inj_of_mark (delimited : SelfDelimited text) {mark : Char}
    (apart : ∀ part rest, (text part ++ rest).head? ≠ some mark) {left right : List Part}
    {leftRest rightRest : List Char} (leftMark : leftRest.head? = some mark)
    (rightMark : rightRest.head? = some mark)
    (same : left.flatMap text ++ leftRest = right.flatMap text ++ rightRest) :
    left = right ∧ leftRest = rightRest :=
  @flatMap_inj Part text delimited (fun rest => rest.head? = some mark) apart _ _ _ _ leftMark
    rightMark same

/-- So can a separated list, from an end that neither a part nor the separator with a part
begins with. -/
theorem intercalate_inj {text : Part → String} {separator : String} {ends : List Char → Prop}
    (delimited : SelfDelimited fun part => (text part).toList)
    (apart : ∀ part rest, ¬ ends ((text part).toList ++ rest))
    (apartBehind : ∀ part rest, ¬ ends (separator.toList ++ (text part).toList ++ rest))
    {left right : List Part} {leftEnd rightEnd : List Char} (leftEnds : ends leftEnd)
    (rightEnds : ends rightEnd)
    (same : (separator.intercalate (left.map text)).toList ++ leftEnd =
      (separator.intercalate (right.map text)).toList ++ rightEnd) :
    left = right ∧ leftEnd = rightEnd := by
  cases left with
  | nil =>
      cases right with
      | nil => exact ⟨rfl, same⟩
      | cons part others =>
          rw [toList_intercalate_cons, List.append_assoc] at same
          change leftEnd = _ at same
          exact absurd (same ▸ leftEnds) (apart part _)
  | cons leftPart leftOthers =>
      rw [toList_intercalate_cons, List.append_assoc] at same
      cases right with
      | nil =>
          change _ = rightEnd at same
          exact absurd (same ▸ rightEnds) (apart leftPart _)
      | cons rightPart rightOthers =>
          rw [toList_intercalate_cons, List.append_assoc] at same
          obtain ⟨rfl, sameOthers⟩ := delimited.inj same
          obtain ⟨rfl, sameEnd⟩ :=
            (delimited.behind separator.toList).flatMap_inj apartBehind leftEnds rightEnds
              sameOthers
          exact ⟨rfl, sameEnd⟩

end SelfDelimited

/-! ### Where only some characters may follow -/

/-- Nothing follows, or one of the characters `stops` does. -/
def Stops (stops rest : List Char) : Prop :=
  ∀ character ∈ rest.head?, character ∈ stops

theorem not_stops_cons {stops : List Char} {first : Char} (apart : first ∉ stops)
    (rest : List Char) : ¬ Stops stops (first :: rest) :=
  fun isEnd => apart (isEnd first rfl)

/-- Where nothing but `stops` follows, the text of a part can be told from what follows. -/
structure Delimited {Part : Type} (text : Part → List Char) (valid : Part → Prop)
    (stops : List Char) : Prop where
  inj : ∀ {left right : Part} {leftRest rightRest : List Char}, valid left → valid right →
    Stops stops leftRest → Stops stops rightRest →
    text left ++ leftRest = text right ++ rightRest → left = right ∧ leftRest = rightRest

namespace Delimited

variable {Part : Type} {text : Part → List Char} {valid : Part → Prop} {mark : Char}
  {separator stops : List Char}

private theorem stops_behind {leftRest : List Char} {parts : List Part}
    (leftStops : Stops stops leftRest) :
    Stops (mark :: stops)
      ((parts.flatMap fun part => mark :: separator ++ text part) ++ leftRest) := by
  cases parts with
  | nil => exact fun character isFirst => List.mem_cons_of_mem mark (leftStops character isFirst)
  | cons part others =>
      intro character isFirst
      cases isFirst
      exact List.mem_cons_self

/-- Further parts, each with the separator in front, can be told from what follows. -/
theorem behind (delimited : Delimited text valid (mark :: stops)) (apart : mark ∉ stops) :
    Delimited (fun parts : List Part => parts.flatMap fun part => mark :: separator ++ text part)
      (fun parts => ∀ part ∈ parts, valid part) stops := by
  refine ⟨fun leftValid rightValid leftStops rightStops same => ?_⟩
  refine flatMap_append_inj ?_ (fun _ _ => not_stops_cons apart _) leftValid rightValid leftStops
    rightStops same
  intro left right leftOthers rightOthers leftEnd rightEnd leftPart rightPart leftEnds rightEnds
    sameParts
  simp only [List.append_assoc, List.cons_append] at sameParts
  exact delimited.inj leftPart rightPart (stops_behind leftEnds) (stops_behind rightEnds)
    (List.append_cancel_left (List.cons.inj sameParts).2)

end Delimited

namespace Delimited

variable {Part : Type} {text : Part → String} {valid : Part → Prop} {mark : Char}
  {separator : String} {behindMark stops : List Char}

/-- Separated lists of at least one part can be told from what follows. -/
theorem intercalate (isSeparator : separator.toList = mark :: behindMark)
    (delimited : Delimited (fun part => (text part).toList) valid (mark :: stops))
    (apart : mark ∉ stops) :
    Delimited (fun parts : List Part => (separator.intercalate (parts.map text)).toList)
      (fun parts => parts ≠ [] ∧ ∀ part ∈ parts, valid part) stops := by
  refine ⟨?_⟩
  rintro left right leftRest rightRest ⟨someLeft, leftValid⟩ ⟨someRight, rightValid⟩ leftStops
    rightStops same
  obtain ⟨leftPart, leftOthers, rfl⟩ := List.exists_cons_of_ne_nil someLeft
  obtain ⟨rightPart, rightOthers, rfl⟩ := List.exists_cons_of_ne_nil someRight
  rw [List.forall_mem_cons] at leftValid rightValid
  simp only [toList_intercalate_cons, isSeparator, List.append_assoc] at same
  obtain ⟨rfl, sameRest⟩ := delimited.inj leftValid.1 rightValid.1
    (stops_behind leftStops) (stops_behind rightStops) same
  obtain ⟨rfl, sameEnd⟩ := (delimited.behind apart).inj leftValid.2 rightValid.2 leftStops
    rightStops sameRest
  exact ⟨rfl, sameEnd⟩

/-- So can lists that may be empty, if no part begins with what may follow. -/
theorem intercalate_of_begins (isSeparator : separator.toList = mark :: behindMark)
    (delimited : Delimited (fun part => (text part).toList) valid (mark :: stops))
    (apart : mark ∉ stops)
    (begins : ∀ part, ∃ first rest, (text part).toList = first :: rest ∧ first ∉ stops) :
    Delimited (fun parts : List Part => (separator.intercalate (parts.map text)).toList)
      (fun parts => ∀ part ∈ parts, valid part) stops := by
  have notStops : ∀ (part : Part) (others : List Part) (rest : List Char),
      ¬ Stops stops ((separator.intercalate ((part :: others).map text)).toList ++ rest) := by
    intro part others rest isEnd
    obtain ⟨first, behind, isText, notStop⟩ := begins part
    rw [toList_intercalate_cons, isText] at isEnd
    exact not_stops_cons notStop _ isEnd
  refine ⟨fun {left right leftRest rightRest} leftValid rightValid leftStops rightStops same => ?_⟩
  cases left with
  | nil =>
      cases right with
      | nil => exact ⟨rfl, same⟩
      | cons part others => exact absurd (same ▸ leftStops) (notStops part others rightRest)
  | cons leftPart leftOthers =>
      cases right with
      | nil => exact absurd (same ▸ rightStops) (notStops leftPart leftOthers leftRest)
      | cons rightPart rightOthers =>
          exact (intercalate isSeparator delimited apart).inj
            ⟨List.cons_ne_nil _ _, leftValid⟩ ⟨List.cons_ne_nil _ _, rightValid⟩ leftStops
            rightStops same

end Delimited

end CanonicalLR
