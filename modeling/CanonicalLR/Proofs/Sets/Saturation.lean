import CanonicalLR.Sets
import Mathlib.Data.Finset.Card
import Mathlib.Data.Finset.Prod

/-!
Contract: passes over equations between families of sets.

Owns:
- systems of equations, each of which makes one set contain what others hold;
- one pass over a system: what it adds, and that it solves when it adds nothing;
- repeated passes: enough of them end in a solution, the solution holds nothing that the
  equations do not call for, and a further pass leaves it as it is.

Does not own: the equations of a grammar.
-/

namespace CanonicalLR

/-- The set under `target` is to contain what `value` reads off the family. -/
structure SetEquation where
  target : String
  value : (String → NameSet) → NameSet

namespace SetEquation

/-- Members that satisfy `allowed` everywhere make the equation ask for such
members only. -/
def Keeps (equation : SetEquation) (allowed : String → String → Prop) : Prop :=
  ∀ sets : String → NameSet, (∀ name, ∀ member ∈ sets name, allowed name member) →
    ∀ member ∈ equation.value sets, allowed equation.target member

def SolvedBy (equation : SetEquation) (sets : String → NameSet) : Prop :=
  ∀ member ∈ equation.value sets, member ∈ sets equation.target

/-- Add what the equations call for, one after the other. -/
def addAll (equations : List SetEquation) (growth : Growth) : Growth :=
  equations.foldl
    (fun growth equation => growth.add equation.target (equation.value growth.sets.setOf)) growth

/-- One pass over the equations, in their order. -/
def pass (equations : List SetEquation) (sets : NameMap NameSet) : Growth :=
  addAll equations ⟨sets, false⟩

end SetEquation

/-! ### A single addition -/

namespace Growth

theorem mem_add {growth : Growth} {name other member : String} {additions : NameSet} :
    member ∈ (growth.add name additions).sets.setOf other ↔
      member ∈ growth.sets.setOf other ∨ other = name ∧ member ∈ additions := by
  unfold add
  simp only
  split
  case isTrue nothing =>
    have present : member ∈ additions → member ∈ growth.sets.setOf name := by
      have := NameSet.isEmpty_iff.1 nothing member
      simp only [NameSet.mem_sdiff, not_and, Decidable.not_not] at this
      exact this
    by_cases same : other = name
    · subst same
      simp only [NameMap.setOf, NameMap.get?_insert, if_true, Option.getD_some, true_and]
      exact ⟨.inl, fun either => either.elim id present⟩
    · simp [NameMap.setOf, same]
  case isFalse =>
    by_cases same : other = name
    · subst same
      simp only [NameMap.setOf, NameMap.get?_insert, if_true, Option.getD_some, NameSet.mem_union,
        NameSet.mem_sdiff, true_and]
      by_cases present : member ∈ (growth.sets.get? other).getD ∅ <;> simp [present]
    · simp [NameMap.setOf, same]

theorem grew_add {growth : Growth} {name : String} {additions : NameSet} :
    (growth.add name additions).grew = true ↔
      growth.grew = true ∨ ∃ member ∈ additions, member ∉ growth.sets.setOf name := by
  unfold add
  simp only
  split
  case isTrue nothing =>
    rw [NameSet.isEmpty_iff] at nothing
    simp only [NameSet.mem_sdiff] at nothing
    constructor
    · exact .inl
    · rintro (grew | ⟨member, added, missing⟩)
      · exact grew
      · exact absurd ⟨added, missing⟩ (nothing member)
  case isFalse something =>
    rw [NameSet.isEmpty_iff] at something
    push Not at something
    obtain ⟨member, missing⟩ := something
    rw [NameSet.mem_sdiff] at missing
    exact ⟨fun _ => .inr ⟨member, missing⟩, fun _ => rfl⟩

theorem isSome_get?_add {growth : Growth} {name other : String} {additions : NameSet} :
    ((growth.add name additions).sets.get? other).isSome = true ↔
      other = name ∨ (growth.sets.get? other).isSome = true := by
  unfold add
  simp only
  split <;> by_cases same : other = name <;> simp [same]

/-- To add nothing new under a name that has an entry changes nothing. -/
theorem add_eq_self {growth : Growth} {name : String} {additions : NameSet}
    (entry : (growth.sets.get? name).isSome = true)
    (present : ∀ member ∈ additions, member ∈ growth.sets.setOf name) :
    growth.add name additions = growth := by
  have nothing : (additions \ growth.sets.setOf name).isEmpty = true := by
    rw [NameSet.isEmpty_iff]
    intro member missing
    have ⟨added, absent⟩ := NameSet.mem_sdiff.1 missing
    exact absent (present member added)
  have sameSets : growth.sets.insert name (growth.sets.setOf name) = growth.sets := by
    obtain ⟨set, found⟩ := Option.isSome_iff_exists.1 entry
    ext other : 1
    rw [NameMap.get?_insert, NameMap.setOf, found, Option.getD_some]
    split
    case isTrue same => rw [same, found]
    case isFalse => rfl
  unfold add
  simp only [nothing, if_true, sameSets]

end Growth

/-! ### One pass -/

namespace SetEquation

variable {equations : List SetEquation} {sets : NameMap NameSet}

/-- A pass adds members and takes none away. -/
private theorem mem_addAll {growth : Growth} {name member : String}
    (present : member ∈ growth.sets.setOf name) :
    member ∈ (addAll equations growth).sets.setOf name := by
  induction equations generalizing growth with
  | nil => exact present
  | cons equation rest inductionHypothesis =>
      exact inductionHypothesis (Growth.mem_add.2 (.inl present))

theorem mem_pass {name member : String} (present : member ∈ sets.setOf name) :
    member ∈ (pass equations sets).sets.setOf name :=
  mem_addAll present

private theorem grew_addAll {growth : Growth}
    (grew : (addAll equations growth).grew = true) :
    growth.grew = true ∨ ∃ name member, member ∉ growth.sets.setOf name ∧
      member ∈ (addAll equations growth).sets.setOf name := by
  induction equations generalizing growth with
  | nil => exact .inl grew
  | cons equation rest inductionHypothesis =>
      rcases inductionHypothesis grew with grewHere | ⟨name, member, missing, added⟩
      · rcases Growth.grew_add.1 grewHere with before | ⟨member, asked, missing⟩
        · exact .inl before
        · have added : member ∈ (addAll rest
              (growth.add equation.target (equation.value growth.sets.setOf))).sets.setOf
                equation.target :=
            mem_addAll (Growth.mem_add.2 (.inr ⟨rfl, asked⟩))
          exact .inr ⟨equation.target, member, missing, added⟩
      · exact .inr ⟨name, member, fun present => missing (Growth.mem_add.2 (.inl present)), added⟩

/-- A pass that reports growth has added a member somewhere. -/
theorem exists_added_of_grew (grew : (pass equations sets).grew = true) :
    ∃ name member, member ∉ sets.setOf name ∧ member ∈ (pass equations sets).sets.setOf name := by
  rcases grew_addAll grew with impossible | added
  · contradiction
  · exact added

private theorem solved_addAll {growth : Growth}
    (still : (addAll equations growth).grew = false) :
    growth.grew = false ∧
      (addAll equations growth).sets.setOf = growth.sets.setOf ∧
      ∀ equation ∈ equations, equation.SolvedBy growth.sets.setOf := by
  induction equations generalizing growth with
  | nil => exact ⟨still, rfl, by simp⟩
  | cons equation rest inductionHypothesis =>
      obtain ⟨stillHere, sameRest, solvedRest⟩ := inductionHypothesis still
      rw [← Bool.not_eq_true, Growth.grew_add, not_or, Bool.not_eq_true] at stillHere
      have solved : equation.SolvedBy growth.sets.setOf := by
        intro member asked
        by_contra missing
        exact stillHere.2 ⟨member, asked, missing⟩
      have same : (growth.add equation.target (equation.value growth.sets.setOf)).sets.setOf =
          growth.sets.setOf := by
        funext name
        ext member
        rw [Growth.mem_add]
        constructor
        · rintro (present | ⟨rfl, asked⟩)
          · exact present
          · exact solved member asked
        · exact .inl
      rw [same] at sameRest solvedRest
      refine ⟨stillHere.1, sameRest, fun other member => ?_⟩
      rcases List.mem_cons.1 member with rfl | inRest
      · exact solved
      · exact solvedRest other inRest

private theorem isSome_get?_addAll {growth : Growth} {name : String}
    (entry : (growth.sets.get? name).isSome = true ∨
      ∃ equation ∈ equations, equation.target = name) :
    ((addAll equations growth).sets.get? name).isSome = true := by
  induction equations generalizing growth with
  | nil => exact entry.resolve_right (by simp)
  | cons equation rest inductionHypothesis =>
      apply inductionHypothesis
      rw [Growth.isSome_get?_add]
      rcases entry with before | ⟨other, member, rfl⟩
      · exact .inl (.inr before)
      · rcases List.mem_cons.1 member with rfl | inRest
        · exact .inl (.inl rfl)
        · exact .inr ⟨other, inRest, rfl⟩

private theorem addAll_eq_self {growth : Growth}
    (entries : ∀ equation ∈ equations, (growth.sets.get? equation.target).isSome = true)
    (solved : ∀ equation ∈ equations, equation.SolvedBy growth.sets.setOf) :
    addAll equations growth = growth := by
  induction equations with
  | nil => rfl
  | cons equation rest inductionHypothesis =>
      rw [List.forall_mem_cons] at entries solved
      have same : growth.add equation.target (equation.value growth.sets.setOf) = growth :=
        Growth.add_eq_self entries.1 solved.1
      rw [addAll, List.foldl_cons, same]
      exact inductionHypothesis entries.2 solved.2

/-- A pass that reports no growth has changed no set, and every equation holds. -/
theorem solved_of_not_grew (still : (pass equations sets).grew = false) :
    (pass equations sets).sets.setOf = sets.setOf ∧
      ∀ equation ∈ equations, equation.SolvedBy sets.setOf :=
  (solved_addAll still).2

/-- After a pass that reports no growth, a further one reports none and changes nothing: the
last one has made the entries that were missing. -/
theorem pass_eq_self_of_not_grew (still : (pass equations sets).grew = false) :
    pass equations (pass equations sets).sets = ⟨(pass equations sets).sets, false⟩ := by
  obtain ⟨sameSets, solved⟩ := solved_of_not_grew still
  apply addAll_eq_self
  · exact fun equation member => isSome_get?_addAll (.inr ⟨equation, member, rfl⟩)
  · rw [sameSets]
    exact solved

private theorem allowed_addAll {allowed : String → String → Prop} {growth : Growth}
    (keeps : ∀ equation ∈ equations, equation.Keeps allowed)
    (initially : ∀ name, ∀ member ∈ growth.sets.setOf name, allowed name member) :
    ∀ name, ∀ member ∈ (addAll equations growth).sets.setOf name, allowed name member := by
  induction equations generalizing growth with
  | nil => exact initially
  | cons equation rest inductionHypothesis =>
      apply inductionHypothesis
      · intro other inRest
        exact keeps other (List.mem_cons_of_mem equation inRest)
      · intro name member present
        rcases Growth.mem_add.1 present with before | ⟨rfl, asked⟩
        · exact initially name member before
        · exact keeps equation List.mem_cons_self _ initially member asked

/-- A pass adds only what the equations call for. -/
theorem allowed_pass {allowed : String → String → Prop}
    (keeps : ∀ equation ∈ equations, equation.Keeps allowed)
    (initially : ∀ name, ∀ member ∈ sets.setOf name, allowed name member) :
    ∀ name, ∀ member ∈ (pass equations sets).sets.setOf name, allowed name member :=
  allowed_addAll keeps initially

/-! ### Repeated passes -/

end SetEquation

/-- Passes are repeated until one adds nothing: the sets that they come to when nothing limits
them, and the number of passes. -/
inductive Settles (pass : NameMap NameSet → Growth) :
    NameMap NameSet → NameMap NameSet × Nat → Prop where
  | still {sets : NameMap NameSet} (still : (pass sets).grew = false) :
      Settles pass sets ((pass sets).sets, 1)
  | grew {sets solution : NameMap NameSet} {passes : Nat} (grew : (pass sets).grew = true)
      (later : Settles pass (pass sets).sets (solution, passes)) :
      Settles pass sets (solution, passes + 1)

namespace SetEquation

variable {equations : List SetEquation} {sets : NameMap NameSet}

theorem allowed_saturate {allowed : String → String → Prop}
    (keeps : ∀ equation ∈ equations, equation.Keeps allowed) (limit : Nat)
    (initially : ∀ name, ∀ member ∈ sets.setOf name, allowed name member) :
    ∀ name, ∀ member ∈ (saturate (pass equations) limit sets).1.setOf name,
      allowed name member := by
  induction limit generalizing sets with
  | zero => exact initially
  | succ limit inductionHypothesis =>
      have afterPass := allowed_pass keeps initially
      unfold saturate
      simp only
      split
      · exact inductionHypothesis afterPass
      · exact afterPass

/-- The members of the sets among the pairs of `possible`. -/
private def population (possible : Finset (String × String)) (sets : NameMap NameSet) :
    Finset (String × String) :=
  possible.filter fun pair => pair.2 ∈ sets.setOf pair.1

private theorem population_lt_of_grew {possible : Finset (String × String)}
    (afterwards : ∀ name, ∀ member ∈ (pass equations sets).sets.setOf name,
      (name, member) ∈ possible)
    (grew : (pass equations sets).grew = true) :
    (population possible sets).card <
      (population possible (pass equations sets).sets).card := by
  obtain ⟨name, member, missing, added⟩ := exists_added_of_grew grew
  have grows : population possible sets ⊆ population possible (pass equations sets).sets := by
    intro pair inPopulation
    have ⟨inPossible, present⟩ := Finset.mem_filter.1 inPopulation
    exact Finset.mem_filter.2 ⟨inPossible, mem_pass present⟩
  apply Finset.card_lt_card
  refine (Finset.ssubset_iff_of_subset grows).2 ⟨(name, member), ?_, ?_⟩
  · exact Finset.mem_filter.2 ⟨afterwards name member added, added⟩
  · intro inPopulation
    exact missing (Finset.mem_filter.1 inPopulation).2

private theorem settles_saturate_of_population {possible : Finset (String × String)}
    (keeps : ∀ equation ∈ equations, equation.Keeps fun name member => (name, member) ∈ possible)
    {limit : Nat} (enough : possible.card < limit + (population possible sets).card)
    (initially : ∀ name, ∀ member ∈ sets.setOf name, (name, member) ∈ possible) :
    Settles (pass equations) sets (saturate (pass equations) limit sets) := by
  induction limit generalizing sets with
  | zero =>
      have : (population possible sets).card ≤ possible.card :=
        Finset.card_le_card (Finset.filter_subset _ _)
      omega
  | succ limit inductionHypothesis =>
      unfold saturate
      simp only
      split
      case isTrue grew =>
        have afterPass := allowed_pass keeps initially
        have more := population_lt_of_grew afterPass grew
        exact .grew grew (inductionHypothesis (by omega) afterPass)
      case isFalse still => exact .still (Bool.not_eq_true _ ▸ still)

/-- As each pass but the last one adds a pair of `possible`, passes that outnumber
these pairs are all that are needed. -/
theorem settles_saturate {possible : Finset (String × String)}
    (keeps : ∀ equation ∈ equations, equation.Keeps fun name member => (name, member) ∈ possible)
    {limit : Nat} (enough : possible.card < limit)
    (initially : ∀ name, ∀ member ∈ sets.setOf name, (name, member) ∈ possible) :
    Settles (pass equations) sets (saturate (pass equations) limit sets) :=
  settles_saturate_of_population keeps (by omega) initially

variable {result : NameMap NameSet × Nat}

/-- Passes that have settled solve every equation. -/
theorem solved_of_settles (settles : Settles (pass equations) sets result) :
    ∀ equation ∈ equations, equation.SolvedBy result.1.setOf := by
  induction settles with
  | still still =>
      have ⟨same, solved⟩ := solved_of_not_grew still
      rw [same]
      exact solved
  | grew _ _ inductionHypothesis => exact inductionHypothesis

/-- Passes take no member away. -/
theorem mem_of_settles (settles : Settles (pass equations) sets result) {name member : String}
    (present : member ∈ sets.setOf name) : member ∈ result.1.setOf name := by
  induction settles with
  | still _ => exact mem_pass present
  | grew _ _ inductionHypothesis => exact inductionHypothesis (mem_pass present)

/-- Passes take no entry away. -/
theorem isSome_get?_of_settles (settles : Settles (pass equations) sets result) {name : String}
    (entry : (sets.get? name).isSome = true) : (result.1.get? name).isSome = true := by
  induction settles with
  | still _ => exact isSome_get?_addAll (.inl entry)
  | grew _ _ inductionHypothesis => exact inductionHypothesis (isSome_get?_addAll (.inl entry))

/-- Once the passes have settled, a further one reports no growth and changes nothing. -/
theorem pass_eq_self_of_settles (settles : Settles (pass equations) sets result) :
    pass equations result.1 = ⟨result.1, false⟩ := by
  induction settles with
  | still still => exact pass_eq_self_of_not_grew still
  | grew _ _ inductionHypothesis => exact inductionHypothesis

end SetEquation

end CanonicalLR
