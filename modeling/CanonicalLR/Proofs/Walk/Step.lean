import CanonicalLR.Walk

/-!
Contract: what a single step of a run does.

Owns:
- the steps that go on, the steps that accept and the steps that fail, by the entries that
  they read;
- the terminals that steps read and the productions that they reduce by.

Does not own: which entries a table has.
-/

namespace CanonicalLR

/-- The terminal that a step reads. -/
def Step.shifted? : Step → Option String
  | .shift terminal _ => some terminal
  | .reduce _ _ => none
  | .accept => none

/-- The production that a step reduces by. The step that accepts reduces by the
start production, which it does not name. -/
def Step.reduced? : Step → Option Nat
  | .shift _ _ => none
  | .reduce production _ => some production
  | .accept => none

namespace Walk

/-- The steps that go on: one reads a terminal, the other one drops the states of a
right-hand side and goes on from the state below, unless that is all there is to do. -/
inductive Takes (table : ParseTable) (startIndex : Nat) :
    Configuration → Step → Configuration → Prop where
  | shift {top target : Nat} {below : List Nat} {stream : TerminalStream}
      (entry : table.action? top stream.terminal = some (.shift target)) :
      Takes table startIndex ⟨top :: below, stream⟩ (.shift stream.terminal target)
        ⟨target :: top :: below, stream.advance⟩
  | reduce {top index base target : Nat} {below lower : List Nat} {stream : TerminalStream}
      {production : Production}
      (entry : table.action? top stream.terminal = some (.reduce index))
      (found : table.grammar.productions[index]? = some production)
      (dropped : (top :: below).drop production.rhs.length = base :: lower)
      (unfinished : ¬ (index = startIndex ∧ lower.isEmpty ∧ stream.isAtEnd))
      (goto : table.goto? base production.lhs = some target) :
      Takes table startIndex ⟨top :: below, stream⟩ (.reduce index target)
        ⟨target :: base :: lower, stream⟩

/-- The configurations that are accepted: the right-hand side of the start production
is all that was read, and nothing is left to read. -/
inductive Finishes (table : ParseTable) (startIndex : Nat) : Configuration → Prop where
  | reduce {top base : Nat} {below : List Nat} {stream : TerminalStream} {production : Production}
      (entry : table.action? top stream.terminal = some (.reduce startIndex))
      (found : table.grammar.productions[startIndex]? = some production)
      (dropped : (top :: below).drop production.rhs.length = [base])
      (atEnd : stream.isAtEnd) :
      Finishes table startIndex ⟨top :: below, stream⟩

/-- The configurations that have no next step, with the first look-up that finds nothing. -/
inductive Fails (table : ParseTable) (startIndex : Nat) : Configuration → WalkError → Prop where
  | empty {stream : TerminalStream} : Fails table startIndex ⟨[], stream⟩ .stackUnderflow
  | action {top : Nat} {below : List Nat} {stream : TerminalStream}
      (missing : table.action? top stream.terminal = none) :
      Fails table startIndex ⟨top :: below, stream⟩ (.missingAction top stream.terminal)
  | production {top index : Nat} {below : List Nat} {stream : TerminalStream}
      (entry : table.action? top stream.terminal = some (.reduce index))
      (unknown : table.grammar.productions[index]? = none) :
      Fails table startIndex ⟨top :: below, stream⟩ (.unknownProduction index)
  | underflow {top index : Nat} {below : List Nat} {stream : TerminalStream}
      {production : Production}
      (entry : table.action? top stream.terminal = some (.reduce index))
      (found : table.grammar.productions[index]? = some production)
      (dropped : (top :: below).drop production.rhs.length = []) :
      Fails table startIndex ⟨top :: below, stream⟩ .stackUnderflow
  | goto {top index base : Nat} {below lower : List Nat} {stream : TerminalStream}
      {production : Production}
      (entry : table.action? top stream.terminal = some (.reduce index))
      (found : table.grammar.productions[index]? = some production)
      (dropped : (top :: below).drop production.rhs.length = base :: lower)
      (unfinished : ¬ (index = startIndex ∧ lower.isEmpty ∧ stream.isAtEnd))
      (missing : table.goto? base production.lhs = none) :
      Fails table startIndex ⟨top :: below, stream⟩ (.missingGoto base production.lhs)

variable {table : ParseTable} {startIndex : Nat} {configuration later : Configuration}
  {taken : Step} {error : WalkError}

/-! ### Reductions -/

theorem reduce_eq_next {index : Nat} {stack : List Nat} {stream : TerminalStream} :
    reduce table startIndex index ⟨stack, stream⟩ = .next taken later ↔
      ∃ production base lower target, table.grammar.productions[index]? = some production ∧
        stack.drop production.rhs.length = base :: lower ∧
        ¬ (index = startIndex ∧ lower.isEmpty ∧ stream.isAtEnd) ∧
        table.goto? base production.lhs = some target ∧
        taken = .reduce index target ∧ later = ⟨target :: base :: lower, stream⟩ := by
  constructor
  · intro reduced
    unfold reduce at reduced
    split at reduced
    · contradiction
    case h_2 production found =>
      split at reduced
      · contradiction
      case h_2 base lower dropped =>
        split at reduced
        · contradiction
        case isFalse unfinished =>
          split at reduced
          · contradiction
          case h_2 target goto =>
            cases reduced
            exact ⟨production, base, lower, target, found, dropped, unfinished, goto, rfl, rfl⟩
  · rintro ⟨production, base, lower, target, found, dropped, unfinished, goto, rfl, rfl⟩
    simp only [reduce, found, dropped]
    rw [if_neg unfinished]
    simp only [goto]

theorem reduce_eq_accepted {index : Nat} {stack : List Nat} {stream : TerminalStream} :
    reduce table startIndex index ⟨stack, stream⟩ = .accepted ↔
      index = startIndex ∧ stream.isAtEnd ∧
        ∃ production base, table.grammar.productions[index]? = some production ∧
          stack.drop production.rhs.length = [base] := by
  constructor
  · intro reduced
    unfold reduce at reduced
    split at reduced
    · contradiction
    case h_2 production found =>
      split at reduced
      · contradiction
      case h_2 base lower dropped =>
        split at reduced
        case isTrue final =>
          obtain ⟨isStart, nothingBelow, atEnd⟩ := final
          rw [List.isEmpty_iff.1 nothingBelow] at dropped
          exact ⟨isStart, atEnd, production, base, found, dropped⟩
        case isFalse =>
          split at reduced <;> contradiction
  · rintro ⟨isStart, atEnd, production, base, found, dropped⟩
    simp only [reduce, found, dropped]
    rw [if_pos ⟨isStart, rfl, atEnd⟩]

/-! ### Steps -/

theorem step_eq_next :
    step table startIndex configuration = .next taken later ↔
      Takes table startIndex configuration taken later := by
  constructor
  · intro stepped
    obtain ⟨stack, stream⟩ := configuration
    cases stack with
    | nil => contradiction
    | cons top below =>
        unfold step at stepped
        simp only at stepped
        split at stepped
        · contradiction
        case h_2 target entry =>
          cases stepped
          exact .shift entry
        case h_3 index entry =>
          obtain ⟨production, base, lower, target, found, dropped, unfinished, goto, rfl, rfl⟩ :=
            reduce_eq_next.1 stepped
          exact .reduce entry found dropped unfinished goto
  · intro takes
    cases takes with
    | shift entry => simp only [step, entry]
    | reduce entry found dropped unfinished goto =>
        simp only [step, entry]
        exact reduce_eq_next.2 ⟨_, _, _, _, found, dropped, unfinished, goto, rfl, rfl⟩

theorem step_eq_accepted :
    step table startIndex configuration = .accepted ↔
      Finishes table startIndex configuration := by
  constructor
  · intro stepped
    obtain ⟨stack, stream⟩ := configuration
    cases stack with
    | nil => contradiction
    | cons top below =>
        unfold step at stepped
        simp only at stepped
        split at stepped
        · contradiction
        · contradiction
        case h_3 index entry =>
          obtain ⟨rfl, atEnd, production, base, found, dropped⟩ := reduce_eq_accepted.1 stepped
          exact .reduce entry found dropped atEnd
  · intro finishes
    cases finishes with
    | reduce entry found dropped atEnd =>
        simp only [step, entry]
        exact reduce_eq_accepted.2 ⟨rfl, atEnd, _, _, found, dropped⟩

private theorem fails_of_reduce {top index : Nat} {below : List Nat} {stream : TerminalStream}
    (entry : table.action? top stream.terminal = some (.reduce index))
    (reduced : reduce table startIndex index ⟨top :: below, stream⟩ = .failed error) :
    Fails table startIndex ⟨top :: below, stream⟩ error := by
  unfold reduce at reduced
  split at reduced
  case h_1 unknown =>
    cases reduced
    exact .production entry unknown
  case h_2 production found =>
    split at reduced
    case h_1 dropped =>
      cases reduced
      exact .underflow entry found dropped
    case h_2 base lower dropped =>
      split at reduced
      · contradiction
      case isFalse unfinished =>
        split at reduced
        case h_1 missing =>
          cases reduced
          exact .goto entry found dropped unfinished missing
        · contradiction

theorem step_eq_failed :
    step table startIndex configuration = .failed error ↔
      Fails table startIndex configuration error := by
  constructor
  · intro stepped
    obtain ⟨stack, stream⟩ := configuration
    cases stack with
    | nil =>
        cases stepped
        exact .empty
    | cons top below =>
        unfold step at stepped
        simp only at stepped
        split at stepped
        case h_1 missing =>
          cases stepped
          exact .action missing
        · contradiction
        case h_3 index entry => exact fails_of_reduce entry stepped
  · intro fails
    cases fails with
    | empty => rfl
    | action missing => simp only [step, missing]
    | production entry unknown => simp only [step, entry, reduce, unknown]
    | underflow entry found dropped => simp only [step, entry, reduce, found, dropped]
    | goto entry found dropped unfinished missing =>
        simp only [step, entry, reduce, found, dropped]
        rw [if_neg unfinished]
        simp only [missing]

end Walk

end CanonicalLR
