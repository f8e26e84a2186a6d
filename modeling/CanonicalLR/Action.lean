/-!
Contract: parser actions and their conflicts.

Owns:
- the entries of the ACTION table and their written form;
- conflicts between two entries and the policies on them.

Does not own: which actions a grammar calls for.
-/

namespace CanonicalLR

/-- `shift` carries the state to enter, `reduce` the index of the production to
reduce by. -/
inductive Action where
  | shift (state : Nat)
  | reduce (production : Nat)
deriving DecidableEq

def Action.text : Action → String
  | shift state => "s" ++ toString state
  | reduce production => "r" ++ toString production

/-- Two different actions for one terminal in one state; `existing` was there
first. -/
structure Conflict where
  state : Nat
  terminal : String
  existing : Action
  incoming : Action
deriving DecidableEq

inductive ConflictKind where
  | shiftReduce
  | reduceReduce
deriving DecidableEq

def ConflictKind.text : ConflictKind → String
  | shiftReduce => "shift-reduce"
  | reduceReduce => "reduce-reduce"

namespace Conflict

/-- Only two reductions make a reduce-reduce conflict. -/
def kind (conflict : Conflict) : ConflictKind :=
  match conflict.existing, conflict.incoming with
  | .reduce _, .reduce _ => .reduceReduce
  | _, _ => .shiftReduce

def text (conflict : Conflict) : String :=
  s!"{conflict.kind.text} conflict in state {conflict.state} on [{conflict.terminal}]: " ++
    s!"{conflict.existing.text} vs. {conflict.incoming.text}"

end Conflict

/-- `fail` gives up at the first conflict; `report` records each conflict and
keeps the action that was there first. -/
inductive ConflictPolicy where
  | fail
  | report
deriving DecidableEq

end CanonicalLR
