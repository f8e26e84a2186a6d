import CanonicalLR.Pattern

/-!
Contract: the occurrences of patterns.

Owns:
- for each place in a text, the places at which occurrences from there end;
- whether a pattern occurs in a text.

Does not own: patterns themselves.

The occurrences of a pattern are made from those of its parts, each of which is
looked at once. No occurrence leads back, so those from a place are known as soon as
those from all later places are.
-/

namespace CanonicalLR

/-- The ends of occurrences, one entry for each place that they may begin at. The
places are counted from zero, and each entry is in ascending order. -/
abbrev Passages := List (List Nat)

namespace Passages

/-- The passages of one length, from the gaps of which `holds` is true. -/
def ofLength (length : Nat) (holds : Gap → Bool) (gaps : List Gap) : Passages :=
  gaps.zipIdx.map fun (gap, place) => if holds gap then [place + length] else []

/-- The passages from each of `count` places to itself. -/
def still (count : Nat) : Passages :=
  (List.range count).map fun place => [place]

def union (left right : Passages) : Passages :=
  List.zipWith Ascending.unite left right

def followedBy (first second : Passages) : Passages :=
  let ends := second.toArray
  first.map fun places =>
    places.foldr (fun place reached => Ascending.unite (ends.getD place []) reached) []

/-- So many more steps. They end early where a step changes nothing. -/
def advance (step : Passages) : Nat → Passages → Passages
  | 0, passages => passages
  | count + 1, passages =>
      let next := passages.followedBy step
      if next = passages then passages else advance step count next

/-- All that the targets reach, by what each of them reaches, itself included. What is
reached leads no further, so a target that another one reaches is left out. -/
def gather (reached : Nat → List Nat) : Nat → List Nat → List Nat
  | rounds + 1, target :: targets =>
      let ends := reached target
      Ascending.unite ends (gather reached rounds (Ascending.subtract targets ends))
  | _, _ => []

/-- The passages of any number of steps, where `place` is the first one. -/
def closureFrom (place : Nat) : Passages → Passages
  | [] => []
  | targets :: steps =>
      let later := closureFrom (place + 1) steps
      let reached := fun target => (later.drop (target - (place + 1))).headD []
      let onward := targets.filter (place < ·)
      (place :: gather reached onward.length onward) :: later

/-- The passages of any number of steps, none included. -/
def closure (step : Passages) : Passages :=
  closureFrom 0 step

/-- Passages with any number of steps behind them. -/
def continued (step passages : Passages) : Passages :=
  let ends := step.closure.toArray
  passages.map fun targets => gather (fun target => ends.getD target []) targets.length targets

/-- The passages of `least` steps, and of more of them up to `most?`. More steps than
there are places stand still somewhere, so they lead no further than so many. -/
def repeated (step : Passages) (least : Nat) (most? : Option Nat) : Passages :=
  let places := step.length
  let needed := advance step (min least places) (still places)
  match most? with
  | some most => advance (step.union (still places)) (min (most - least) places) needed
  | none => step.continued needed

end Passages

namespace Pattern

def passages (gaps : List Gap) : Pattern → Passages
  | empty => .still gaps.length
  | literal characters =>
      .ofLength characters.length (fun gap => characters.isPrefixOf gap.rest) gaps
  | set members _ => .ofLength 1 (fun gap => gap.after?.any members.contains) gaps
  | assertion asserted => .ofLength 0 asserted.holds gaps
  | sequence first second => (first.passages gaps).followedBy (second.passages gaps)
  | choice left right => (left.passages gaps).union (right.passages gaps)
  | repeated pattern least most? _ => (pattern.passages gaps).repeated least most?
  | group _ pattern => pattern.passages gaps

/-- Whether the pattern occurs anywhere in the text. -/
def occursIn (pattern : Pattern) (text : String) : Bool :=
  (pattern.passages (Gap.ofText text)).any fun ends => !ends.isEmpty

end Pattern

end CanonicalLR
