/-!
Contract: input terminals with the end of input behind them.

Owns:
- the current terminal, the step to the next one and the test for the end.

Does not own: what is done with the terminals.
-/

namespace CanonicalLR

/-- The terminals that are still to be read; behind them `endMarker` repeats
without end. -/
structure TerminalStream where
  remaining : List String
  endMarker : String
deriving DecidableEq

namespace TerminalStream

def terminal (stream : TerminalStream) : String :=
  stream.remaining.head?.getD stream.endMarker

def isAtEnd (stream : TerminalStream) : Bool :=
  stream.remaining.isEmpty

/-- Go past the current terminal; at the end nothing changes. -/
def advance (stream : TerminalStream) : TerminalStream :=
  { stream with remaining := stream.remaining.tail }

end TerminalStream

end CanonicalLR
