import CanonicalLR.Grammar.Edit
import CanonicalLR.Main
import CanonicalLR.Proofs.Canonical.Collection
import CanonicalLR.Proofs.Canonical.Cycle
import CanonicalLR.Proofs.Canonical.Handle
import CanonicalLR.Proofs.Canonical.Path
import CanonicalLR.Proofs.Canonical.ViablePrefix
import CanonicalLR.Proofs.Closure.Embedding
import CanonicalLR.Proofs.Closure.Least
import CanonicalLR.Proofs.Closure.Operator
import CanonicalLR.Proofs.CommandLine.Failure
import CanonicalLR.Proofs.Grammar.Defect
import CanonicalLR.Proofs.Grammar.Layout
import CanonicalLR.Proofs.Grammar.Refusal
import CanonicalLR.Proofs.Grammar.Renamed
import CanonicalLR.Proofs.Grammar.Renaming
import CanonicalLR.Proofs.ItemSet.Ordered
import CanonicalLR.Proofs.ItemSet.Union
import CanonicalLR.Proofs.Render.CompactText
import CanonicalLR.Proofs.Render.Escape
import CanonicalLR.Proofs.Render.GraphText
import CanonicalLR.Proofs.Sets.Follow
import CanonicalLR.Proofs.Sets.Least
import CanonicalLR.Proofs.Sets.Meaning
import CanonicalLR.Proofs.Table.Conflict
import CanonicalLR.Proofs.Table.DeadProductions
import CanonicalLR.Proofs.Table.Identity
import CanonicalLR.Proofs.Table.Lookahead
import CanonicalLR.Proofs.Table.Policy
import CanonicalLR.Proofs.Table.RenamedRun
import CanonicalLR.Proofs.Table.RenamedState
import CanonicalLR.Proofs.Table.RenamedTable
import CanonicalLR.Proofs.Table.Successor
import CanonicalLR.Proofs.Table.Termination
import CanonicalLR.Proofs.Table.Verdict
import CanonicalLR.Proofs.Table.WellFormed
import CanonicalLR.Proofs.Token.Fault
import CanonicalLR.Proofs.Walk.Completeness
import CanonicalLR.Proofs.Walk.CorrectPrefix
import CanonicalLR.Proofs.Walk.Failure
import CanonicalLR.Proofs.Walk.Soundness
import CanonicalLR.Proofs.Walk.Termination
import CanonicalLR.Walk
