import AnyCase.Launch
import AnyCase.Main
import AnyCase.Verbosity
import AnyCase.Proofs.Elements
import AnyCase.Proofs.Edit
import AnyCase.Proofs.Layout
import AnyCase.Proofs.Saved
import AnyCase.Proofs.Change
import AnyCase.Proofs.Filters
import AnyCase.Proofs.Restore
import AnyCase.Proofs.Reached
import AnyCase.Proofs.Search
import AnyCase.Proofs.Session
import AnyCase.Proofs.Members
import AnyCase.Proofs.Overwrite
import AnyCase.Proofs.Sync
import AnyCase.Proofs.Consistency
import AnyCase.Proofs.RuleOrder
import AnyCase.Proofs.Refused
import AnyCase.Proofs.Procedure
import AnyCase.Proofs.Atomic
import AnyCase.Proofs.Repeat
import AnyCase.Proofs.Foresight
import AnyCase.Proofs.Resubmit
import AnyCase.Proofs.Lifetime
import AnyCase.Proofs.Image
import AnyCase.Proofs.Matching
import AnyCase.Proofs.Framing
import AnyCase.Proofs.Requests
import AnyCase.Proofs.Reopened
import AnyCase.Proofs.Rebuild
import AnyCase.Proofs.Recasing
import AnyCase.Proofs.Winners
import AnyCase.Proofs.Commute
import AnyCase.Proofs.Fixpoint
import AnyCase.Proofs.Effect
import AnyCase.Proofs.Locality
import AnyCase.Proofs.Alternatives
import AnyCase.Proofs.Owner
import AnyCase.Proofs.InPlace
import AnyCase.Proofs.Order
import AnyCase.Proofs.History
import AnyCase.Proofs.Slots
import AnyCase.Proofs.Aligned
import AnyCase.Proofs.FieldOrder
