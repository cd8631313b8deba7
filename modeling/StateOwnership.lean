import StateOwnership.DateTime.Reader
import StateOwnership.Log.Register
import StateOwnership.Main
import StateOwnership.Proofs.Cache.Attribution
import StateOwnership.Proofs.Cache.Boundaries
import StateOwnership.Proofs.Cache.Collisions
import StateOwnership.Proofs.Cache.Concurrency
import StateOwnership.Proofs.Cache.Loading
import StateOwnership.Proofs.Cache.Mapping
import StateOwnership.Proofs.Cache.Ownership
import StateOwnership.Proofs.Cache.Priority
import StateOwnership.Proofs.Cache.Recovery
import StateOwnership.Proofs.Cache.Reordering
import StateOwnership.Proofs.Cache.Repetition
import StateOwnership.Proofs.Cache.Reporting
import StateOwnership.Proofs.Cache.Skipping
import StateOwnership.Proofs.Cache.Stopping
import StateOwnership.Proofs.Cache.Validating
import StateOwnership.Proofs.Config.NormalForm
import StateOwnership.Proofs.Config.Reading
import StateOwnership.Proofs.Config.Typing
import StateOwnership.Proofs.Fetch.Accounting
import StateOwnership.Proofs.Fetch.Cancelling
import StateOwnership.Proofs.Fetch.Delivering
import StateOwnership.Proofs.Fetch.Isolation
import StateOwnership.Proofs.Fetch.Layout
import StateOwnership.Proofs.Fetch.Repetition
import StateOwnership.Proofs.Fetch.Residue
import StateOwnership.Proofs.Fetch.Wording
import StateOwnership.Proofs.Index.Building
import StateOwnership.Proofs.Report.Integrity
import StateOwnership.Proofs.State.Addressing
import StateOwnership.Proofs.State.Allowing
import StateOwnership.Proofs.State.Grouping
import StateOwnership.Proofs.State.Ignoring
import StateOwnership.Proofs.State.Upgrading
import StateOwnership.Proofs.World.Roles
