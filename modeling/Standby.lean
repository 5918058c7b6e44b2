import Standby.Proofs.Engine.Faults
import Standby.Proofs.Engine.Gates
import Standby.Proofs.Engine.Outcome
import Standby.Proofs.Engine.Params
import Standby.Proofs.Engine.Reach
import Standby.Proofs.Engine.Secrecy
import Standby.Proofs.Engine.Selection
import Standby.Proofs.Failover.Bodies
import Standby.Proofs.Http.Languages
import Standby.Proofs.Json.Reading
import Standby.Proofs.Listing.Slices
import Standby.Proofs.Schema.Reordering
import Standby.Proofs.Schema.Violations
import Standby.Proofs.Service.Bindings
import Standby.Proofs.Service.Concealed
import Standby.Proofs.Service.Disregarding
import Standby.Proofs.Service.Duplicates
import Standby.Proofs.Service.Embedding
import Standby.Proofs.Service.Faults
import Standby.Proofs.Service.HandOff
import Standby.Proofs.Service.HostRoutes
import Standby.Proofs.Service.Isolation
import Standby.Proofs.Service.Noninterference
import Standby.Proofs.Service.Paging
import Standby.Proofs.Service.Readback
import Standby.Proofs.Service.Reports
import Standby.Proofs.Service.Revisions
import Standby.Proofs.Service.Unchanged
import Standby.Proofs.Service.Upgrades
import Standby.Proofs.Store.Cascade
import Standby.Proofs.Store.Runs
import Standby.Proofs.Time.Reading
import Standby.Proofs.Version.Counts
import Standby.Proofs.Version.Entries
import Standby.Proofs.Version.Registrations
import Standby.Proofs.Version.Spelling
import Standby.Service.Gateway
