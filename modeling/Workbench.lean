import Workbench.FirstLaunch
import Workbench.Main
import Workbench.Oid
import Workbench.Proofs.Json.Reread
import Workbench.Proofs.Json.Rounding
import Workbench.Proofs.Json.Scaling
import Workbench.Proofs.Object.Wire
import Workbench.Proofs.Request.Acceptance
import Workbench.Proofs.Request.Announcing
import Workbench.Proofs.Request.Observing
import Workbench.Proofs.Request.Recovery
import Workbench.Proofs.Store.ClientRow
import Workbench.Proofs.Store.Journals
import Workbench.Proofs.Store.LostUpdate
import Workbench.Proofs.Store.ReadBack
import Workbench.Proofs.Store.Representation
import Workbench.Schema.Disk
import Workbench.Store.Guard
import Workbench.Proofs.Request.ClientCrowd
import Workbench.Proofs.Request.LaunchRace
import Workbench.Proofs.Schema.Migrating
import Workbench.Proofs.Request.Focusing
import Workbench.Proofs.Bus.Interleaving
import Workbench.Proofs.Layout.Construction
import Workbench.Proofs.Store.Listing
import Workbench.Proofs.Store.Attaching
import Workbench.Proofs.Store.EditedRows
import Workbench.Proofs.Path.NormalForm
import Workbench.Proofs.Request.ViewTargets
import Workbench.Proofs.Config
import Workbench.Proofs.Object.WireMembers
import Workbench.Proofs.Logging
import Workbench.Proofs.Text.OneLine
import Workbench.Proofs.Request.NestedDeadlines
