import RecordTree.Main
import RecordTree.Proofs.Path.Template
import RecordTree.Proofs.Record.Conflict
import RecordTree.Proofs.Record.Faults
import RecordTree.Proofs.Record.Linearization
import RecordTree.Proofs.Record.Nesting
import RecordTree.Proofs.Record.Refinement
import RecordTree.Proofs.Record.Separation
import RecordTree.Proofs.Store.Agreement
import RecordTree.Proofs.Store.Directory
import RecordTree.Proofs.Store.History
import RecordTree.Proofs.Store.Listing
import RecordTree.Proofs.Time
import RecordTree.Proofs.Tree.Change
import RecordTree.Remote.Failure
import RecordTree.Remote.Settings
import RecordTree.Revision
import RecordTree.Proofs.Record.Cancellation
import RecordTree.Proofs.Store.Trail
import RecordTree.Proofs.Record.Registers
import RecordTree.Proofs.Record.Commutation
import RecordTree.Proofs.Record.Listing
import RecordTree.Proofs.Store.Confinement
import RecordTree.Proofs.Path.Walk
import RecordTree.Proofs.Path.Inside
import RecordTree.Proofs.Record.Location
import RecordTree.Proofs.Record.Validation
import RecordTree.Proofs.Store.Descent
import RecordTree.Proofs.Store.Journal
import RecordTree.Proofs.Record.Absence
import RecordTree.Proofs.Record.Traceability
