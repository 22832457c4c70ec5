import ArchChange.Main
import ArchChange.Proofs.Model.WellFormed
import ArchChange.Proofs.Plan.Decoding
import ArchChange.Proofs.Plan.RoundTrip
import ArchChange.Proofs.Plan.Renaming
import ArchChange.Proofs.Model.Edits
import ArchChange.Proofs.Model.Creation
import ArchChange.Proofs.Model.Drawing
import ArchChange.Proofs.Model.Cascade
import ArchChange.Proofs.Model.Deletion
import ArchChange.Proofs.Model.Operations
import ArchChange.Proofs.Model.Frame
import ArchChange.Proofs.Model.Numbering
import ArchChange.Proofs.Model.Freshness
import ArchChange.Proofs.Model.Refusals
import ArchChange.Proofs.Validation.Scoping
import ArchChange.Proofs.Validation.Warnings
import ArchChange.Proofs.Validation.Grammar
import ArchChange.Proofs.Validation.Renaming
import ArchChange.Proofs.Execution.FolderPath
import ArchChange.Proofs.Execution.Action
import ArchChange.Proofs.Execution.Operations
import ArchChange.Proofs.Execution.Preservation
import ArchChange.Proofs.Execution.Containment
import ArchChange.Proofs.Execution.Simulation
import ArchChange.Proofs.Execution.Soundness
import ArchChange.Proofs.Execution.History
import ArchChange.Proofs.Execution.ScopeBounds
import ArchChange.Proofs.Execution.DeletedIds
import ArchChange.Proofs.Execution.Permissions
import ArchChange.Proofs.Execution.Foretelling
import ArchChange.Proofs.Execution.AnnouncedCascades
import ArchChange.Proofs.Execution.Slots
import ArchChange.Proofs.Execution.AnnouncedPositions
import ArchChange.Proofs.Execution.Renaming
import ArchChange.Proofs.Plan.Normal
import ArchChange.Proofs.Validation.Normal
import ArchChange.Proofs.Execution.Connections
import ArchChange.Proofs.Json.Schema
import ArchChange.Proofs.Plan.Completion
import ArchChange.Proofs.Validation.Producers
import ArchChange.Proofs.Command.Apply
import ArchChange.Proofs.Model.RoundTrip
import ArchChange.Proofs.Execution.Cascades
import ArchChange.Proofs.Execution.AutoConnect
import ArchChange.Proofs.Execution.Accounting
import ArchChange.Proofs.Execution.Placements
import ArchChange.Proofs.Model.Listing
import ArchChange.Proofs.Execution.Moves
import ArchChange.Proofs.Model.Remainder
import ArchChange.Proofs.Execution.Transience
import ArchChange.Proofs.Plan.Extraction
