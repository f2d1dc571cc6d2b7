import FirmwareVariables.DeviceTree.Writer
import FirmwareVariables.Json.Numeral
import FirmwareVariables.Main
import FirmwareVariables.Proofs.Boot.History
import FirmwareVariables.Proofs.Boot.OneShot
import FirmwareVariables.Proofs.Boot.Rearming
import FirmwareVariables.Proofs.Boot.Start
import FirmwareVariables.Proofs.Boot.WrittenTree
import FirmwareVariables.Proofs.CommandLine.Outcome
import FirmwareVariables.Proofs.DeviceTree.Answers
import FirmwareVariables.Proofs.DeviceTree.Interning
import FirmwareVariables.Proofs.DeviceTree.Items
import FirmwareVariables.Proofs.DeviceTree.Ownership
import FirmwareVariables.Proofs.DeviceTree.Shape
import FirmwareVariables.Proofs.DeviceTree.Words
import FirmwareVariables.Proofs.Guid.Octets
import FirmwareVariables.Proofs.Guid.Order
import FirmwareVariables.Proofs.Restore.Accounting
import FirmwareVariables.Proofs.Restore.Failures
import FirmwareVariables.Proofs.Restore.Reordered
import FirmwareVariables.Proofs.Restore.Repeated
import FirmwareVariables.Proofs.Restore.Runs
import FirmwareVariables.Proofs.Store.Algebra
import FirmwareVariables.Proofs.Store.WriteHistory
import FirmwareVariables.Proofs.Toml.Reading
import FirmwareVariables.Proofs.Variable.Classified
import FirmwareVariables.Proofs.Variable.NameUnits
import FirmwareVariables.Proofs.Variable.Narration
import FirmwareVariables.Proofs.Variable.SameCache
import FirmwareVariables.Proofs.Variable.Summary
import FirmwareVariables.Restore.Driver
