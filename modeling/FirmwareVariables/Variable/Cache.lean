import FirmwareVariables.Variable.Tag

/-!
# The record cache

The records of a device tree, kept until they are restored. Building the cache walks the
tree twice: the first walk counts the tagged nodes, which sets the room of the cache, and
the second one reads them. Faulty records are left out and counted; a fault in the tree
ends a walk but keeps what was read before it.
-/

namespace FirmwareVariables

/-- Why no cache can be built. There is always memory for the records of one here. -/
inductive CacheError where
  | invalidSource (cause : DeviceTree.Error)
deriving DecidableEq, Repr

def CacheError.message : CacheError → String
  | invalidSource cause => s!"invalid device tree: {cause.message}"

/-- How many nodes were tagged, and what became of them. -/
structure CacheStats where
  tagged : Nat
  cached : Nat
  malformed : Nat
  dropped : Nat
deriving DecidableEq, Repr

/-- Records in the order of the tree, with the account of their reading. -/
structure VariableCache where
  records : List VariableRecord
  stats : CacheStats
deriving DecidableEq, Repr

namespace VariableCache

def empty : VariableCache :=
  ⟨[], ⟨0, 0, 0, 0⟩⟩

def ofRecords (records : List VariableRecord) : VariableCache :=
  ⟨records, ⟨records.length, records.length, 0, 0⟩⟩

/-- How many records there was room for. -/
def capacity (cache : VariableCache) : Nat :=
  cache.stats.tagged

/-- What the second walk has gathered. -/
structure Fill where
  records : List VariableRecord
  malformed : Nat
  dropped : Nat
  journal : Journal
deriving DecidableEq, Repr

namespace Fill

def empty : Fill :=
  ⟨[], 0, 0, []⟩

/-- Adds a node: its record if there is room, or a count of what kept it out. -/
def add (tag : RecordTag) (capacity : Nat) (fill : Fill) (node : DeviceTree.Node) : Fill :=
  let reading := tag.read node
  let told := fill.journal ++ reading.journal
  match reading with
  | .untagged => { fill with journal := told }
  | .malformed fault =>
      let text := s!"skipping variable node '{node.name}' ({fault.status.label}): {fault.message}"
      { fill with malformed := fill.malformed + 1, journal := told ++ [.warning text] }
  | .found record =>
      if fill.records.length < capacity then
        { fill with records := fill.records ++ [record], journal := told }
      else
        let text := s!"cache full ({capacity}), dropping {record.toText}"
        { fill with dropped := fill.dropped + 1, journal := told ++ [.debug text] }

end Fill

/-- What is said of the fault that ended a walk, if one did. -/
def walkJournal (pass : String) (fault : Option DeviceTree.Error) : Journal :=
  match fault with
  | none => []
  | some fault => [.warning s!"device tree walk stopped during {pass} pass: {fault.message}"]

/-- The records that a tag marks in an accepted blob, and what is said on the way. -/
def ofBlob (tag : RecordTag) (blob : DeviceTree.Blob) : VariableCache × Journal :=
  let walk := blob.nodes
  let tagged := walk.nodes.countP tag.marks
  let size := blob.header.totalSize
  let counted : Journal :=
    .info s!"scanning device tree ({size} bytes) for variable records" ::
      walkJournal "count" walk.fault
  if tagged = 0 then
    (empty, counted ++ [.info "no variable records found in device tree"])
  else
    let fill := walk.nodes.foldl (Fill.add tag tagged) Fill.empty
    let cached := fill.records.length
    let journal := counted ++ [.info s!"found {tagged} variable record nodes"] ++ fill.journal ++
      walkJournal "fill" walk.fault ++ [.info s!"cached {cached} variables from device tree"]
    (⟨fill.records, ⟨tagged, cached, fill.malformed, fill.dropped⟩⟩, journal)

/-- The records that a tag marks in the octets of a blob. -/
def ofBytes (tag : RecordTag) (octets : Bytes) : Except CacheError VariableCache × Journal :=
  match DeviceTree.Blob.ofBytes octets with
  | .error cause => (.error (.invalidSource cause), [])
  | .ok blob =>
      let (cache, journal) := ofBlob tag blob
      (.ok cache, journal)

end VariableCache
end FirmwareVariables
