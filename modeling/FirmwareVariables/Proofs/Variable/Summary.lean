import FirmwareVariables.Proofs.Text.Hex
import FirmwareVariables.Proofs.Variable.Described
import FirmwareVariables.Proofs.Variable.NameText

/-!
# Records and their summaries

A summary shows a record in other words: the name as a text, the attributes as a number, the data as
digits. `VariableRecord.ofSummary?` reads them again, and finds the record if its name was made from
a text or from octets.

The main statement, `VariableRecord.summary_lossless`, says this field by field. So records with the
same summary are the same.
-/

namespace FirmwareVariables

/-- Attributes are read from the one cell that writes their bits. -/
theorem Attributes.ofCell?_eq_some_iff {value : Bytes} {attributes : Attributes} :
    ofCell? value = some attributes ↔ value = Bytes.ofCell attributes.bits.toNat := by
  constructor
  · intro h
    unfold ofCell? at h
    split at h
    · rename_i a b c d
      have hcell : Bytes.cell a b c d < UInt32.size := Bytes.cell_lt a b c d
      obtain rfl := Option.some.inj h
      rw [UInt32.toNat_ofNat_of_lt' hcell, Bytes.ofCell_cell]
    · cases h
  · rintro rfl
    exact attributes.ofCell?_ofCell

namespace VariableRecord

/-- The record that a summary shows, if its data are pairs of digits. -/
def ofSummary? (summary : Summary) : Option VariableRecord :=
  (Hex.toBytes? summary.data).map fun data =>
    ⟨VariableName.ofText summary.name, summary.scope, ⟨summary.attributes⟩, data⟩

/-- The name of the record was made from a text or from octets. -/
def HasMadeName (record : VariableRecord) : Prop :=
  ∃ origin : VariableName.Origin, record.name = origin.name

section Lossless

variable {record : VariableRecord} (hname : record.HasMadeName)
include hname

theorem ofText_summary_name :
    VariableName.ofText record.summary.name = record.name := by
  obtain ⟨origin, horigin⟩ := hname
  rw [summary, horigin, origin.ofText_toText_name]

/-- A record is read again from its summary. -/
theorem ofSummary?_summary :
    ofSummary? record.summary = some record := by
  have hdata : Hex.toBytes? record.summary.data = some record.data :=
    Hex.toBytes?_ofBytes record.data
  rw [ofSummary?, hdata, Option.map_some, ofText_summary_name hname]
  rfl

/--
The summary of a record loses nothing. The name is made again from its text, the scope is there,
and the number of the attributes is that of the one cell that they are read from, whatever its bits.
The data are pairs of digits in lower case, twice as many as the size, and are read as the data. So
the record is read again from its summary, and another record has another one.
-/
theorem summary_lossless :
    VariableName.ofText record.summary.name = record.name ∧
    record.summary.scope = record.scope ∧
    (record.summary.attributes = record.attributes.bits ∧
      ∀ cell, Attributes.ofCell? cell = some record.attributes ↔
        cell = Bytes.ofCell record.summary.attributes.toNat) ∧
    ((∀ c ∈ record.summary.data.toList, ∃ d < 16, c = Nat.digitChar d) ∧
      Hex.toBytes? record.summary.data = some record.data ∧
      record.summary.size = record.data.length ∧
      record.summary.data.length = 2 * record.summary.size) ∧
    ofSummary? record.summary = some record ∧
    ∀ other : VariableRecord, other.HasMadeName →
      (other.summary = record.summary ↔ other = record) := by
  have hread : ofSummary? record.summary = some record := ofSummary?_summary hname
  refine ⟨ofText_summary_name hname, rfl, ⟨rfl, fun cell => Attributes.ofCell?_eq_some_iff⟩,
    ⟨fun c hc => Hex.exists_digit_of_mem_ofBytes hc, Hex.toBytes?_ofBytes record.data, rfl, ?_⟩,
    hread, fun other hother => ⟨fun hsame => ?_, fun hsame => by rw [hsame]⟩⟩
  · rw [← String.length_toList]
    exact Hex.length_toList_ofBytes record.data
  · have hsecond : ofSummary? other.summary = some other := ofSummary?_summary hother
    rw [hsame, hread] at hsecond
    exact (Option.some.inj hsecond).symm

end Lossless

/-- A name with an octet beyond ASCII, attributes with a bit that has no meaning here. -/
theorem summary_lossless_widened :
    let record : VariableRecord :=
      ⟨VariableName.ofAscii [0x42, 0xE9, 0, 0x7A], Guid.nil, ⟨0x80000007⟩, [0, 0xFF]⟩
    record.HasMadeName ∧
      record.summary = ⟨"Bé", Guid.nil, 0x80000007, 2, "00ff"⟩ ∧
      ofSummary? record.summary = some record ∧
      ∀ other : VariableRecord, other.HasMadeName →
        (other.summary = record.summary ↔ other = record) := by
  intro record
  have hname : record.HasMadeName := ⟨.octets [0x42, 0xE9, 0, 0x7A], rfl⟩
  have hsummary : record.summary = ⟨"Bé", Guid.nil, 0x80000007, 2, "00ff"⟩ := by
    decide +kernel
  exact ⟨hname, hsummary, (summary_lossless hname).2.2.2.2⟩

end VariableRecord
end FirmwareVariables
