import FirmwareVariables.Proofs.DeviceTree.Outline
import FirmwareVariables.Proofs.Guid.Reading
import FirmwareVariables.Proofs.Text.Termination
import FirmwareVariables.Variable.Tag

/-!
# Descriptions of records

`VariableRecord.DescribedBy` says how properties describe a record: each field has one property,
with a value that may end in a NUL and more where a text is expected, or in any octet behind the
tag. The main statement, `RecordTag.read_described`, says that a node with such properties is
read as exactly this record, whatever else it carries, and that a node whose first `magic`
property is not the tag is left alone.
-/

namespace FirmwareVariables

namespace Attributes

/-- Written attributes are read back. -/
theorem ofCell?_ofCell (attributes : Attributes) :
    ofCell? (Bytes.ofCell attributes.bits.toNat) = some attributes := by
  have htake := Bytes.takeCell?_ofCell_append attributes.bits.toNat []
  rw [Nat.mod_eq_of_lt attributes.bits.toNat_lt] at htake
  simp only [Bytes.ofCell, List.append_nil, Bytes.takeCell?, Option.some.injEq,
    Prod.mk.injEq, and_true] at htake
  simp only [Bytes.ofCell, ofCell?, htake, UInt32.ofNat_toNat]

end Attributes

namespace RecordTag

/-- A tag accepts itself, alone or with one octet behind it. -/
theorem accepts_iff (tag : RecordTag) (value : Bytes) :
    tag.accepts value = true ↔ value = tag.bytes ∨ ∃ octet, value = tag.bytes ++ [octet] := by
  simp only [accepts, Bool.and_eq_true, Bool.or_eq_true, beq_iff_eq]
  constructor
  · rintro ⟨hlength, htake⟩
    have hsplit := List.take_append_drop tag.bytes.length value
    rw [htake] at hsplit
    have hdrop := List.length_drop (i := tag.bytes.length) (l := value)
    rcases hlength with hlength | hlength
    · rw [hlength, Nat.sub_self, List.length_eq_zero_iff] at hdrop
      rw [hdrop, List.append_nil] at hsplit
      exact .inl hsplit.symm
    · rw [hlength, Nat.add_sub_cancel_left, List.length_eq_one_iff] at hdrop
      obtain ⟨octet, hoctet⟩ := hdrop
      rw [hoctet] at hsplit
      exact .inr ⟨octet, hsplit.symm⟩
  · rintro (rfl | ⟨octet, rfl⟩)
    · simp
    · simp

/-- Properties of which the first one called `magic`, if there is one, is not the tag. -/
def PassesBy (tag : RecordTag) (properties : List DeviceTree.Property) : Prop :=
  ∀ property,
    properties.find? (fun property => property.name == RecordField.magic.property) =
      some property →
    property.value ≠ tag.bytes ∧ ∀ octet, property.value ≠ tag.bytes ++ [octet]

end RecordTag

namespace VariableRecord

/-- Values that write down a record under a tag. -/
structure WrittenAs (record : VariableRecord) (tag : RecordTag) (values : RecordField → Bytes) :
    Prop where
  magic : values .magic = tag.bytes ∨ ∃ octet, values .magic = tag.bytes ++ [octet]
  name : ∃ octets tail,
    values .name = octets ++ tail ∧
    (0 : UInt8) ∉ octets ∧
    (tail = [] ∨ ∃ more, tail = 0 :: more) ∧
    record.name = ⟨octets.map UInt8.toUInt16 ++ [0]⟩
  scope : ∃ chars tail,
    values .scope = Utf8.encode (String.ofList chars) ++ tail ∧
    chars.map Char.toLower = record.scope.toChars
  attributes : values .attributes = Bytes.ofCell record.attributes.bits.toNat
  data : values .data = record.data

/-- Properties that describe a record: one for each field, among others. -/
def DescribedBy
    (record : VariableRecord) (tag : RecordTag) (properties : List DeviceTree.Property) : Prop :=
  ∃ values,
    record.WrittenAs tag values ∧
    ∀ field : RecordField,
      properties.filter (fun property => property.name == field.property) =
        [⟨field.property, values field⟩]

end VariableRecord

/-- What properties describe under a tag: a record, or nothing. -/
def RecordTag.Describes (tag : RecordTag) (properties : List DeviceTree.Property) :
    Option VariableRecord → Prop
  | some record => record.DescribedBy tag properties
  | none => tag.PassesBy properties

namespace VariableRecord

variable {record : VariableRecord} {tag : RecordTag} {values : RecordField → Bytes}

theorem ofAscii_written
    (h : record.WrittenAs tag values) :
    VariableName.ofAscii (Terminated.ofValue (values .name)).bytes = record.name := by
  obtain ⟨octets, tail, hvalue, hnuls, htail, hname⟩ := h.name
  have htext := Terminated.text_ofValue (values .name)
  have hbefore : Bytes.beforeNul (values .name) = octets := by
    rw [hvalue, Bytes.beforeNul_append hnuls]
    rcases htail with rfl | ⟨more, rfl⟩ <;> exact List.append_nil octets
  rw [Terminated.text, hbefore] at htext
  rw [VariableName.ofAscii, htext, hname]

theorem scopeOf_written
    (h : record.WrittenAs tag values) :
    scopeOf (values .scope) = .ok record.scope := by
  obtain ⟨chars, tail, hvalue, hchars⟩ := h.scope
  have htake : (Utf8.encode (String.ofList chars) ++ tail).take Guid.textLength =
      Utf8.encode (String.ofList chars) := by
    rw [← Guid.length_of_toLower hchars, List.take_left]
  have htext : scopeText (values .scope) = Utf8.encode (String.ofList chars) := by
    have hplain := Bytes.beforeNul_append (Guid.zero_notMem_of_toLower hchars) []
    rw [List.append_nil, Bytes.beforeNul_nil, List.append_nil] at hplain
    rw [scopeText, Terminated.text_within, Nat.add_sub_cancel, hvalue, htake, hplain]
  rw [scopeOf, htext, Guid.ofAscii_of_toLower hchars]

theorem attributesOf_written
    (h : record.WrittenAs tag values) :
    attributesOf (values .attributes) = .ok record.attributes := by
  rw [attributesOf, h.attributes, Attributes.ofCell?_ofCell]

end VariableRecord

/-- The value of a property that no other shares its name with is found. -/
theorem DeviceTree.Node.property?_of_filter
    {node : Node} {name : String} {value : Bytes}
    (h : node.outline.properties.filter (fun property => property.name == name) =
      [⟨name, value⟩]) :
    node.property? name = some value := by
  have hfind := List.head?_filter (p := fun property : Property => property.name == name)
    (l := node.outline.properties)
  rw [h] at hfind
  rw [property?, show node.properties.properties = node.outline.properties from rfl, ← hfind]
  rfl

namespace RecordTag

variable {tag : RecordTag} {node : DeviceTree.Node}

theorem read_of_describedBy
    {record : VariableRecord}
    (h : record.DescribedBy tag node.outline.properties) :
    tag.read node = .found record := by
  obtain ⟨values, hwritten, hproperties⟩ := h
  have hvalue (field : RecordField) : node.property? field.property = some (values field) :=
    DeviceTree.Node.property?_of_filter (hproperties field)
  have hmarks : tag.marks node = true := by
    rw [marks, hvalue .magic]
    exact (accepts_iff tag _).2 hwritten.magic
  have hrecord : VariableRecord.ofNode node = .ok record := by
    simp only [VariableRecord.ofNode, VariableRecord.fieldOf, hvalue, bind, Except.bind,
      VariableRecord.scopeOf_written hwritten, VariableRecord.attributesOf_written hwritten,
      VariableRecord.ofAscii_written hwritten, hwritten.data]
    rfl
  rw [read, if_pos hmarks, hrecord]

theorem read_of_passesBy
    (h : tag.PassesBy node.outline.properties) :
    tag.read node = .untagged := by
  have hmarks : ¬ tag.marks node = true := by
    intro hmarks
    rw [marks, DeviceTree.Node.property?, Option.any_map, Option.any_eq_true] at hmarks
    obtain ⟨property, hfound, haccepts⟩ := hmarks
    obtain ⟨halone, hmore⟩ := h property hfound
    rcases (accepts_iff tag property.value).1 haccepts with heq | ⟨octet, heq⟩
    · exact halone heq
    · exact hmore octet heq
  rw [read, if_neg hmarks]

end RecordTag

/-- What a node with a described record turns out to be, or one without any. -/
def Reading.ofRecord? : Option VariableRecord → Reading
  | some record => .found record
  | none => .untagged

/-- Nodes are read as what their properties describe. -/
theorem RecordTag.read_described
    {tag : RecordTag} {node : DeviceTree.Node} {found : Option VariableRecord}
    (h : tag.Describes node.outline.properties found) :
    tag.read node = .ofRecord? found := by
  cases found with
  | none => exact read_of_passesBy h
  | some record => exact read_of_describedBy h

end FirmwareVariables
