import FirmwareVariables.Proofs.DeviceTree.Listing
import FirmwareVariables.Proofs.Guid.Spelling
import FirmwareVariables.Proofs.Variable.Described

/-!
# What a node is read as

What a node is read as depends on five values: those of the first property for each field of a
record, as far as the properties of the node can be read. `RecordTag.Classifies` says what they
make of it. Without the tag the node is an ordinary one. With the tag it is faulty if a fault
spoils the values, and the fault is then the first in the order of the checks; or else it holds
the record that is written in the values.

The main statement, `RecordTag.read_eq_iff`, says that reading gives exactly this, for any node
and any tag, and where the properties of a node stand in the walk over a blob.
-/

namespace FirmwareVariables

/-- The value of the first property with a name, or that there is none. -/
def DeviceTree.FirstValue (properties : List Property) (name : String) : Option Bytes → Prop
  | none => ∀ property ∈ properties, property.name ≠ name
  | some value =>
      ∃ before after,
        properties = before ++ ⟨name, value⟩ :: after ∧
        ∀ property ∈ before, property.name ≠ name

/-- The value that a node has for a field of a record. -/
def DeviceTree.Node.field? (node : Node) (field : RecordField) : Option Bytes :=
  node.property? field.property

/-- A look-up finds the first property with the name before any fault. -/
theorem DeviceTree.Node.firstValue_property? (node : Node) (name : String) :
    FirstValue node.properties.properties name (node.property? name) := by
  unfold property?
  cases hfind : node.properties.properties.find? (fun property => property.name == name) with
  | none =>
      rw [List.find?_eq_none] at hfind
      intro property hproperty
      simpa using hfind property hproperty
  | some property =>
      obtain ⟨hname, before, after, hsplit, hbefore⟩ := List.find?_eq_some_iff_append.1 hfind
      rw [beq_iff_eq] at hname
      subst hname
      refine ⟨before, after, hsplit, fun other hother => ?_⟩
      simpa using hbefore other hother

/-- What is read of the value of a scope: no more than an identifier takes, up to the first NUL. -/
def VariableRecord.cutText (value : Bytes) : Bytes :=
  Bytes.beforeNul (value.take Guid.textLength)

section Values

variable (values : RecordField → Option Bytes)

/-- The values carry a tag: it is there, alone or with one octet behind it. -/
def RecordTag.Tags (tag : RecordTag) : Prop :=
  ∃ value,
    values .magic = some value ∧
    (value = tag.bytes ∨ ∃ octet, value = tag.bytes ++ [octet])

namespace RecordFault

/-- The values have a fault: a field is not there, or what is there is not of its form. -/
def Spoils : RecordFault → Prop
  | missing field => values field = none
  | badScope text cause =>
      ∃ value,
        values .scope = some value ∧
        (∀ guid : Guid, ¬ guid.SpelledBy (VariableRecord.cutText value)) ∧
        Guid.ofAscii (VariableRecord.cutText value) = .error cause ∧
        text = Utf8.decodeLossy (VariableRecord.cutText value)
  | badAttributes size =>
      ∃ value, values .attributes = some value ∧ value.length = size ∧ size ≠ 4

/-- The place that the check for a fault has among the checks. -/
def place : RecordFault → Nat
  | missing .magic => 0
  | missing .name => 1
  | missing .scope => 2
  | badScope _ _ => 3
  | missing .attributes => 4
  | badAttributes _ => 5
  | missing .data => 6

/-- The checks before a place find no fault. -/
def ClearBefore (place : Nat) : Prop :=
  ∀ fault : RecordFault, fault.place < place → ¬ fault.Spoils values

/-- A fault of the values that is checked for before all others they have. -/
structure First (fault : RecordFault) : Prop where
  spoils : fault.Spoils values
  clear : ClearBefore values fault.place

end RecordFault

/-- A record whose fields are written in the values. -/
structure VariableRecord.TakenFrom (record : VariableRecord) : Prop where
  name : ∃ value,
    values .name = some value ∧
    record.name.unitsWithNul = (Bytes.beforeNul value).map UInt8.toUInt16 ++ [0]
  scope : ∃ value,
    values .scope = some value ∧
    record.scope.SpelledBy (cutText value)
  attributes : values .attributes = some (Bytes.ofCell record.attributes.bits.toNat)
  data : values .data = some record.data

/-- What the values make of a node. -/
def RecordTag.Classifies (tag : RecordTag) : Reading → Prop
  | .untagged => ¬ tag.Tags values
  | .malformed fault => tag.Tags values ∧ fault.First values
  | .found record =>
      tag.Tags values ∧
      (∀ fault : RecordFault, ¬ fault.Spoils values) ∧
      record.TakenFrom values

end Values

namespace RecordFault

variable {values : RecordField → Option Bytes}

/-- A missing field has a check of its own. -/
theorem eq_missing_of_place
    {fault : RecordFault} {field : RecordField}
    (h : fault.place = (missing field).place) :
    fault = missing field := by
  cases field <;> fun_cases place fault <;> cases h <;> rfl

theorem exists_badScope_of_place
    {fault : RecordFault} (h : fault.place = 3) :
    ∃ text cause, fault = badScope text cause := by
  fun_cases place fault <;> cases h
  exact ⟨_, _, rfl⟩

theorem exists_badAttributes_of_place
    {fault : RecordFault} (h : fault.place = 5) :
    ∃ size, fault = badAttributes size := by
  fun_cases place fault <;> cases h
  exact ⟨_, rfl⟩

/-- Values have no two faults that one check looks for. -/
theorem Spoils.eq_of_place
    {fault other : RecordFault}
    (h : fault.Spoils values) (hother : other.Spoils values)
    (hplace : fault.place = other.place) :
    fault = other := by
  cases other with
  | missing field => exact eq_missing_of_place hplace
  | badScope text cause =>
      obtain ⟨_, _, rfl⟩ := exists_badScope_of_place hplace
      obtain ⟨value, hvalue, -, herror, rfl⟩ := h
      obtain ⟨_, hagain, -, hcause, rfl⟩ := hother
      obtain rfl := Option.some.inj (hvalue.symm.trans hagain)
      obtain rfl := Except.error.inj (herror.symm.trans hcause)
      rfl
  | badAttributes size =>
      obtain ⟨_, rfl⟩ := exists_badAttributes_of_place hplace
      obtain ⟨value, hvalue, rfl, -⟩ := h
      obtain ⟨_, hagain, rfl, -⟩ := hother
      obtain rfl := Option.some.inj (hvalue.symm.trans hagain)
      rfl

theorem First.unique
    {fault other : RecordFault}
    (h : fault.First values) (hother : other.First values) :
    fault = other := by
  rcases Nat.lt_trichotomy fault.place other.place with hlt | heq | hgt
  · exact absurd h.spoils (hother.clear fault hlt)
  · exact h.spoils.eq_of_place hother.spoils heq
  · exact absurd hother.spoils (h.clear other hgt)

/-- One more check that finds nothing. -/
theorem ClearBefore.next
    {place : Nat}
    (h : ClearBefore values place)
    (hhere : ∀ fault : RecordFault, fault.place = place → ¬ fault.Spoils values) :
    ClearBefore values (place + 1) := by
  intro fault hplace
  rcases Nat.lt_succ_iff_lt_or_eq.1 hplace with hbefore | heq
  · exact h fault hbefore
  · exact hhere fault heq

theorem ClearBefore.next_missing
    {value : Bytes} (field : RecordField)
    (h : ClearBefore values (missing field).place) (hvalue : values field = some value) :
    ClearBefore values ((missing field).place + 1) := by
  refine h.next fun fault hplace hspoils => ?_
  rw [eq_missing_of_place hplace, Spoils, hvalue] at hspoils
  cases hspoils

theorem ClearBefore.next_scope
    {value : Bytes} {guid : Guid}
    (h : ClearBefore values 3) (hvalue : values .scope = some value)
    (hspelled : guid.SpelledBy (VariableRecord.cutText value)) :
    ClearBefore values 4 := by
  refine h.next fun fault hplace hspoils => ?_
  obtain ⟨_, _, rfl⟩ := exists_badScope_of_place hplace
  obtain ⟨_, hagain, hnone, -⟩ := hspoils
  obtain rfl := Option.some.inj (hvalue.symm.trans hagain)
  exact hnone guid hspelled

theorem ClearBefore.next_attributes
    {value : Bytes}
    (h : ClearBefore values 5) (hvalue : values .attributes = some value)
    (hlength : value.length = 4) :
    ClearBefore values 6 := by
  refine h.next fun fault hplace hspoils => ?_
  obtain ⟨_, rfl⟩ := exists_badAttributes_of_place hplace
  obtain ⟨_, hagain, rfl, hne⟩ := hspoils
  obtain rfl := Option.some.inj (hvalue.symm.trans hagain)
  exact hne hlength

/-- Behind the last check there is none. -/
theorem ClearBefore.not_spoils
    (h : ClearBefore values 7) (fault : RecordFault) :
    ¬ fault.Spoils values := by
  refine h fault ?_
  fun_cases place fault <;> decide

end RecordFault

namespace Attributes

/-- Four octets write attributes. -/
theorem exists_ofCell_of_length
    {value : Bytes} (h : value.length = 4) :
    ∃ attributes : Attributes, value = Bytes.ofCell attributes.bits.toNat := by
  match value, h with
  | [a, b, c, d], _ =>
      refine ⟨⟨UInt32.ofNat (Bytes.cell a b c d)⟩, ?_⟩
      rw [UInt32.toNat_ofNat_of_lt' (Bytes.cell_lt a b c d), Bytes.ofCell_cell]

theorem ofCell?_of_length_ne
    {value : Bytes} (h : value.length ≠ 4) :
    ofCell? value = none := by
  unfold ofCell?
  split
  · exact absurd rfl h
  · rfl

end Attributes

namespace VariableRecord

variable {values : RecordField → Option Bytes} {node : DeviceTree.Node}

/-- Values are those of one record only. -/
theorem TakenFrom.unique
    {record other : VariableRecord}
    (h : record.TakenFrom values) (hother : other.TakenFrom values) :
    record = other := by
  have hname : record.name = other.name := by
    obtain ⟨value, hvalue, hunits⟩ := h.name
    obtain ⟨_, hagain, hothers⟩ := hother.name
    obtain rfl := Option.some.inj (hvalue.symm.trans hagain)
    exact congrArg VariableName.mk (hunits.trans hothers.symm)
  have hscope : record.scope = other.scope := by
    obtain ⟨value, hvalue, hspelled⟩ := h.scope
    obtain ⟨_, hagain, hothers⟩ := hother.scope
    obtain rfl := Option.some.inj (hvalue.symm.trans hagain)
    rw [← Guid.ofAscii_eq_ok_iff] at hspelled hothers
    exact Except.ok.inj (hspelled.symm.trans hothers)
  have hattributes : record.attributes = other.attributes := by
    have hcells := Option.some.inj (h.attributes.symm.trans hother.attributes)
    have hread := Attributes.ofCell?_ofCell record.attributes
    rw [hcells, Attributes.ofCell?_ofCell] at hread
    exact (Option.some.inj hread).symm
  have hdata : record.data = other.data :=
    Option.some.inj (h.data.symm.trans hother.data)
  cases record
  cases other
  simp only [mk.injEq]
  exact ⟨hname, hscope, hattributes, hdata⟩

theorem scopeText_eq_cutText (value : Bytes) :
    scopeText value = cutText value :=
  Terminated.text_within _ value

theorem unitsWithNul_ofAscii (value : Bytes) :
    (VariableName.ofAscii (Terminated.ofValue value).bytes).unitsWithNul =
      (Bytes.beforeNul value).map UInt8.toUInt16 ++ [0] := by
  have htext := Terminated.text_ofValue value
  rw [Terminated.text] at htext
  rw [VariableName.ofAscii, htext]

/-- A reading gives what it should, or it ends at the first fault of the values. -/
def ReadsTo {α : Type}
    (values : RecordField → Option Bytes) (outcome : Except RecordFault α) (good : α → Prop) :
    Prop :=
  match outcome with
  | .ok result => good result
  | .error fault => fault.First values

/-- Readings one after the other. -/
theorem ReadsTo.bind
    {α β : Type}
    {outcome : Except RecordFault α} {next : α → Except RecordFault β}
    {good : α → Prop} {better : β → Prop}
    (h : ReadsTo values outcome good)
    (hnext : ∀ result, good result → ReadsTo values (next result) better) :
    ReadsTo values (outcome >>= next) better := by
  cases outcome with
  | error fault => exact h
  | ok result => exact hnext result h

theorem readsTo_fieldOf
    (field : RecordField)
    (hclear : RecordFault.ClearBefore node.field? (RecordFault.missing field).place) :
    ReadsTo node.field? (fieldOf node field) fun value =>
      node.field? field = some value ∧
      RecordFault.ClearBefore node.field? ((RecordFault.missing field).place + 1) := by
  unfold fieldOf
  cases hvalue : node.property? field.property with
  | none => exact ⟨hvalue, hclear⟩
  | some value => exact ⟨hvalue, hclear.next_missing field hvalue⟩

theorem readsTo_scopeOf
    {value : Bytes}
    (hvalue : values .scope = some value) (hclear : RecordFault.ClearBefore values 3) :
    ReadsTo values (scopeOf value) fun scope =>
      scope.SpelledBy (cutText value) ∧ RecordFault.ClearBefore values 4 := by
  rw [scopeOf, scopeText_eq_cutText]
  cases hread : Guid.ofAscii (cutText value) with
  | error cause =>
      have hnever (guid : Guid) : ¬ guid.SpelledBy (cutText value) := by
        intro hspelled
        rw [← Guid.ofAscii_eq_ok_iff, hread] at hspelled
        cases hspelled
      exact ⟨⟨value, hvalue, hnever, hread, rfl⟩, hclear⟩
  | ok scope =>
      have hspelled := Guid.ofAscii_eq_ok_iff.1 hread
      exact ⟨hspelled, hclear.next_scope hvalue hspelled⟩

theorem readsTo_attributesOf
    {value : Bytes}
    (hvalue : values .attributes = some value) (hclear : RecordFault.ClearBefore values 5) :
    ReadsTo values (attributesOf value) fun attributes =>
      value = Bytes.ofCell attributes.bits.toNat ∧ RecordFault.ClearBefore values 6 := by
  rw [attributesOf]
  by_cases hlength : value.length = 4
  · have hnext := hclear.next_attributes hvalue hlength
    obtain ⟨attributes, rfl⟩ := Attributes.exists_ofCell_of_length hlength
    rw [Attributes.ofCell?_ofCell]
    exact ⟨rfl, hnext⟩
  · rw [Attributes.ofCell?_of_length_ne hlength]
    exact ⟨⟨value, hvalue, rfl, hlength⟩, hclear⟩

/-- The fields of a record are read in the order of the checks. -/
theorem readsTo_ofNode
    (hclear : RecordFault.ClearBefore node.field? 1) :
    ReadsTo node.field? (ofNode node) fun record =>
      record.TakenFrom node.field? ∧ RecordFault.ClearBefore node.field? 7 := by
  unfold ofNode
  refine (readsTo_fieldOf .name hclear).bind fun name ⟨hname, hclear⟩ => ?_
  refine (readsTo_fieldOf .scope hclear).bind fun text ⟨htext, hclear⟩ => ?_
  refine (readsTo_scopeOf htext hclear).bind fun scope ⟨hscope, hclear⟩ => ?_
  refine (readsTo_fieldOf .attributes hclear).bind fun cell ⟨hcell, hclear⟩ => ?_
  refine (readsTo_attributesOf hcell hclear).bind fun attributes ⟨hattributes, hclear⟩ => ?_
  refine (readsTo_fieldOf .data hclear).bind fun data ⟨hdata, hclear⟩ => ?_
  refine ⟨?_, hclear⟩
  exact {
    name := ⟨name, hname, unitsWithNul_ofAscii name⟩
    scope := ⟨text, htext, hscope⟩
    attributes := hattributes ▸ hcell
    data := hdata }

end VariableRecord

namespace RecordTag

variable {tag : RecordTag}

theorem marks_iff_tags (tag : RecordTag) (node : DeviceTree.Node) :
    tag.marks node = true ↔ tag.Tags node.field? := by
  rw [marks, Option.any_eq_true]
  simp only [accepts_iff, Tags]
  rfl

/-- Values make one thing of a node. -/
theorem Classifies.unique
    {values : RecordField → Option Bytes} {reading other : Reading}
    (h : tag.Classifies values reading) (hother : tag.Classifies values other) :
    reading = other := by
  cases reading with
  | untagged =>
      cases other with
      | untagged => rfl
      | malformed fault => exact absurd hother.1 h
      | found record => exact absurd hother.1 h
  | malformed fault =>
      cases other with
      | untagged => exact absurd h.1 hother
      | malformed other => exact congrArg Reading.malformed (h.2.unique hother.2)
      | found record => exact absurd h.2.spoils (hother.2.1 fault)
  | found record =>
      cases other with
      | untagged => exact absurd h.1 hother
      | malformed fault => exact absurd hother.2.spoils (h.2.1 fault)
      | found other => exact congrArg Reading.found (h.2.2.unique hother.2.2)

theorem classifies_read (tag : RecordTag) (node : DeviceTree.Node) :
    tag.Classifies node.field? (tag.read node) := by
  by_cases hmarks : tag.marks node = true
  · have htags := (marks_iff_tags tag node).1 hmarks
    obtain ⟨value, hvalue, -⟩ := id htags
    have hstart : RecordFault.ClearBefore node.field? 0 :=
      fun fault hplace => absurd hplace (Nat.not_lt_zero fault.place)
    have hreads := VariableRecord.readsTo_ofNode (hstart.next_missing .magic hvalue)
    rw [read, if_pos hmarks]
    cases hread : VariableRecord.ofNode node with
    | error fault =>
        rw [hread] at hreads
        exact ⟨htags, hreads⟩
    | ok record =>
        rw [hread] at hreads
        exact ⟨htags, hreads.2.not_spoils, hreads.1⟩
  · rw [read, if_neg hmarks]
    exact fun htags => hmarks ((marks_iff_tags tag node).2 htags)

/--
The values that a node is read from are those of the first property for each field, and the node
is read as what they make of it and as nothing else. For a node of a blob these properties are the
ones that the walk over the tokens meets directly behind the beginning of the node.
-/
theorem read_eq_iff (tag : RecordTag) (node : DeviceTree.Node) (reading : Reading) :
    (∀ field : RecordField,
      DeviceTree.FirstValue node.properties.properties field.property (node.field? field)) ∧
    (∀ (blob : DeviceTree.Blob) (earlier later : List DeviceTree.Node),
      blob.nodes.nodes = earlier ++ node :: later →
        ∃ before after behind,
          blob.walk.steps = before ++ (.beginNode node.name, after) :: behind ∧
          before.filterMap (DeviceTree.Node.ofStep? blob.stringsBlock) = earlier ∧
          DeviceTree.Node.ofStep? blob.stringsBlock (.beginNode node.name, after) = some node ∧
          ∀ field : RecordField,
            DeviceTree.FirstValue (DeviceTree.leading (behind.map Prod.fst)) field.property
              (node.field? field)) ∧
    (tag.read node = reading ↔ tag.Classifies node.field? reading) := by
  have hfirst (field : RecordField) :
      DeviceTree.FirstValue node.properties.properties field.property (node.field? field) :=
    node.firstValue_property? field.property
  refine ⟨hfirst, fun blob earlier later hnodes => ?_, ?_, ?_⟩
  · obtain ⟨before, after, behind, hsteps, hearlier, hnode, -, hproperties, -⟩ :=
      DeviceTree.Blob.exists_leading_of_nodes hnodes
    exact ⟨before, after, behind, hsteps, hearlier, hnode, hproperties ▸ hfirst⟩
  · rintro rfl
    exact classifies_read tag node
  · exact (classifies_read tag node).unique

end RecordTag
end FirmwareVariables
