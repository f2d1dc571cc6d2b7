import FirmwareVariables.CommandLine.Dump
import FirmwareVariables.DeviceTree.Writer
import FirmwareVariables.Proofs.CommandLine.Arguments
import FirmwareVariables.Proofs.Variable.Described

/-!
# The tag of a run

A run looks for records by one tag. No settings have an empty one, wherever they come from, but the
option for the tag may give any text in its place, and that text is not looked at again. `Builds`
says with which tag and from which octets a run comes to build the cache, and `dumpFor_cases` that
nothing else decides what it shows.

The main statement, `CommandLine.tag_of_run`, says where the tag comes from, and that it is empty if
and only if the arguments give the option the empty text. `CommandLine.empty_tag_marks` is a run in
which they do.
-/

namespace FirmwareVariables

theorem Utf8.encode_eq_nil_iff {text : String} :
    encode text = [] ↔ text = "" := by
  have hempty : encode "" = [] := rfl
  rw [← hempty, encode_inj]

namespace Settings

/-- Settings are not accepted with an empty tag. -/
theorem magic_ne_of_ofToml
    {document : String} {settings : Settings} (h : ofToml document = .ok settings) :
    settings.magic ≠ "" := by
  unfold ofToml at h
  split at h
  · cases h
  · split at h
    · cases h
    · split at h
      · cases h
      · rename_i hempty
        cases h
        intro hmagic
        exact hempty (by rw [hmagic]; rfl)

theorem magic_ne_of_load
    {read : FileReader} {path : Bytes} {settings : Settings} (h : load read path = .ok settings) :
    settings.magic ≠ "" := by
  unfold load at h
  split at h
  · cases h
  · exact magic_ne_of_ofToml h

/-- The active settings have a tag, also when they fall back to the standard ones. -/
theorem magic_active_ne (read : FileReader) (path : Option Bytes) :
    (active read path).1.magic ≠ "" := by
  have hstandard : standard.magic ≠ "" := by
    decide
  unfold active
  split
  · exact hstandard
  · split
    · rename_i hload
      exact magic_ne_of_load hload
    · exact hstandard

end Settings

namespace CommandLine

section Runs

variable {arguments : List Bytes} {options : Options} {environment : Option Bytes}
  {read : FileReader} {tag : RecordTag} {octets : Bytes}

/-- A run comes to build the cache, with this tag and from these octets. -/
structure Builds (options : Options) (environment : Option Bytes) (read : FileReader)
    (tag : RecordTag) (octets : Bytes) : Prop where
  /-- There are settings, and the tag is theirs. -/
  settings : ∃ settings, settingsFor options environment read = .ok settings ∧ settings.tag = tag
  /-- The device tree can be read. -/
  tree : read options.tree = .ok octets

/-- What a run shows of a cache, or why it shows nothing. -/
def shown (options : Options) (built : Except CacheError VariableCache) : Except Failure Dump := do
  let cache ← built.mapError (Failure.invalidTree options.tree)
  if options.restore then
    return ⟨cache, ← (replay cache).mapError Failure.unarmed⟩
  else
    return ⟨cache, none⟩

theorem dumpFor_of_builds (h : Builds options environment read tag octets) :
    dumpFor options environment read = shown options (VariableCache.ofBytes tag octets).1 := by
  obtain ⟨⟨settings, hsettings, rfl⟩, htree⟩ := h
  rw [dumpFor, hsettings, htree]
  rfl

/-- A run fails before there is a cache, or shows the cache that it builds. -/
theorem dumpFor_cases (options : Options) (environment : Option Bytes) (read : FileReader) :
    (∃ cause, dumpFor options environment read = .error (.settings cause)) ∨
    (∃ fault, dumpFor options environment read = .error (.unreadableTree options.tree fault)) ∨
    ∃ tag octets, Builds options environment read tag octets := by
  cases hsettings : settingsFor options environment read with
  | error cause =>
      left
      refine ⟨cause, ?_⟩
      rw [dumpFor, hsettings]
      rfl
  | ok settings =>
      cases htree : read options.tree with
      | error fault =>
          right
          left
          refine ⟨fault, ?_⟩
          rw [dumpFor, hsettings, htree]
          rfl
      | ok octets =>
          right
          right
          exact ⟨settings.tag, octets, ⟨⟨settings, hsettings, rfl⟩, htree⟩⟩

/-- The settings of a run before the option for the tag counts. -/
def settingsBefore (options : Options) (environment : Option Bytes) (read : FileReader) :
    Except SettingsError Settings :=
  match options.settings with
  | some path => Settings.load read path
  | none => .ok (Settings.active read environment).1

/-- The option for the tag replaces the text of the tag and nothing else. -/
theorem settingsFor_eq (options : Options) (environment : Option Bytes) (read : FileReader) :
    settingsFor options environment read =
      (settingsBefore options environment read).map fun settings =>
        { settings with magic := options.magic.getD settings.magic } := by
  obtain ⟨tree, magic, path, json, restore⟩ := options
  cases path with
  | none => cases magic <;> rfl
  | some path =>
      simp only [settingsFor, settingsBefore]
      cases Settings.load read path with
      | error cause => rfl
      | ok settings => cases magic <;> rfl

theorem magic_settingsBefore_ne
    {settings : Settings} (h : settingsBefore options environment read = .ok settings) :
    settings.magic ≠ "" := by
  unfold settingsBefore at h
  split at h
  · exact Settings.magic_ne_of_load h
  · cases h
    exact Settings.magic_active_ne read environment

/-- The text of the tag is that of the option, or one that settings have been accepted with. -/
theorem magic_of_settingsFor
    {settings : Settings} (h : settingsFor options environment read = .ok settings) :
    (∀ magic, options.magic = some magic → settings.magic = magic) ∧
      (options.magic = none → settings.magic ≠ "") := by
  rw [settingsFor_eq] at h
  cases hbefore : settingsBefore options environment read with
  | error cause =>
      rw [hbefore] at h
      cases h
  | ok before =>
      rw [hbefore] at h
      obtain rfl := Except.ok.inj h
      constructor
      · intro magic hmagic
        simp only [hmagic, Option.getD_some]
      · intro hnone
        simp only [hnone, Option.getD_none]
        exact magic_settingsBefore_ne hbefore

/-- The empty tag marks every node with a `magic` property of at most one octet. -/
theorem marks_of_empty (h : tag.bytes = []) (node : DeviceTree.Node) :
    tag.marks node = true ↔
      ∃ value, node.property? RecordField.magic.property = some value ∧ value.length ≤ 1 := by
  have haccepts (value : Bytes) : tag.accepts value = true ↔ value.length ≤ 1 := by
    rw [RecordTag.accepts_iff, h, Nat.le_one_iff_eq_zero_or_eq_one, List.length_eq_zero_iff,
      List.length_eq_one_iff]
    rfl
  cases hvalue : node.property? RecordField.magic.property with
  | none => simp [RecordTag.marks, hvalue]
  | some value => simp [RecordTag.marks, hvalue, haccepts]

/--
The tag of a run that comes to build its cache. All that the run shows is of the cache that is built
with this tag. If the arguments give the option for the tag a text, it is the tag of that text,
and otherwise it comes from settings and is not empty. So it is empty if and only if the arguments
give the option the empty text, and then it marks all nodes with at most one octet of `magic`.
-/
theorem tag_of_run
    (hrequest : Request.ofArguments arguments = .ok (.run options))
    (hbuilds : Builds options environment read tag octets) :
    dumpFor options environment read = shown options (VariableCache.ofBytes tag octets).1 ∧
    (∀ magic, GivesTag arguments magic → tag = RecordTag.ofText magic) ∧
    ((∀ magic, ¬ GivesTag arguments magic) → tag.bytes ≠ []) ∧
    (tag.bytes = [] ↔ GivesTag arguments "") ∧
    (GivesTag arguments "" → ∀ node,
      tag.marks node = true ↔
        ∃ value, node.property? RecordField.magic.property = some value ∧ value.length ≤ 1) := by
  have hoption := magic_of_ofArguments hrequest
  have hshown := dumpFor_of_builds hbuilds
  obtain ⟨⟨settings, hsettings, rfl⟩, htree⟩ := hbuilds
  obtain ⟨hgiven, hkept⟩ := magic_of_settingsFor hsettings
  have hgives : ∀ magic, GivesTag arguments magic → settings.tag = RecordTag.ofText magic := by
    intro magic hgives
    rw [Settings.tag, hgiven magic ((hoption magic).2 hgives)]
  have hnamed : (∀ magic, ¬ GivesTag arguments magic) → settings.tag.bytes ≠ [] := by
    intro hsilent hempty
    have hnone : options.magic = none :=
      Option.eq_none_iff_forall_ne_some.2 fun magic hmagic =>
        hsilent magic ((hoption magic).1 hmagic)
    exact hkept hnone (Utf8.encode_eq_nil_iff.1 hempty)
  have hempty : settings.tag.bytes = [] ↔ GivesTag arguments "" := by
    constructor
    · intro hempty
      cases hmagic : options.magic with
      | none => exact absurd (Utf8.encode_eq_nil_iff.1 hempty) (hkept hmagic)
      | some magic =>
          have hgiving := (hoption magic).1 hmagic
          rw [hgives magic hgiving] at hempty
          rwa [Utf8.encode_eq_nil_iff.1 hempty] at hgiving
    · intro hgiving
      rw [hgives "" hgiving]
      rfl
  exact ⟨hshown, hgives, hnamed, hempty, fun hmagic => marks_of_empty (hempty.2 hmagic)⟩

end Runs

section Emptied

/-- A tree of which the one node has an empty `magic` property and no other. -/
def blankTree : Bytes :=
  DeviceTree.write [.beginNode "", .property "magic" [], .endNode]

def blankTreeAt : FileReader := fun path =>
  if path = Utf8.encode "t" then .ok blankTree else .error .notFound

/-- The options of a run over that tree with the empty text as the tag. -/
def emptyTagOptions : Options where
  tree := Utf8.encode "t"
  magic := some ""
  settings := none
  json := false
  restore := false

def emptyTagArguments : List Bytes :=
  ["t", "--magic", ""].map Utf8.encode

theorem ofArguments_emptyTag :
    Request.ofArguments emptyTagArguments = .ok (.run emptyTagOptions) := by
  decide +kernel

theorem builds_emptyTag :
    Builds emptyTagOptions none blankTreeAt ⟨[]⟩ blankTree :=
  ⟨⟨⟨true, ""⟩, rfl, rfl⟩, rfl⟩

/-- The empty text given, a run counts every node with at most one octet of `magic` as tagged. -/
theorem tag_of_run_emptied :
    GivesTag emptyTagArguments "" ∧
      ∀ node, RecordTag.marks ⟨[]⟩ node = true ↔
        ∃ value, node.property? RecordField.magic.property = some value ∧ value.length ≤ 1 := by
  have hgives : GivesTag emptyTagArguments "" := by
    right
    decide
  obtain ⟨-, -, -, -, hmarks⟩ := tag_of_run ofArguments_emptyTag builds_emptyTag
  exact ⟨hgives, hmarks hgives⟩

/-- The option gives the empty text, and a node without a record counts as tagged. -/
theorem empty_tag_marks :
    Request.ofArguments emptyTagArguments = .ok (.run emptyTagOptions) ∧
      Builds emptyTagOptions none blankTreeAt ⟨[]⟩ blankTree ∧
      run emptyTagArguments none blankTreeAt =
        ⟨0, "0 cached, 1 tagged, 1 malformed, 0 dropped\n", ""⟩ := by
  refine ⟨ofArguments_emptyTag, builds_emptyTag, ?_⟩
  decide +kernel

end Emptied

end CommandLine
end FirmwareVariables
