import FirmwareVariables.Proofs.CommandLine.Tag
import FirmwareVariables.Proofs.DeviceTree.Written
import FirmwareVariables.Proofs.Json.Reading
import FirmwareVariables.Proofs.Restore.Accounting
import FirmwareVariables.Proofs.Variable.Filling

/-!
# How a run ends

A run succeeds or fails, and shows nothing when it fails. `CommandLine.Ready` says what it takes to
succeed: settings, where they are asked for by name, and a device tree with a header that is
accepted. The main statement, `CommandLine.outcome_of_run`, says that nothing else counts: not the
environment, no record, no damage behind the header, and no failure to restore. It also says that
what a run shows on request is JSON, and what a reader finds in it: `CacheShown` is about the cache,
`ReplayShown` about the restoration, and `RecordShown` and `FailureShown` about one item of each.
-/

namespace FirmwareVariables

/-- The value at the end of a path of member names. -/
def Json.at? : List String → Json → Option Json
  | [], value => some value
  | name :: path, .object members =>
      (members.find? fun member => member.1 = name).bind fun member => at? path member.2
  | _ :: _, _ => none

namespace CommandLine

/-- What a run needs. -/
structure Ready (arguments : List Bytes) (read : FileReader) : Prop where
  /-- The settings that the arguments name, if they name any. -/
  settings : ∀ path, Gives "config" arguments path →
    ∃ settings, Settings.load read path = .ok settings
  /-- A device tree that can be read and whose header is accepted. -/
  tree : ∃ path octets blob,
    paths arguments = [path] ∧
      read path = .ok octets ∧
      DeviceTree.Blob.ofBytes octets = .ok blob

/-- What a document shows of a record. -/
structure RecordShown (record : VariableRecord) (shown : Json) : Prop where
  name : shown.at? ["name"] = some (.text record.name.toText)
  scope : shown.at? ["scope"] = some (.text record.scope.toText)
  attributes : shown.at? ["attributes"] = some (.natural record.attributes.bits.toNat)
  size : shown.at? ["size"] = some (.natural record.data.length)
  data : shown.at? ["data"] = some (.text (Hex.ofBytes record.data))

/-- What a document shows of the cache of some nodes. -/
structure CacheShown (tag : RecordTag) (nodes : List DeviceTree.Node) (document : Json) :
    Prop where
  /-- The records of the nodes, in their order. -/
  records : ∃ shown,
    document.at? ["records"] = some (.list shown) ∧
      List.Forall₂ RecordShown (tag.recordsIn nodes) shown
  cached : document.at? ["stats", "cached"] = some (.natural (tag.recordsIn nodes).length)
  tagged : document.at? ["stats", "tagged"] = some (.natural (nodes.countP tag.marks))
  malformed : document.at? ["stats", "malformed"] = some (.natural (tag.malformedIn nodes))
  tally : nodes.countP tag.marks = (tag.recordsIn nodes).length + tag.malformedIn nodes
  dropped : document.at? ["stats", "dropped"] = some (.natural 0)

/-- The attempts to write records into an empty store, one after the other. -/
def attempts (records : List VariableRecord) : List Restore.Attempt :=
  (VariableRecord.replay records RamStore.empty).1.map (·.attempt)

/-- What a document shows of an attempt that failed. -/
structure FailureShown (attempt : Restore.Attempt) (shown : Json) : Prop where
  name : shown.at? ["name"] = some (.text attempt.record.name.toText)
  scope : shown.at? ["scope"] = some (.text attempt.record.scope.toText)
  attributes : shown.at? ["attributes"] = some (.natural attempt.record.attributes.bits.toNat)
  size : shown.at? ["size"] = some (.natural attempt.record.data.length)
  error : ∃ error,
    attempt.error? = some error ∧ shown.at? ["error"] = some (.text error.message)

/-- What a document shows of the restoration of records. -/
structure ReplayShown (records : List VariableRecord) (document : Json) : Prop where
  /-- Each record is attempted once. -/
  attempted : (attempts records).map (·.record) = records
  total : document.at? ["restore", "total"] = some (.natural records.length)
  restored : document.at? ["restore", "restored"] =
    some (.natural ((attempts records).countP fun attempt => attempt.error?.isNone))
  failed : document.at? ["restore", "failed"] =
    some (.natural ((attempts records).countP fun attempt => attempt.error?.isSome))
  tally : records.length =
    (attempts records).countP (fun attempt => attempt.error?.isNone) +
      (attempts records).countP fun attempt => attempt.error?.isSome
  /-- The attempts that failed, in their order. -/
  failures : ∃ shown,
    document.at? ["restore", "failures"] = some (.list shown) ∧
      List.Forall₂ FailureShown
        ((attempts records).filter fun attempt => attempt.error?.isSome) shown

theorem recordShown_toJson (record : VariableRecord) :
    RecordShown record record.summary.toJson where
  name := rfl
  scope := rfl
  attributes := rfl
  size := rfl
  data := rfl

/-- What is shown of failures is shown of the attempts that failed. -/
theorem failuresShown_toJson (attempts : List Restore.Attempt) :
    List.Forall₂ FailureShown (attempts.filter fun attempt => attempt.error?.isSome)
      ((attempts.filterMap (·.failure?)).map Restore.Failure.toJson) := by
  induction attempts with
  | nil => exact .nil
  | cons attempt attempts ih =>
      rw [List.filter_cons, List.filterMap_cons, Restore.Attempt.failure?]
      cases herror : attempt.error? with
      | none => exact ih
      | some error =>
          refine .cons ?_ ih
          exact {
            name := rfl
            scope := rfl
            attributes := rfl
            size := rfl
            error := ⟨error, herror, rfl⟩ }

/-- Nothing in a dump is a floating number, so a reader of its text finds all of it. -/
theorem exact_toJson (dump : Dump) :
    dump.toJson.Exact := by
  have hstats : dump.cache.stats.toJson.Exact := .object (by simp)
  have hrecords : ∀ shown ∈ dump.cache.records.map fun record => record.summary.toJson,
      shown.Exact := by
    rw [List.forall_mem_map]
    exact fun record _ => .object (by simp [Guid.toJson])
  have hreport (report : Restore.Report) : report.toJson.Exact := by
    have hfailures : ∀ shown ∈ report.failures.map Restore.Failure.toJson, shown.Exact := by
      rw [List.forall_mem_map]
      exact fun failure _ => .object (by simp [Guid.toJson])
    exact .object (by simp [Json.Exact.list hfailures])
  rw [Dump.toJson]
  refine .object ?_
  cases dump.report with
  | none => simp [hstats, Json.Exact.list hrecords]
  | some report => simp [hstats, Json.Exact.list hrecords, hreport report]

/-- The document shows the cache that was built, in whatever way the run goes on. -/
theorem cacheShown_toJson (tag : RecordTag) (blob : DeviceTree.Blob)
    (report : Option Restore.Report) :
    CacheShown tag blob.nodes.nodes (Dump.toJson ⟨(VariableCache.ofBlob tag blob).1, report⟩) := by
  rw [VariableCache.ofBlob_eq]
  exact {
    records := by
      refine ⟨_, rfl, ?_⟩
      rw [List.forall₂_map_right_iff, List.forall₂_same]
      exact fun record _ => recordShown_toJson record
    cached := rfl
    tagged := rfl
    malformed := rfl
    tally := tag.countP_marks blob.nodes.nodes
    dropped := rfl }

section Replaying

variable (records : List VariableRecord)

def reportOf : Restore.Report :=
  .ofOutcomes (VariableRecord.replay records RamStore.empty).1

/-- Nothing is in the way of a restoration into an empty store. -/
theorem replay_eq (cache : VariableCache) :
    replay cache = .ok (some (reportOf cache.records)) := by
  rfl

/-- Each record is attempted once, in the order of the records. -/
theorem records_attempts :
    (attempts records).map (·.record) = records := by
  rw [attempts, List.map_map]
  exact VariableRecord.records_replay RamStore.empty records

/-- The report counts the attempts and lists those that failed. -/
theorem reportOf_attempts :
    (reportOf records).total = records.length ∧
      (reportOf records).restored =
        (attempts records).countP (fun attempt => attempt.error?.isNone) ∧
      (reportOf records).failed =
        (attempts records).countP (fun attempt => attempt.error?.isSome) ∧
      (reportOf records).failures = (attempts records).filterMap (·.failure?) := by
  have hlength := congrArg List.length (records_attempts records)
  have hfailure (outcome : Restore.RecordOutcome) :
      outcome.failure?.isSome = outcome.attempt.error?.isSome ∧
        outcome.failure?.isNone = outcome.attempt.error?.isNone := by
    rw [outcome.failure?_eq_attempt, Restore.Attempt.failure?, Option.isSome_map,
      Option.isNone_map]
    exact ⟨rfl, rfl⟩
  rw [List.length_map, attempts, List.length_map] at hlength
  refine ⟨hlength, ?_, ?_, ?_⟩
  · rw [attempts, List.countP_map]
    exact List.countP_congr fun outcome _ => Eq.congr_left (hfailure outcome).2
  · rw [attempts, List.countP_map]
    exact List.countP_congr fun outcome _ => Eq.congr_left (hfailure outcome).1
  · rw [attempts, List.filterMap_map]
    exact List.filterMap_congr fun outcome _ => outcome.failure?_eq_attempt

theorem replayShown_toJson (cache : VariableCache) :
    ReplayShown cache.records (Dump.toJson ⟨cache, some (reportOf cache.records)⟩) := by
  obtain ⟨htotal, hrestored, hfailed, hfailures⟩ := reportOf_attempts cache.records
  obtain ⟨htally, -⟩ := Restore.Report.tally_ofOutcomes
    (VariableRecord.replay cache.records RamStore.empty).1
  exact {
    attempted := records_attempts cache.records
    total := by
      rw [← htotal]
      rfl
    restored := by
      rw [← hrestored]
      rfl
    failed := by
      rw [← hfailed]
      rfl
    tally := by
      rw [← htotal, ← hrestored, ← hfailed]
      exact htally.symm
    failures := by
      refine ⟨_, rfl, ?_⟩
      rw [hfailures]
      exact failuresShown_toJson _ }

end Replaying

section Runs

variable {arguments : List Bytes} {options : Options} {environment : Option Bytes}
  {read : FileReader} {tag : RecordTag} {octets : Bytes} {blob : DeviceTree.Blob}

/-- What a run shows of an accepted blob. -/
def dumpOf (options : Options) (tag : RecordTag) (blob : DeviceTree.Blob) : Dump where
  cache := (VariableCache.ofBlob tag blob).1
  report := if options.restore then some (reportOf (tag.recordsIn blob.nodes.nodes)) else none

/-- A run that comes to build its cache from an accepted blob shows it. -/
theorem dumpFor_of_accepted
    (hbuilds : Builds options environment read tag octets)
    (haccepted : DeviceTree.Blob.ofBytes octets = .ok blob) :
    dumpFor options environment read = .ok (dumpOf options tag blob) := by
  have hcache : (VariableCache.ofBytes tag octets).1 = .ok (VariableCache.ofBlob tag blob).1 := by
    rw [VariableCache.ofBytes, haccepted]
  have hrecords : (VariableCache.ofBlob tag blob).1.records = tag.recordsIn blob.nodes.nodes := by
    rw [VariableCache.ofBlob_eq]
  rw [dumpFor_of_builds hbuilds, hcache, shown, dumpOf, ← hrecords]
  simp only [Except.mapError, replay_eq]
  cases options.restore <;> rfl

/-- There is no other way to show something. -/
theorem exists_dumpFor_iff :
    (∃ dump, dumpFor options environment read = .ok dump) ↔
      ∃ tag octets blob,
        Builds options environment read tag octets ∧
        DeviceTree.Blob.ofBytes octets = .ok blob := by
  constructor
  · rintro ⟨dump, hdump⟩
    rcases dumpFor_cases options environment read with
      ⟨cause, hfailed⟩ | ⟨fault, hfailed⟩ | ⟨tag, octets, hbuilds⟩
    · rw [hfailed] at hdump
      cases hdump
    · rw [hfailed] at hdump
      cases hdump
    · cases haccepted : DeviceTree.Blob.ofBytes octets with
      | ok blob => exact ⟨tag, octets, blob, hbuilds, haccepted⟩
      | error cause =>
          rw [dumpFor_of_builds hbuilds, VariableCache.ofBytes, haccepted] at hdump
          cases hdump
  · rintro ⟨tag, octets, blob, hbuilds, haccepted⟩
    exact ⟨_, dumpFor_of_accepted hbuilds haccepted⟩

/-- There are settings if those can be loaded that are named, whatever the environment names. -/
theorem exists_settingsFor_iff :
    (∃ settings, settingsFor options environment read = .ok settings) ↔
      ∀ path, options.settings = some path →
        ∃ settings, Settings.load read path = .ok settings := by
  rw [settingsFor_eq, settingsBefore]
  cases options.settings with
  | none =>
      constructor
      · intro _ path hpath
        cases hpath
      · intro _
        exact ⟨_, rfl⟩
  | some path =>
      simp only [Option.some.injEq, forall_eq']
      cases Settings.load read path with
      | error cause => constructor <;> rintro ⟨settings, hsettings⟩ <;> cases hsettings
      | ok settings => exact ⟨fun _ => ⟨_, rfl⟩, fun _ => ⟨_, rfl⟩⟩

/-- A run is ready if it comes to build its cache from an accepted blob. -/
theorem ready_iff
    (hrequest : Request.ofArguments arguments = .ok (.run options)) :
    Ready arguments read ↔
      ∃ tag octets blob,
        Builds options environment read tag octets ∧
        DeviceTree.Blob.ofBytes octets = .ok blob := by
  have hsettings : (∃ settings, settingsFor options environment read = .ok settings) ↔
      ∀ path, Gives "config" arguments path →
        ∃ settings, Settings.load read path = .ok settings := by
    rw [exists_settingsFor_iff]
    exact forall_congr' fun path => imp_congr_left (settings_of_ofArguments hrequest path)
  have hpaths := paths_of_ofArguments hrequest
  constructor
  · rintro ⟨hnamed, path, octets, blob, hpath, htree, haccepted⟩
    rw [hpaths, List.singleton_inj] at hpath
    subst hpath
    obtain ⟨settings, hfound⟩ := hsettings.2 hnamed
    exact ⟨settings.tag, octets, blob, ⟨⟨settings, hfound, rfl⟩, htree⟩, haccepted⟩
  · rintro ⟨tag, octets, blob, ⟨⟨settings, hfound, -⟩, htree⟩, haccepted⟩
    exact ⟨hsettings.1 ⟨settings, hfound⟩, options.tree, octets, blob, hpaths, htree, haccepted⟩

/-- The document of such a run. -/
theorem shown_dumpOf (options : Options) (tag : RecordTag) (blob : DeviceTree.Blob) :
    let document := (dumpOf options tag blob).toJson
    CacheShown tag blob.nodes.nodes document ∧
      (document.at? ["restore"]).isSome = options.restore ∧
      (options.restore = true → ReplayShown (tag.recordsIn blob.nodes.nodes) document) := by
  intro document
  have hcache : CacheShown tag blob.nodes.nodes document := cacheShown_toJson tag blob _
  have hrecords : (VariableCache.ofBlob tag blob).1.records = tag.recordsIn blob.nodes.nodes := by
    rw [VariableCache.ofBlob_eq]
  refine ⟨hcache, ?_, fun hrestore => ?_⟩
  · simp only [document, dumpOf]
    cases options.restore <;> rfl
  · simp only [document, dumpOf, hrestore, if_true, ← hrecords]
    exact replayShown_toJson _

/-- A run shows what it has to show, or fails with one code and shows nothing. -/
theorem run_cases
    (hrequest : Request.ofArguments arguments = .ok (.run options))
    (environment : Option Bytes) (read : FileReader) :
    (∃ dump,
        dumpFor options environment read = .ok dump ∧
        run arguments environment read = ⟨0, dump.toText options.json, ""⟩) ∨
      ∃ failure,
        dumpFor options environment read = .error failure ∧
        run arguments environment read = ⟨1, "", failure.toText⟩ := by
  cases hdump : dumpFor options environment read with
  | ok dump =>
      left
      refine ⟨dump, rfl, ?_⟩
      simp only [run, hrequest, hdump]
  | error failure =>
      right
      refine ⟨failure, rfl, ?_⟩
      simp only [run, hrequest, hdump]

/-- A run succeeds if and only if it comes to show something. -/
theorem exitCode_eq_zero_iff
    (hrequest : Request.ofArguments arguments = .ok (.run options))
    (environment : Option Bytes) (read : FileReader) :
    (run arguments environment read).exitCode = 0 ↔
      ∃ dump, dumpFor options environment read = .ok dump := by
  rcases run_cases hrequest environment read with ⟨dump, hdump, hrun⟩ | ⟨failure, hfailure, hrun⟩
  · rw [hrun]
    exact ⟨fun _ => ⟨dump, hdump⟩, fun _ => rfl⟩
  · rw [hrun, hfailure]
    constructor
    · intro hzero
      cases hzero
    · rintro ⟨dump, hdump⟩
      cases hdump

/--
How a run ends. It succeeds if and only if the settings that its arguments name can be loaded, if
they name any, and the header of its device tree is accepted; it fails with one code and shows
nothing then. If it succeeds and is to show JSON, a document is read from what it shows, which shows
the cache of the nodes of the tree, and a restoration if and only if the arguments ask for one.
-/
theorem outcome_of_run
    (hrequest : Request.ofArguments arguments = .ok (.run options))
    (environment : Option Bytes) (read : FileReader) :
    let outcome := run arguments environment read
    (outcome.exitCode = 0 ↔ Ready arguments read) ∧
    (outcome.exitCode ≠ 0 → outcome.exitCode = 1 ∧ outcome.output = "") ∧
    (outcome.exitCode = 0 → Utf8.encode "--json" ∈ front arguments →
      ∃ tag octets blob document,
        Builds options environment read tag octets ∧
        DeviceTree.Blob.ofBytes octets = .ok blob ∧
        Json.read? outcome.output = some document ∧
        CacheShown tag blob.nodes.nodes document ∧
        ((document.at? ["restore"]).isSome = true ↔ Utf8.encode "--restore" ∈ front arguments) ∧
        (Utf8.encode "--restore" ∈ front arguments →
          ReplayShown (tag.recordsIn blob.nodes.nodes) document)) := by
  intro outcome
  have hjson := json_of_ofArguments hrequest
  have hrestore := restore_of_ofArguments hrequest
  have hcode : outcome.exitCode = 0 ↔ ∃ dump, dumpFor options environment read = .ok dump :=
    exitCode_eq_zero_iff hrequest environment read
  refine ⟨?_, ?_, ?_⟩
  · rw [hcode, exists_dumpFor_iff, ready_iff hrequest]
  · intro hfails
    rcases run_cases hrequest environment read with ⟨dump, hdump, -⟩ | ⟨failure, -, hrun⟩
    · exact absurd (hcode.2 ⟨dump, hdump⟩) hfails
    · simp only [outcome, hrun, and_self]
  · intro hzero hasked
    obtain ⟨dump, hdump⟩ := hcode.1 hzero
    obtain ⟨tag, octets, blob, hbuilds, haccepted⟩ := exists_dumpFor_iff.1 ⟨dump, hdump⟩
    obtain ⟨hcache, hpresent, hreplay⟩ := shown_dumpOf options tag blob
    have hoffered := dumpFor_of_accepted hbuilds haccepted
    refine ⟨tag, octets, blob, _, hbuilds, haccepted, ?_, hcache, ?_, ?_⟩
    · rcases run_cases hrequest environment read with ⟨told, htold, hrun⟩ | ⟨failure, hfailure, -⟩
      · rw [hoffered] at htold
        cases htold
        simp only [outcome, hrun, Dump.toText, hjson.2 hasked, if_true]
        exact Json.read?_pretty (exact_toJson _) 0 (List.forall_mem_singleton.2 rfl)
      · rw [hoffered] at hfailure
        cases hfailure
    · rw [hpresent, hrestore]
    · exact fun hwanted => hreplay (hrestore.2 hwanted)

end Runs

section Patchy

/-- A tagged node whose record has this name and these data. -/
def recordSteps (name data : Bytes) : List DeviceTree.WriteStep :=
  [.beginNode "record", .text "magic" "v", .property "name" name,
    .text "guid" "8be4df61-93ca-11d2-aa0d-00e098032b8c", .number "attributes" 7,
    .property "data" data, .endNode]

/--
A record that can be restored, one without a name, one that deletes what is not there, and a node
that is tagged and no more.
-/
def patchySteps : List DeviceTree.WriteStep :=
  [.beginNode ""] ++ recordSteps [0x41, 0] [9] ++ recordSteps [0, 0] [9] ++
    recordSteps [0x42, 0] [] ++ [.beginNode "spare", .text "magic" "v"]

/-- A tree of these steps, with a cell behind them that is no marker. -/
def patchyBlob : DeviceTree.Blob :=
  let written := DeviceTree.Writer.empty.takeAll patchySteps
  let block := written.1 ++ [0xDE, 0xAD, 0xBE, 0xEF]
  let names := written.2.stringsBlock
  ⟨DeviceTree.headerOver block names, DeviceTree.assemble block names, block, names⟩

def patchyTreeAt : FileReader := fun path =>
  if path = Utf8.encode "t" then .ok patchyBlob.bytes else .error .notFound

def patchyArguments : List Bytes :=
  ["t", "--magic", "v", "--json", "--restore"].map Utf8.encode

def patchyOptions : Options where
  tree := Utf8.encode "t"
  magic := some "v"
  settings := none
  json := true
  restore := true

theorem ofArguments_patchy :
    Request.ofArguments patchyArguments = .ok (.run patchyOptions) := by
  decide +kernel

theorem ready_patchy :
    DeviceTree.Blob.ofBytes patchyBlob.bytes = .ok patchyBlob ∧
      Ready patchyArguments patchyTreeAt := by
  have hshort : patchyBlob.bytes.length < 4294967296 := by
    decide +kernel
  have haccepted : DeviceTree.Blob.ofBytes patchyBlob.bytes = .ok patchyBlob :=
    DeviceTree.ofBytes_assemble hshort
  have hpaths := paths_of_ofArguments ofArguments_patchy
  refine ⟨haccepted, ⟨fun path hgives => ?_, _, patchyBlob.bytes, patchyBlob, hpaths, rfl,
    haccepted⟩⟩
  have hnone := (settings_of_ofArguments ofArguments_patchy path).2 hgives
  cases hnone

/--
The environment names a file that is not there, a node is malformed, the tree ends in damage, and
two records of three are not restored. The run succeeds.
-/
theorem outcome_of_run_patchy :
    Request.ofArguments patchyArguments = .ok (.run patchyOptions) ∧
      let outcome := run patchyArguments (some (Utf8.encode "missing")) patchyTreeAt
      outcome.exitCode = 0 ∧
      ∃ document : Json,
        Json.read? outcome.output = some document ∧
        document.at? ["stats", "tagged"] = some (.natural 4) ∧
        document.at? ["stats", "cached"] = some (.natural 3) ∧
        document.at? ["restore", "total"] = some (.natural 3) ∧
        document.at? ["restore", "restored"] = some (.natural 1) ∧
        document.at? ["restore", "failed"] = some (.natural 2) ∧
        ∃ shown, document.at? ["records"] = some (.list shown) ∧ shown.length = 3 := by
  have hsettings : settingsFor patchyOptions (some (Utf8.encode "missing")) patchyTreeAt =
      .ok ⟨true, "v"⟩ :=
    rfl
  obtain ⟨hpatchy, hready⟩ := ready_patchy
  obtain ⟨hcode, -, hjson⟩ :=
    outcome_of_run ofArguments_patchy (some (Utf8.encode "missing")) patchyTreeAt
  have hzero := hcode.2 hready
  obtain ⟨tag, octets, blob, document, ⟨⟨settings, hfound, rfl⟩, htree⟩, haccepted, houtput, hcache,
    -, hreplay⟩ := hjson hzero (by decide)
  rw [hsettings] at hfound
  cases hfound
  cases htree
  rw [hpatchy] at haccepted
  cases haccepted
  have hreplayed := hreplay (by decide)
  obtain ⟨shown, hrecords, hshown⟩ := hcache.records
  refine ⟨ofArguments_patchy, hzero, document, houtput, ?_, ?_, ?_, ?_, ?_, shown, hrecords, ?_⟩
  · exact hcache.tagged.trans (congrArg (some ∘ Json.natural) (by decide +kernel))
  · exact hcache.cached.trans (congrArg (some ∘ Json.natural) (by decide +kernel))
  · exact hreplayed.total.trans (congrArg (some ∘ Json.natural) (by decide +kernel))
  · exact hreplayed.restored.trans (congrArg (some ∘ Json.natural) (by decide +kernel))
  · exact hreplayed.failed.trans (congrArg (some ∘ Json.natural) (by decide +kernel))
  · exact hshown.length_eq.symm.trans (by decide +kernel)

end Patchy

end CommandLine
end FirmwareVariables
