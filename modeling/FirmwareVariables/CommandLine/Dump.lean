import FirmwareVariables.CommandLine.Arguments
import FirmwareVariables.Guid.Json
import FirmwareVariables.Restore.Restorer
import FirmwareVariables.Settings
import FirmwareVariables.Store.Ram

/-!
# Listing and replaying records

The command lists the records of a device tree, as lines of text or as JSON, and on request
restores them into an empty store in memory. It fails only when its settings or the device
tree cannot be read; malformed records and failed writes are part of what it reports.
-/

namespace FirmwareVariables

def CacheStats.toJson (stats : CacheStats) : Json :=
  .object [
    ("tagged", .natural stats.tagged),
    ("cached", .natural stats.cached),
    ("malformed", .natural stats.malformed),
    ("dropped", .natural stats.dropped)]

def VariableRecord.Summary.toJson (summary : VariableRecord.Summary) : Json :=
  .object [
    ("name", .text summary.name),
    ("scope", summary.scope.toJson),
    ("attributes", .natural summary.attributes.toNat),
    ("size", .natural summary.size),
    ("data", .text summary.data)]

def Restore.Failure.toJson (failure : Restore.Failure) : Json :=
  .object [
    ("name", .text failure.name),
    ("scope", failure.scope.toJson),
    ("attributes", .natural failure.attributes.toNat),
    ("size", .natural failure.size),
    ("error", .text failure.error)]

def Restore.Report.toJson (report : Restore.Report) : Json :=
  .object [
    ("total", .natural report.total),
    ("restored", .natural report.restored),
    ("failed", .natural report.failed),
    ("conflicts_deleted", .natural report.conflictsDeleted),
    ("failures", .list (report.failures.map Restore.Failure.toJson))]

namespace CommandLine

/-- What the command shows: the cache, and the report if the records were restored. -/
structure Dump where
  cache : VariableCache
  report : Option Restore.Report
deriving DecidableEq, Repr

namespace Dump

def toJson (dump : Dump) : Json :=
  let restore : List (String × Json) :=
    match dump.report with
    | some report => [("restore", report.toJson)]
    | none => []
  .object ([
    ("stats", dump.cache.stats.toJson),
    ("records", .list (dump.cache.records.map fun record => record.summary.toJson))] ++ restore)

def reportLines (report : Restore.Report) : List String :=
  let counts := s!"restore: {report.restored}/{report.total} restored, {report.failed} failed, " ++
    s!"{report.conflictsDeleted} conflicts deleted"
  counts :: report.failures.map fun failure => "  " ++ failure.toText

def lines (dump : Dump) : List String :=
  let stats := dump.cache.stats
  let counts := s!"{stats.cached} cached, {stats.tagged} tagged, {stats.malformed} malformed, " ++
    s!"{stats.dropped} dropped"
  dump.cache.records.map VariableRecord.toText ++ [counts] ++
    match dump.report with
    | some report => reportLines report
    | none => []

def toText (json : Bool) (dump : Dump) : String :=
  if json then
    dump.toJson.pretty 0 ++ "\n"
  else
    String.join (dump.lines.map fun line => line ++ "\n")

end Dump

/-- Why the command fails. -/
inductive Failure where
  | settings (cause : SettingsError)
  | unreadableTree (path : Bytes) (fault : ReadFault)
  | invalidTree (path : Bytes) (cause : CacheError)
  | unarmed (cause : SubscribeError)
deriving DecidableEq, Repr

namespace Failure

def message : Failure → String
  | settings cause => cause.message
  | unreadableTree path _ => s!"failed to read {Utf8.decodeLossy path}"
  | invalidTree path _ => s!"failed to cache records from {Utf8.decodeLossy path}"
  | unarmed cause => cause.message

/-- The messages of what caused a failure, from the nearest cause on. -/
def causes : Failure → List String
  | settings cause => cause.causes
  | unreadableTree _ fault => [fault.message]
  | invalidTree _ (.invalidSource cause) =>
      [(CacheError.invalidSource cause).message, cause.message]
  | unarmed _ => []

/-- The lines of causes, numbered if there are several. -/
def causeLines : List String → List String
  | [] => []
  | [cause] => ["", "Caused by:", s!"    {cause}"]
  | causes =>
      ["", "Caused by:"] ++ causes.mapIdx fun index cause => s!"    {index}: {cause}"

def toText (failure : Failure) : String :=
  let lines := s!"Error: {failure.message}" :: causeLines failure.causes
  String.join (lines.map fun line => line ++ "\n")

end Failure

/-- What the command leaves behind. -/
structure Outcome where
  exitCode : Nat
  output : String
  errors : String
deriving DecidableEq, Repr

/-- The settings that a run goes by: those of its file or the active ones, with its own tag. -/
def settingsFor (options : Options) (environment : Option Bytes) (read : FileReader) :
    Except SettingsError Settings := do
  let settings ← match options.settings with
    | some path => Settings.load read path
    | none => pure (Settings.active read environment).1
  match options.magic with
  | some magic => return { settings with magic }
  | none => return settings

/-- The report of restoring a cache into an empty store, and nothing if there is none. -/
def replay (cache : VariableCache) : Except SubscribeError (Option Restore.Report) :=
  match Restorer.initial.arm .empty with
  | ⟨.error error, _, _⟩ => .error error
  | ⟨.ok _, (restorer, channel), _⟩ =>
      let around : Restore.Surroundings RamStore := ⟨.empty, channel⟩
      match (restorer.exitBootServices cache around).answer with
      | .completed report => .ok (some report)
      | .alreadyDone => .ok none

/-- The dump that a run shows. -/
def dumpFor (options : Options) (environment : Option Bytes) (read : FileReader) :
    Except Failure Dump := do
  let settings ← (settingsFor options environment read).mapError Failure.settings
  let octets ← (read options.tree).mapError (Failure.unreadableTree options.tree)
  let cache ← (VariableCache.ofBytes settings.tag octets).1.mapError
    (Failure.invalidTree options.tree)
  if options.restore then
    return ⟨cache, ← (replay cache).mapError Failure.unarmed⟩
  else
    return ⟨cache, none⟩

def versionLine : String := "efivar-dump 0.1.0\n"

def usageLine : String := "Usage: efivar-dump [OPTIONS] <DTB>\n"

def usage : String :=
  "List and replay variable records from a device tree blob\n\n" ++
  usageLine ++ "\n" ++
  "Arguments:\n" ++
  "  <DTB>  Flattened device tree blob\n\n" ++
  "Options:\n" ++
  "      --magic <MAGIC>    Record tag to match instead of the configured one\n" ++
  "      --config <CONFIG>  TOML configuration file; defaults to $EFIVAR_RESTORE_CONFIG\n" ++
  "      --json             Print JSON instead of text\n" ++
  "      --restore          Replay the records into an in-memory store and report the result\n" ++
  "  -h, --help             Print help\n" ++
  "  -V, --version          Print version\n"

/-- What is said about arguments that do not fit. -/
def UsageError.toText (error : UsageError) : String :=
  s!"error: {error.message}\n\n" ++ usageLine ++ "\nFor more information, try '--help'.\n"

/-- Runs the command with its arguments, the environment's path of the settings, and the files. -/
def run (arguments : List Bytes) (environment : Option Bytes) (read : FileReader) : Outcome :=
  match Request.ofArguments arguments with
  | .error error => ⟨2, "", error.toText⟩
  | .ok .version => ⟨0, versionLine, ""⟩
  | .ok .help => ⟨0, usage, ""⟩
  | .ok (.run options) =>
      match dumpFor options environment read with
      | .error failure => ⟨1, "", failure.toText⟩
      | .ok dump => ⟨0, dump.toText options.json, ""⟩

/-- The files that a run may read. -/
def filesRead (arguments : List Bytes) (environment : Option Bytes) : List Bytes :=
  match Request.ofArguments arguments with
  | .ok (.run options) => options.tree :: (options.settings.or environment).toList
  | _ => []

end CommandLine
end FirmwareVariables
