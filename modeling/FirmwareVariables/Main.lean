import FirmwareVariables.CommandLine.Dump

/-!
# The command

Reads the files that a run needs, runs it, and prints what it leaves.
-/

namespace FirmwareVariables
namespace CommandLine

/-- The fault with a code of the system, which comes with either sign, or else with a text. -/
def faultOfCode (code : UInt32) (text : String) : ReadFault :=
  if code = 21 ∨ code + 21 = 0 then .isDirectory
  else if code = 20 ∨ code + 20 = 0 then .notDirectory
  else .other text

/-- Reads a file, or says why it cannot be read. Paths that are no text are not tried. -/
def readFile (path : Bytes) : IO (Except ReadFault Bytes) := do
  let some name := Utf8.decode? path | return .error .notFound
  if name.isEmpty then
    return .error .notFound
  try
    let contents ← IO.FS.readBinFile name
    return .ok contents.data.toList
  catch
    | .noFileOrDirectory .. => return .error .notFound
    | .inappropriateType _ code details =>
        return .error (faultOfCode code details)
    | error => return .error (.other (toString error))

/-- Reads files and gives a reader of their contents. -/
def readFiles (paths : List Bytes) : IO FileReader := do
  let files ← paths.mapM fun path => return (path, ← readFile path)
  return fun path => (files.lookup path).getD (.error .notFound)

end CommandLine
end FirmwareVariables

/--
The command line: exit code, standard output and standard error are those of the run. Arguments and
environment come as text here, so the octets that a run gets are always UTF-8.
-/
def main (arguments : List String) : IO UInt32 := do
  let setting ← IO.getEnv FirmwareVariables.Settings.environmentVariable
  let environment := setting.map FirmwareVariables.Utf8.encode
  let arguments := arguments.map FirmwareVariables.Utf8.encode
  let paths := FirmwareVariables.CommandLine.filesRead arguments environment
  let read ← FirmwareVariables.CommandLine.readFiles paths
  let outcome := FirmwareVariables.CommandLine.run arguments environment read
  IO.print outcome.output
  IO.eprint outcome.errors
  return UInt32.ofNat outcome.exitCode
