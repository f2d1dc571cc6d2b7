import FirmwareVariables.Text.Utf8

/-!
# Reading files

Whatever reads a file gets the octets or a fault. A path is octets as well. A directory of given
files resolves a path the way a file system does: step by step from the directory, where only a
directory can be stepped into.
-/

namespace FirmwareVariables

/-- Why a file cannot be read. -/
inductive ReadFault where
  | notFound
  | notDirectory
  | isDirectory
  | nameTooLong
  | nulInPath
  | invalidText
  | other (text : String)
deriving DecidableEq, Repr

def ReadFault.message : ReadFault → String
  | notFound => "No such file or directory (os error 2)"
  | notDirectory => "Not a directory (os error 20)"
  | isDirectory => "Is a directory (os error 21)"
  | nameTooLong => "File name too long (os error 36)"
  | nulInPath => "file name contained an unexpected NUL byte"
  | invalidText => "stream did not contain valid UTF-8"
  | other text => text

/-- What a path leads to. -/
abbrev FileReader := Bytes → Except ReadFault Bytes

def FileReader.readText (read : FileReader) (path : Bytes) : Except ReadFault String := do
  match Utf8.decode? (← read path) with
  | some text => return text
  | none => .error .invalidText

/-- A directory that holds the given files and nothing else. -/
structure Directory where
  files : List (Bytes × Bytes)
deriving DecidableEq, Repr

namespace Directory

/-- The longest name of a step of a path, in octets. -/
def longestName : Nat := 255

/-- The longest path, in octets. -/
def longestPath : Nat := 4095

/-- A place that a path has come to. -/
inductive Place where
  /-- A directory outside the given one. -/
  | outside
  /-- The given directory, or one inside it that the names lead to. -/
  | inside (names : List Bytes)
  /-- A file. -/
  | file (contents : Bytes)
deriving DecidableEq, Repr

def slash : UInt8 := 0x2F

/-- The name of a directory in itself. -/
def itself : Bytes := [0x2E]

/-- The name in a directory of the one around it. -/
def parent : Bytes := [0x2E, 0x2E]

/-- One step of a path from a place. -/
def step (directory : Directory) (place : Place) (name : Bytes) : Except ReadFault Place :=
  match place with
  | .file _ => .error .notDirectory
  | .outside =>
      if name = [] ∨ name = itself ∨ name = parent then
        .ok .outside
      else if longestName < name.length then
        .error .nameTooLong
      else
        .error .notFound
  | .inside names =>
      if name = [] ∨ name = itself then
        .ok (.inside names)
      else if name = parent then
        if names.isEmpty then .ok .outside else .ok (.inside names.dropLast)
      else if longestName < name.length then
        .error .nameTooLong
      else
        let path := [slash].intercalate (names ++ [name])
        match directory.files.find? fun file => file.1 == path with
        | some file => .ok (.file file.2)
        | none =>
            if directory.files.any fun file => (path ++ [slash]).isPrefixOf file.1 then
              .ok (.inside (names ++ [name]))
            else
              .error .notFound

/-- The file that a path leads to from the directory. -/
def read (directory : Directory) : FileReader := fun path => do
  if 0 ∈ path then
    .error .nulInPath
  else if path = [] then
    .error .notFound
  else if longestPath < path.length then
    .error .nameTooLong
  else
    let start : Place := if path.head? = some slash then .outside else .inside []
    match ← (Bytes.split slash path).foldlM directory.step start with
    | .file contents => return contents
    | .outside => .error .isDirectory
    | .inside _ => .error .isDirectory

end Directory
end FirmwareVariables
