import FirmwareVariables.Text.Utf8

/-!
# Arguments of the command

The command takes the path of a device tree and four options. An option with a value takes it
behind an equals sign or from the next argument; behind two hyphens alone, every argument is
a path. Arguments are read from left to right, and the first one that does not fit decides.

The system hands over octets, and octets are what paths are made of. Only the names of options
and the text of the tag have to be UTF-8.

What `Request.ofArguments` stands for is said without it. `ofArguments_eq_ok_run_iff` says which
arguments ask for a run, `value_of_ofArguments`, `flag_of_ofArguments` and `paths_of_ofArguments`
what they ask it to do, and `ofArguments_spelled` that every run can be asked for.
-/

namespace FirmwareVariables
namespace CommandLine

/-- What a run of the command is to do. -/
structure Options where
  /-- The path of the device tree. -/
  tree : Bytes
  /-- The tag to look for instead of the one in the settings. -/
  magic : Option String
  /-- The path of the settings. -/
  settings : Option Bytes
  json : Bool
  restore : Bool
deriving DecidableEq, Repr

/-- What the arguments ask for. -/
inductive Request where
  | run (options : Options)
  | version
  | help
deriving DecidableEq, Repr

/-- Why the arguments do not fit. What is named is named as it is shown. -/
inductive UsageError where
  | unexpected (argument : String)
  | repeated (option : String)
  | missingValue (option : String)
  | needlessValue (option value : String)
  | missingTree
  | invalidText
deriving DecidableEq, Repr

def UsageError.message : UsageError → String
  | unexpected argument => s!"unexpected argument '{argument}' found"
  | repeated option => s!"the argument '{option}' cannot be used multiple times"
  | missingValue option => s!"a value is required for '{option}' but none was supplied"
  | needlessValue option value =>
      s!"unexpected value '{value}' for '{option}' found; no more were expected"
  | missingTree => "the following required arguments were not provided:\n  <DTB>"
  | invalidText => "invalid UTF-8 was detected in one or more arguments"

/-- Whether an option needs a value. -/
def needsValue (name : String) : Bool :=
  name = "magic" || name = "config"

/-- Whether an option takes no value. -/
def isFlag (name : String) : Bool :=
  name = "json" || name = "restore"

/-- How an option is shown: its name, and what stands for its value if it needs one. -/
def optionText (name : String) : String :=
  if needsValue name then s!"--{name} <{name.toUpper}>" else s!"--{name}"

def treeText : String := "<DTB>"

/-- What the arguments read so far have said. -/
structure Gathered where
  tree : Option Bytes
  magic : Option String
  settings : Option Bytes
  json : Bool
  restore : Bool
deriving DecidableEq, Repr

/-- What an argument is. -/
inductive Shape where
  /-- A value: anything without a hyphen in front, or a hyphen alone. -/
  | plain
  /-- Two hyphens and nothing else. -/
  | separator
  /-- The letter behind one hyphen. -/
  | short (letter : Char)
  /-- A name behind two hyphens, and what stands behind an equals sign. -/
  | long (name : String) (value : Option Bytes)
  /-- Two hyphens with octets behind them that are no name. -/
  | nameless
deriving DecidableEq, Repr

def hyphen : UInt8 := 0x2D

def equalsSign : UInt8 := 0x3D

/-- The shape of an argument with these octets behind two hyphens. -/
def longShape (octets : Bytes) : Shape :=
  if octets.isEmpty then
    .separator
  else
    match Utf8.decode? (octets.takeWhile (· ≠ equalsSign)) with
    | none => .nameless
    | some name =>
        match octets.dropWhile (· ≠ equalsSign) with
        | _ :: value => .long name (some value)
        | [] => .long name none

def shape : Bytes → Shape
  | first :: second :: rest =>
      if first ≠ hyphen then .plain
      else if second ≠ hyphen then .short (Utf8.front second rest).1
      else longShape rest
  | _ => .plain

namespace Gathered

def empty : Gathered :=
  ⟨none, none, none, false, false⟩

def takeTree (gathered : Gathered) (path : Bytes) : Except UsageError Gathered :=
  match gathered.tree with
  | some _ => .error (.unexpected (Utf8.decodeLossy path))
  | none =>
      if path.isEmpty then
        .error (.missingValue treeText)
      else
        .ok { gathered with tree := some path }

def takeMagic (gathered : Gathered) (value : Bytes) : Except UsageError Gathered :=
  match gathered.magic with
  | some _ => .error (.repeated (optionText "magic"))
  | none =>
      match Utf8.decode? value with
      | none => .error .invalidText
      | some magic => .ok { gathered with magic := some magic }

def takeSettings (gathered : Gathered) (path : Bytes) : Except UsageError Gathered :=
  match gathered.settings with
  | some _ => .error (.repeated (optionText "config"))
  | none =>
      if path.isEmpty then
        .error (.missingValue (optionText "config"))
      else
        .ok { gathered with settings := some path }

def takeFlag (gathered : Gathered) (name : String) : Except UsageError Gathered :=
  if name = "json" then
    if gathered.json then
      .error (.repeated (optionText name))
    else
      .ok { gathered with json := true }
  else
    if gathered.restore then
      .error (.repeated (optionText name))
    else
      .ok { gathered with restore := true }

def takeValue (gathered : Gathered) (name : String) (value : Bytes) :
    Except UsageError Gathered :=
  if name = "magic" then gathered.takeMagic value else gathered.takeSettings value

/-- The request, when all arguments have been read. -/
def request (gathered : Gathered) : Except UsageError Request :=
  match gathered.tree with
  | none => .error .missingTree
  | some tree =>
      .ok (.run ⟨tree, gathered.magic, gathered.settings, gathered.json, gathered.restore⟩)

end Gathered

/-- Reads the arguments behind those read so far. -/
def readFrom (gathered : Gathered) : List Bytes → Except UsageError Request
  | [] => gathered.request
  | argument :: rest =>
      match shape argument with
      | .plain => do readFrom (← gathered.takeTree argument) rest
      | .separator => do (← rest.foldlM Gathered.takeTree gathered).request
      | .short letter =>
          if letter = 'V' then .ok .version
          else if letter = 'h' then .ok .help
          else .error (.unexpected s!"-{letter}")
      | .long name value =>
          if needsValue name then
            match value, rest with
            | some value, rest => do readFrom (← gathered.takeValue name value) rest
            | none, [] => .error (.missingValue (optionText name))
            | none, next :: rest =>
                if shape next = .plain then do
                  readFrom (← gathered.takeValue name next) rest
                else
                  .error (.missingValue (optionText name))
          else if isFlag name || name = "version" || name = "help" then
            match value with
            | some value => .error (.needlessValue (optionText name) (Utf8.decodeLossy value))
            | none =>
                if name = "version" then .ok .version
                else if name = "help" then .ok .help
                else do readFrom (← gathered.takeFlag name) rest
          else
            .error (.unexpected (optionText name))
      | .nameless => .error (.unexpected (Utf8.decodeLossy argument))

/-- What the arguments ask for. -/
def Request.ofArguments (arguments : List Bytes) : Except UsageError Request :=
  readFrom .empty arguments

end CommandLine
end FirmwareVariables
