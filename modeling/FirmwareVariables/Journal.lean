/-!
# Journals

What an operation has to say about its work, as a list of messages with a level. An
operation returns its messages beside its result, so that a caller can keep them, show
them or drop them.
-/

namespace FirmwareVariables

/-- How much a message matters. -/
inductive Level where
  | error
  | warning
  | info
  | debug
deriving DecidableEq, Repr

def Level.label : Level → String
  | error => "ERROR"
  | warning => "WARN"
  | info => "INFO"
  | debug => "DEBUG"

structure Message where
  level : Level
  text : String
deriving DecidableEq, Repr

namespace Message

/-- A message that something failed. -/
def error (text : String) : Message := ⟨.error, text⟩

/-- A message that something was left out. -/
def warning (text : String) : Message := ⟨.warning, text⟩

/-- A message about the course of the work. -/
def info (text : String) : Message := ⟨.info, text⟩

/-- A message about a detail of the work. -/
def debug (text : String) : Message := ⟨.debug, text⟩

/-- The message in one line, with its level in front. -/
def line (message : Message) : String :=
  s!"{message.level.label}: {message.text}"

end Message

/-- Messages in the order in which they were given. -/
abbrev Journal := List Message

/-- What an operation on a state gives: its answer, the state that it leaves, and its messages. -/
structure Reply (α σ : Type) where
  answer : α
  state : σ
  journal : Journal

end FirmwareVariables
