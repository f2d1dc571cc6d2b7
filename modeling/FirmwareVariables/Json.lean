import FirmwareVariables.Text.Shortest

/-!
# JSON values

The values of JSON and their text over several lines: two blanks for each level, a value a
line, and empty lists and objects closed on the line where they open. What `Json.pretty` stands for
is not this layout but JSON: `Json.read?_pretty` says that any reader of the grammar gets the value
back, as long as no floating number is in it.
-/

namespace FirmwareVariables

/-- A JSON value. The members of an object keep their order. -/
inductive Json where
  | null
  | boolean (value : Bool)
  | integer (value : Int)
  | floating (value : Float)
  | text (value : String)
  | list (values : List Json)
  | object (members : List (String × Json))

namespace Json

def natural (n : Nat) : Json :=
  .integer n

/-- The written form of a character inside quotes. -/
def escape (c : Char) : List Char :=
  if c = '"' then ['\\', '"']
  else if c = '\\' then ['\\', '\\']
  else if c = '\n' then ['\\', 'n']
  else if c = '\r' then ['\\', 'r']
  else if c = '\t' then ['\\', 't']
  else if c.toNat = 0x08 then ['\\', 'b']
  else if c.toNat = 0x0C then ['\\', 'f']
  else if c.toNat < 0x20 then
    ['\\', 'u', '0', '0', Nat.digitChar (c.toNat / 16), Nat.digitChar (c.toNat % 16)]
  else [c]

def quote (text : String) : String :=
  String.ofList ('"' :: text.toList.flatMap escape ++ ['"'])

/-- The beginning of a line at a level. -/
def newline (level : Nat) : String :=
  String.ofList ('\n' :: List.replicate (2 * level) ' ')

/-- Items between brackets, each on a line of the next level. -/
def bracketed (opening closing : String) (level : Nat) (items : List String) : String :=
  if items.isEmpty then
    opening ++ closing
  else
    let separator := "," ++ newline (level + 1)
    opening ++ newline (level + 1) ++ separator.intercalate items ++ newline level ++ closing

mutual

/-- The text of a value whose first line is at a level. -/
def pretty (level : Nat) : Json → String
  | .null => "null"
  | .boolean value => if value then "true" else "false"
  | .integer value => toString value
  | .floating value => Shortest.ofFloat value
  | .text value => quote value
  | .list values => bracketed "[" "]" level (prettyItems (level + 1) values)
  | .object members => bracketed "\x7b" "\x7d" level (prettyMembers (level + 1) members)

def prettyItems (level : Nat) : List Json → List String
  | [] => []
  | value :: values => pretty level value :: prettyItems level values

def prettyMembers (level : Nat) : List (String × Json) → List String
  | [] => []
  | (name, value) :: members =>
      (quote name ++ ": " ++ pretty level value) :: prettyMembers level members

end

end Json
end FirmwareVariables
