import FirmwareVariables.Toml.Text

/-!
# Settings documents

The part of TOML in which settings are written: lines that assign a boolean or a string to a
key, blank lines and comments. Keys are bare or quoted. Tables, dotted keys and values of other
types have no place among settings, so a document with any of them is refused, as is one that
is not well formed or assigns a key twice.

The main statement, `line_shrinks`, says that every line takes at least one character, so the
reading of the lines comes to an end. What `Toml.read?` stands for is said by `Toml.read?_written`,
on documents that are written out, and for the settings by `Settings.ofToml_eq_ok_iff`.
-/

namespace FirmwareVariables
namespace Toml

/-- A value that a setting can have. -/
inductive Value where
  | boolean (value : Bool)
  | text (value : String)
deriving DecidableEq, Repr

/-- A character of a key without quotes. -/
def isBareKeyChar (c : Char) : Bool :=
  c.isAlphanum || c == '-' || c == '_'

def skipBlanks (text : List Char) : List Char :=
  text.dropWhile isBlank

/-- The text behind a comment at the front, if there is one. -/
def skipComment : List Char → List Char
  | '#' :: rest => rest.dropWhile isLineChar
  | text => text

/-- The text behind what may follow on a line, and the end of the line or of the text. -/
def restOfLine? (text : List Char) : Option (List Char) :=
  match skipComment (skipBlanks text) with
  | [] => some []
  | rest => newline? rest

/-- A key without dots, bare or in quotes on one line. -/
def key : Reader (List Char)
  | '"' :: rest => basicRest false .plain rest
  | '\'' :: rest => literalRest rest
  | text =>
      match text.takeWhile isBareKeyChar with
      | [] => none
      | name => some (name, text.dropWhile isBareKeyChar)

/-- The text behind a word at its front. -/
def behind? (word text : List Char) : Option (List Char) :=
  if word.isPrefixOf text then some (text.drop word.length) else none

def value (text : List Char) : Option (Value × List Char) :=
  match behind? "true".toList text, behind? "false".toList text with
  | some rest, _ => some (.boolean true, rest)
  | none, some rest => some (.boolean false, rest)
  | none, none => (string text).map fun (text, rest) => (.text (String.ofList text), rest)

/-- An assignment and the rest of its line. -/
def assignment (text : List Char) : Option ((String × Value) × List Char) := do
  let (name, text) ← key text
  match skipBlanks text with
  | '=' :: text =>
      let (assigned, text) ← value (skipBlanks text)
      let rest ← restOfLine? text
      return ((String.ofList name, assigned), rest)
  | _ => none

def line (text : List Char) : Option (List (String × Value) × List Char) :=
  match restOfLine? text with
  | some rest => some ([], rest)
  | none => (assignment (skipBlanks text)).map fun (entry, rest) => ([entry], rest)

theorem length_skipBlanks_le (text : List Char) :
    (skipBlanks text).length ≤ text.length :=
  length_dropWhile_le isBlank text

theorem length_skipComment_le (text : List Char) :
    (skipComment text).length ≤ text.length := by
  unfold skipComment
  split
  · rename_i rest
    exact Nat.le_succ_of_le (length_dropWhile_le isLineChar rest)
  · simp

theorem length_of_restOfLine? {text rest : List Char} (h : restOfLine? text = some rest) :
    rest.length ≤ text.length := by
  have hcomment := length_skipComment_le (skipBlanks text)
  have hblanks := length_skipBlanks_le text
  unfold restOfLine? at h
  split at h
  · cases h
    simp
  · have hnewline := length_of_newline? h
    omega

/-- A line that holds nothing takes at least its end. -/
theorem restOfLine?_shrinks {text rest : List Char} (htext : text ≠ [])
    (h : restOfLine? text = some rest) :
    rest.length < text.length := by
  have hcomment := length_skipComment_le (skipBlanks text)
  have hblanks := length_skipBlanks_le text
  unfold restOfLine? at h
  split at h
  · cases h
    exact List.length_pos_iff.2 htext
  · have hnewline := length_of_newline? h
    omega

theorem leavesAtMost_key (text : List Char) :
    LeavesAtMost text.length (key text) := by
  unfold key
  split
  · exact (leavesAtMost_basicRest false .plain _).mono (by simp)
  · exact (leavesAtMost_literalRest _).mono (by simp)
  · split
    · exact leavesAtMost_none _
    · exact leavesAtMost_some (length_dropWhile_le isBareKeyChar _)

theorem length_of_behind? {word text rest : List Char} (h : behind? word text = some rest) :
    rest.length ≤ text.length := by
  simp only [behind?, Option.ite_none_right_eq_some] at h
  cases h.2
  simp

theorem leavesAtMost_value (text : List Char) :
    LeavesAtMost text.length (value text) := by
  unfold value
  split
  · rename_i hword
    exact leavesAtMost_some (length_of_behind? hword)
  · rename_i hword
    exact leavesAtMost_some (length_of_behind? hword)
  · intro found rest h
    obtain ⟨⟨read, _⟩, hsome, hfound⟩ := Option.map_eq_some_iff.1 h
    cases hfound
    exact leavesAtMost_string text read rest hsome

/-- An assignment takes at least its equals sign. -/
theorem assignment_shrinks {text rest : List Char} {entry : String × Value}
    (h : assignment text = some (entry, rest)) :
    rest.length < text.length := by
  simp only [assignment, Option.bind_eq_bind, Option.bind_eq_some_iff, Prod.exists] at h
  obtain ⟨name, behindKey, hkey, h⟩ := h
  have hkeyLength := leavesAtMost_key text name behindKey hkey
  have hblanks := length_skipBlanks_le behindKey
  split at h
  · rename_i behindSign hsign
    simp only [Option.bind_eq_some_iff, Prod.exists] at h
    obtain ⟨assigned, behindValue, hvalue, after, hafter, hentry⟩ := h
    cases hentry
    have hvalueLength := leavesAtMost_value (skipBlanks behindSign) assigned behindValue hvalue
    have hvalueBlanks := length_skipBlanks_le behindSign
    have hrest := length_of_restOfLine? hafter
    rw [hsign, List.length_cons] at hblanks
    omega
  · cases h

/-- Every line takes at least one character. -/
theorem line_shrinks {text rest : List Char} {entries : List (String × Value)}
    (htext : text ≠ []) (h : line text = some (entries, rest)) :
    rest.length < text.length := by
  unfold line at h
  split at h
  · rename_i hrest
    cases h
    exact restOfLine?_shrinks htext hrest
  · obtain ⟨⟨entry, after⟩, hassignment, hentries⟩ := Option.map_eq_some_iff.1 h
    cases hentries
    exact Nat.lt_of_lt_of_le (assignment_shrinks hassignment) (length_skipBlanks_le text)

/-- The assignments of all lines, in order. -/
def lines (text : List Char) : Option (List (String × Value)) :=
  if _htext : text = [] then
    some []
  else
    match _hline : line text with
    | none => none
    | some (entries, rest) => (lines rest).map (entries ++ ·)
termination_by text.length
decreasing_by exact line_shrinks _htext _hline

/-- The text without a byte order mark at its front. -/
def withoutMark : List Char → List Char
  | c :: rest => if c.toNat = 0xFEFF then rest else c :: rest
  | [] => []

/-- The assignments of a document, if it is well formed and assigns no key twice. -/
def read? (text : String) : Option (List (String × Value)) := do
  let entries ← lines (withoutMark text.toList)
  if (entries.map Prod.fst).Nodup then
    return entries
  else
    none

end Toml
end FirmwareVariables
