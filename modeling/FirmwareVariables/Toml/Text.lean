/-!
# Strings of settings documents

A string stands on one line or over several, and with escapes or without, which makes four
forms. Reading is done one character at a time, with a mode that says what is pending: quotes
in a row, an escape, the digits of a code point, or a line that goes on behind its end.

The main statement, `leavesAtMost_string`, bounds what a string leaves by what was there.
-/

namespace FirmwareVariables
namespace Toml

/-- A reader of the front of a text: what it found, and the text behind. -/
abbrev Reader (α : Type) := List Char → Option (α × List Char)

def isBlank (c : Char) : Bool :=
  c == ' ' || c == '\t'

/-- A character that can stand in a line: no control but the tab. -/
def isLineChar (c : Char) : Bool :=
  c == '\t' || (0x20 ≤ c.toNat && c.toNat != 0x7F)

/-- The text behind the end of a line. -/
def newline? : List Char → Option (List Char)
  | '\n' :: rest => some rest
  | '\r' :: '\n' :: rest => some rest
  | _ => none

def hexDigit? (c : Char) : Option Nat :=
  if '0' ≤ c ∧ c ≤ '9' then some (c.toNat - 48)
  else if 'a' ≤ c ∧ c ≤ 'f' then some (c.toNat - 87)
  else if 'A' ≤ c ∧ c ≤ 'F' then some (c.toNat - 55)
  else none

theorem hexDigit?_digitChar : ∀ n < 16, hexDigit? (Nat.digitChar n) = some n := by
  decide

/-- The character that a letter behind a backslash stands for. -/
def escapeOf? : Char → Option Char
  | 'b' => some (Char.ofNat 0x08)
  | 't' => some '\t'
  | 'n' => some '\n'
  | 'f' => some (Char.ofNat 0x0C)
  | 'r' => some '\r'
  | '"' => some '"'
  | '\\' => some '\\'
  | _ => none

/-- What a reader of a string is in the middle of. -/
inductive Mode where
  | plain
  /-- Behind so many quotes in a row, in a string over several lines. -/
  | quotes (count : Nat)
  /-- Behind a carriage return, which a line feed must follow. -/
  | carriage
  | escape
  /-- In the digits of a code point, with so many to come. -/
  | digits (left value : Nat)
  /-- Behind a backslash at the end of a line, before the line feed. -/
  | fold
  /-- Behind such a line, before the next character that is neither blank nor a line end. -/
  | folded
  /-- Behind a carriage return in one of these. -/
  | foldCarriage
deriving DecidableEq, Repr

/-- Puts characters in front of what is read from the rest. -/
def prepend (front : List Char) (read : Option (List Char × List Char)) :
    Option (List Char × List Char) :=
  read.map fun (text, rest) => (front ++ text, rest)

/-- What a character means in a string with escapes, where nothing is pending. -/
inductive Meaning where
  | literal (c : Char)
  | enter (mode : Mode)
  | close
  | refused
deriving DecidableEq, Repr

def meaning (multiline : Bool) (c : Char) : Meaning :=
  if c = '"' then
    if multiline then .enter (.quotes 1) else .close
  else if c = '\\' then .enter .escape
  else if isLineChar c then .literal c
  else if multiline && c == '\n' then .literal '\n'
  else if multiline && c == '\r' then .enter .carriage
  else .refused

/-- The quotes that belong to the string, when so many stand in a row at its end. -/
def spareQuotes (count : Nat) : List Char :=
  List.replicate (count - 3) '"'

/-- What reading comes to at the end of the text: only the closing quotes may be behind. -/
def atEnd : Mode → Option (List Char × List Char)
  | .quotes count => if 3 ≤ count then some (spareQuotes count, []) else none
  | _ => none

/-- Reads on from a character where nothing is pending. -/
def act (multiline : Bool) (c : Char) (rest : List Char)
    (proceed : List Char → Mode → Option (List Char × List Char)) :
    Option (List Char × List Char) :=
  match meaning multiline c with
  | .literal c => proceed [c] .plain
  | .enter mode => proceed [] mode
  | .close => some ([], rest)
  | .refused => none

/--
The rest of a string with escapes, behind its opening quotes. In a string over several lines
up to two quotes may stand in a row, also before the three that close it; a backslash at the
end of a line joins the line with the next character that is neither blank nor a line end.
-/
def basicRest (multiline : Bool) : Mode → Reader (List Char)
  | mode, [] => atEnd mode
  | mode, c :: rest =>
      let proceed (front : List Char) (mode : Mode) := prepend front (basicRest multiline mode rest)
      match mode with
      | .plain => act multiline c rest proceed
      | .quotes count =>
          if c = '"' ∧ count < 5 then proceed [] (.quotes (count + 1))
          else if 3 ≤ count then some (spareQuotes count, c :: rest)
          else prepend (List.replicate count '"') (act multiline c rest proceed)
      | .carriage => if c = '\n' then proceed ['\n'] .plain else none
      | .escape =>
          if c = 'u' then proceed [] (.digits 4 0)
          else if c = 'U' then proceed [] (.digits 8 0)
          else if multiline && isBlank c then proceed [] .fold
          else if multiline && c == '\n' then proceed [] .folded
          else if multiline && c == '\r' then proceed [] .foldCarriage
          else (escapeOf? c).bind fun escaped => proceed [escaped] .plain
      | .digits left value =>
          (hexDigit? c).bind fun digit =>
            let value := 16 * value + digit
            if 1 < left then proceed [] (.digits (left - 1) value)
            else if value.isValidChar then proceed [Char.ofNat value] .plain
            else none
      | .fold =>
          if isBlank c then proceed [] .fold
          else if c = '\n' then proceed [] .folded
          else if c = '\r' then proceed [] .foldCarriage
          else none
      | .folded =>
          if isBlank c || c == '\n' then proceed [] .folded
          else if c = '\r' then proceed [] .foldCarriage
          else act multiline c rest proceed
      | .foldCarriage => if c = '\n' then proceed [] .folded else none

/-- The rest of a string without escapes on one line, behind its opening quote. -/
def literalRest (text : List Char) : Option (List Char × List Char) :=
  let isInside (c : Char) : Bool := isLineChar c && c != '\''
  match text.dropWhile isInside with
  | '\'' :: rest => some (text.takeWhile isInside, rest)
  | _ => none

/--
The rest of a string without escapes over several lines, behind its opening quotes, with so
many quotes in a row just read. The end of a line counts as one line feed.
-/
def literalLines : Nat → Reader (List Char)
  | count, [] => if 3 ≤ count then some (List.replicate (count - 3) '\'', []) else none
  | count, c :: rest =>
      if c = '\'' ∧ count < 5 then literalLines (count + 1) rest
      else if 3 ≤ count then some (List.replicate (count - 3) '\'', c :: rest)
      else
        prepend (List.replicate count '\'') <|
          if isLineChar c && c != '\'' || c == '\n' then prepend [c] (literalLines 0 rest)
          else if c = '\r' then
            match rest with
            | '\n' :: rest => prepend ['\n'] (literalLines 0 rest)
            | _ => none
          else none

/-- The text without the end of a line at its front. -/
def skipNewline (text : List Char) : List Char :=
  (newline? text).getD text

/-- A string in any of its forms. -/
def string : Reader (List Char)
  | '"' :: '"' :: '"' :: rest => basicRest true .plain (skipNewline rest)
  | '"' :: rest => basicRest false .plain rest
  | '\'' :: '\'' :: '\'' :: rest => literalLines 0 (skipNewline rest)
  | '\'' :: rest => literalRest rest
  | _ => none

/-- What was read, if anything was, leaves at most so many characters. -/
def LeavesAtMost {α : Type} (size : Nat) (read : Option (α × List Char)) : Prop :=
  ∀ found rest, read = some (found, rest) → rest.length ≤ size

theorem leavesAtMost_none {α : Type} (size : Nat) :
    LeavesAtMost size (none : Option (α × List Char)) := by
  intro found rest h
  cases h

theorem leavesAtMost_some {α : Type} {size : Nat} {found : α} {rest : List Char}
    (h : rest.length ≤ size) :
    LeavesAtMost size (some (found, rest)) := by
  rintro _ _ ⟨⟩
  exact h

theorem LeavesAtMost.mono {α : Type} {small large : Nat} {read : Option (α × List Char)}
    (h : LeavesAtMost small read) (hle : small ≤ large) :
    LeavesAtMost large read := by
  intro found rest hread
  exact Nat.le_trans (h found rest hread) hle

theorem LeavesAtMost.prepend {size : Nat} {front : List Char}
    {read : Option (List Char × List Char)} (h : LeavesAtMost size read) :
    LeavesAtMost size (prepend front read) := by
  intro found rest hread
  obtain ⟨⟨text, _⟩, hsome, hfound⟩ := Option.map_eq_some_iff.1 hread
  cases hfound
  exact h text rest hsome

theorem leavesAtMost_act {size : Nat} (multiline : Bool) (c : Char) {rest : List Char}
    {proceed : List Char → Mode → Option (List Char × List Char)}
    (hrest : rest.length ≤ size)
    (hproceed : ∀ front mode, LeavesAtMost size (proceed front mode)) :
    LeavesAtMost size (act multiline c rest proceed) := by
  unfold act
  cases meaning multiline c with
  | literal c => exact hproceed [c] .plain
  | enter mode => exact hproceed [] mode
  | close => exact leavesAtMost_some hrest
  | refused => exact leavesAtMost_none size

theorem leavesAtMost_atEnd (mode : Mode) :
    LeavesAtMost 0 (atEnd mode) := by
  intro found rest h
  cases mode with
  | quotes count =>
      simp only [atEnd, Option.ite_none_right_eq_some] at h
      cases h.2
      simp
  | _ => cases h

/-- Reading the rest of a string with escapes adds no characters. -/
theorem leavesAtMost_basicRest (multiline : Bool) (mode : Mode) (text : List Char) :
    LeavesAtMost text.length (basicRest multiline mode text) := by
  induction text generalizing mode with
  | nil =>
      unfold basicRest
      exact leavesAtMost_atEnd mode
  | cons c rest ih =>
      have hproceed : ∀ front mode,
          LeavesAtMost (rest.length + 1) (prepend front (basicRest multiline mode rest)) := by
        intro front mode
        exact ((ih mode).mono (Nat.le_succ _)).prepend
      have hact := leavesAtMost_act multiline c (Nat.le_succ rest.length) hproceed
      have hnone := leavesAtMost_none (α := List Char) (rest.length + 1)
      rw [List.length_cons]
      cases mode with
      | plain => exact hact
      | quotes count =>
          simp only [basicRest]
          split
          · exact hproceed _ _
          · split
            · exact leavesAtMost_some (by simp)
            · exact hact.prepend
      | carriage =>
          simp only [basicRest]
          split
          · exact hproceed _ _
          · exact hnone
      | escape =>
          simp only [basicRest]
          repeat' split
          · exact hproceed _ _
          · exact hproceed _ _
          · exact hproceed _ _
          · exact hproceed _ _
          · exact hproceed _ _
          · cases escapeOf? c with
            | none => exact hnone
            | some escaped => exact hproceed _ _
      | digits left value =>
          simp only [basicRest]
          cases hexDigit? c with
          | none => exact hnone
          | some digit =>
              simp only [Option.bind_some]
              repeat' split
              · exact hproceed _ _
              · exact hproceed _ _
              · exact hnone
      | fold =>
          simp only [basicRest]
          repeat' split
          · exact hproceed _ _
          · exact hproceed _ _
          · exact hproceed _ _
          · exact hnone
      | folded =>
          simp only [basicRest]
          repeat' split
          · exact hproceed _ _
          · exact hproceed _ _
          · exact hact
      | foldCarriage =>
          simp only [basicRest]
          split
          · exact hproceed _ _
          · exact hnone

theorem length_dropWhile_le (p : Char → Bool) (text : List Char) :
    (text.dropWhile p).length ≤ text.length :=
  (List.dropWhile_suffix p).length_le

theorem leavesAtMost_literalRest (text : List Char) :
    LeavesAtMost text.length (literalRest text) := by
  intro found rest h
  simp only [literalRest] at h
  split at h
  · rename_i after hdrop
    cases h
    have hle := length_dropWhile_le (fun c => isLineChar c && c != '\'') text
    rw [hdrop, List.length_cons] at hle
    omega
  · cases h

theorem leavesAtMost_literalLines (count : Nat) (text : List Char) :
    LeavesAtMost text.length (literalLines count text) := by
  fun_induction literalLines count text with
  | case1 => exact leavesAtMost_some (by simp)
  | case2 => exact leavesAtMost_none _
  | case3 count c rest hquote ih => exact ih.mono (Nat.le_succ _)
  | case4 => exact leavesAtMost_some (by simp)
  | case5 count c rest _ _ ihPlain ihReturn =>
      apply LeavesAtMost.prepend
      split
      · exact (ihPlain.mono (Nat.le_succ _)).prepend
      · split
        · split at ihReturn
          · exact (ihReturn.mono (by simp; omega)).prepend
          · exact leavesAtMost_none _
        · exact leavesAtMost_none _

theorem length_of_newline? {text rest : List Char} (h : newline? text = some rest) :
    rest.length < text.length := by
  unfold newline? at h
  split at h
  · cases h
    simp only [List.length_cons]
    omega
  · cases h
    simp only [List.length_cons]
    omega
  · cases h

theorem length_skipNewline_le (text : List Char) :
    (skipNewline text).length ≤ text.length := by
  unfold skipNewline
  cases h : newline? text with
  | none => simp
  | some rest => exact Nat.le_of_lt (length_of_newline? h)

/-- Reading a string adds no characters. -/
theorem leavesAtMost_string (text : List Char) :
    LeavesAtMost text.length (string text) := by
  unfold string
  split
  · rename_i rest
    have hle := length_skipNewline_le rest
    exact (leavesAtMost_basicRest true .plain _).mono (by simp; omega)
  · exact (leavesAtMost_basicRest false .plain _).mono (by simp)
  · rename_i rest
    have hle := length_skipNewline_le rest
    exact (leavesAtMost_literalLines 0 _).mono (by simp; omega)
  · exact (leavesAtMost_literalRest _).mono (by simp)
  · exact leavesAtMost_none _

end Toml
end FirmwareVariables
