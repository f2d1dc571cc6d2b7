import FirmwareVariables.Settings
import FirmwareVariables.Text.Hex
import Mathlib.Data.List.Basic

/-!
# Reading settings documents

Assignments are written on a line each, with the key in quotes, so that any text can be a key.
`Toml.read?_written` says that they are read back, and that the document is refused if and only if
it assigns a key twice.

The main statement, `Settings.ofToml_eq_ok_iff`, says which settings any document gives.
`Settings.Says` is what its assignments have to be for them: no key but the two there are, each
with a value of its type, and a setting that is not assigned keeps its standard value.
-/

namespace FirmwareVariables
namespace Toml

/-- The written form of a character inside quotes. -/
def escape (c : Char) : List Char :=
  if c = '"' then ['\\', '"']
  else if c = '\\' then ['\\', '\\']
  else if isLineChar c then [c]
  else ['\\', 'u', '0', '0', Nat.digitChar (c.toNat / 16), Nat.digitChar (c.toNat % 16)]

def quote (text : String) : List Char :=
  '"' :: (text.toList.flatMap escape ++ ['"'])

def Value.written : Value → List Char
  | .boolean true => "true".toList
  | .boolean false => "false".toList
  | .text found => quote found

/-- The line that assigns a value to a key. -/
def lineOf (entry : String × Value) : List Char :=
  quote entry.1 ++ (' ' :: '=' :: ' ' :: (entry.2.written ++ ['\n']))

/-- A document with a line for each assignment. -/
def written (entries : List (String × Value)) : String :=
  String.ofList (entries.flatMap lineOf)

section Texts

theorem prepend_nil (read : Option (List Char × List Char)) :
    prepend [] read = read := by
  cases read <;> rfl

/-- A character that is written as a code point is read as that. -/
theorem basicRest_unit
    {high low : Nat} (hhigh : high < 16) (hlow : low < 16) (rest : List Char) :
    basicRest false .plain
        ('\\' :: 'u' :: '0' :: '0' :: Nat.digitChar high :: Nat.digitChar low :: rest) =
      prepend [Char.ofNat (16 * high + low)] (basicRest false .plain rest) := by
  have hvalid : (16 * high + low).isValidChar := by
    left
    omega
  have hzero : hexDigit? '0' = some 0 := rfl
  simp [basicRest, act, meaning, prepend_nil, hzero, hexDigit?_digitChar high hhigh,
    hexDigit?_digitChar low hlow, hvalid]

/-- A character is read in the form in which it is written. -/
theorem basicRest_escape (c : Char) (rest : List Char) :
    basicRest false .plain (escape c ++ rest) = prepend [c] (basicRest false .plain rest) := by
  fun_cases escape c with
  | case1 hc =>
      rw [hc]
      exact prepend_nil _
  | case2 _ hc =>
      rw [hc]
      exact prepend_nil _
  | case3 hquote hbackslash hline =>
      have hmeaning : meaning false c = .literal c := by
        rw [meaning, if_neg hquote, if_neg hbackslash, if_pos hline]
      rw [List.singleton_append, basicRest, act, hmeaning]
  | case4 hquote hbackslash hline =>
      have hsmall : c.toNat < 0x80 := by
        simp only [isLineChar, Bool.or_eq_true, Bool.and_eq_true, bne_iff_ne, beq_iff_eq,
          decide_eq_true_eq, not_or, not_and, ne_eq, not_not] at hline
        omega
      have hunit := basicRest_unit (by omega : c.toNat / 16 < 16) (by omega : c.toNat % 16 < 16)
        rest
      rw [Nat.div_add_mod, Char.ofNat_toNat] at hunit
      exact hunit

theorem basicRest_escapes (chars rest : List Char) :
    basicRest false .plain (chars.flatMap escape ++ '"' :: rest) = some (chars, rest) := by
  induction chars with
  | nil => rfl
  | cons c chars ih =>
      rw [List.flatMap_cons, List.append_assoc, basicRest_escape, ih]
      rfl

/-- No written character begins with a quote. -/
theorem exists_escape_eq_cons (c : Char) :
    ∃ first chars, escape c = first :: chars ∧ first ≠ '"' := by
  fun_cases escape c with
  | case1 => exact ⟨_, _, rfl, by decide⟩
  | case2 => exact ⟨_, _, rfl, by decide⟩
  | case3 hquote => exact ⟨_, _, rfl, hquote⟩
  | case4 => exact ⟨_, _, rfl, by decide⟩

/-- Without two more quotes behind the first one, a text stands on one line. -/
theorem string_of_quote
    {chars : List Char} (hquotes : ∀ behind, chars ≠ '"' :: '"' :: behind) :
    string ('"' :: chars) = basicRest false .plain chars := by
  unfold string
  split
  · rename_i behind heq
    cases heq
    exact absurd rfl (hquotes behind)
  · rename_i heq
    cases heq
    rfl
  · rename_i heq
    cases heq
  · rename_i heq
    cases heq
  · rename_i hother _ _
    exact absurd rfl (hother chars)

/-- A text in quotes is read back where no quote follows it. -/
theorem string_quote
    (text : String) {rest : List Char} (hrest : ∀ c ∈ rest.head?, c ≠ '"') :
    string (quote text ++ rest) = some (text.toList, rest) := by
  have hquotes (behind : List Char) :
      text.toList.flatMap escape ++ '"' :: rest ≠ '"' :: '"' :: behind := by
    intro heq
    cases htext : text.toList with
    | nil =>
        rw [htext] at heq
        simp only [List.flatMap_nil, List.nil_append, List.cons.injEq, true_and] at heq
        rw [heq] at hrest
        exact hrest '"' rfl rfl
    | cons c chars =>
        obtain ⟨first, others, hescape, hfirst⟩ := exists_escape_eq_cons c
        rw [htext, List.flatMap_cons, hescape] at heq
        exact hfirst (List.cons.inj heq).1
  rw [quote, List.cons_append, List.append_assoc, List.singleton_append, string_of_quote hquotes,
    basicRest_escapes]

end Texts

section Lines

variable {rest : List Char}

theorem key_quote (name : String) (rest : List Char) :
    key (quote name ++ rest) = some (name.toList, rest) := by
  rw [quote, List.cons_append, List.append_assoc, List.singleton_append]
  exact basicRest_escapes name.toList rest

theorem restOfLine?_newline (rest : List Char) :
    restOfLine? ('\n' :: rest) = some rest := by
  rfl

theorem value_written (value : Value) (rest : List Char) :
    Toml.value (value.written ++ '\n' :: rest) = some (value, '\n' :: rest) := by
  cases value with
  | boolean found => cases found <;> rfl
  | text found =>
      have hstring : string (quote found ++ '\n' :: rest) = some (found.toList, '\n' :: rest) :=
        string_quote found (by simp)
      have htrue : behind? "true".toList (quote found ++ '\n' :: rest) = none := rfl
      have hfalse : behind? "false".toList (quote found ++ '\n' :: rest) = none := rfl
      rw [Value.written, Toml.value, htrue, hfalse, hstring]
      simp

theorem skipBlanks_written (value : Value) (rest : List Char) :
    skipBlanks (' ' :: (value.written ++ rest)) = value.written ++ rest := by
  cases value with
  | boolean found => cases found <;> rfl
  | text found => rfl

/-- A line is read as the assignment that it was written for. -/
theorem line_lineOf (entry : String × Value) (rest : List Char) :
    line (lineOf entry ++ rest) = some ([entry], rest) := by
  have hnone : restOfLine? (lineOf entry ++ rest) = none := rfl
  have hskip : skipBlanks (lineOf entry ++ rest) = lineOf entry ++ rest := rfl
  have hline : lineOf entry ++ rest =
      quote entry.1 ++ (' ' :: '=' :: ' ' :: (entry.2.written ++ '\n' :: rest)) := by
    simp [lineOf]
  have hassignment : assignment (lineOf entry ++ rest) = some (entry, rest) := by
    have hequals : skipBlanks (' ' :: '=' :: ' ' :: (entry.2.written ++ '\n' :: rest)) =
        '=' :: ' ' :: (entry.2.written ++ '\n' :: rest) := rfl
    have hvalue : value (skipBlanks (' ' :: (entry.2.written ++ '\n' :: rest))) =
        some (entry.2, '\n' :: rest) := by
      rw [skipBlanks_written, value_written]
    rw [hline, assignment, key_quote]
    simp only [Option.bind_eq_bind, Option.bind_some, hequals, hvalue, restOfLine?_newline,
      Option.pure_def, String.ofList_toList]
  rw [line, hnone, hskip, hassignment]
  rfl

theorem lines_written (entries : List (String × Value)) :
    lines (entries.flatMap lineOf) = some entries := by
  induction entries with
  | nil => rw [List.flatMap_nil, lines, dif_pos rfl]
  | cons entry entries ih =>
      have hline := line_lineOf entry (entries.flatMap lineOf)
      have hsome : lineOf entry ++ entries.flatMap lineOf ≠ [] := by
        simp [lineOf, quote]
      rw [List.flatMap_cons, lines, dif_neg hsome]
      split
      · rename_i hnone
        rw [hline] at hnone
        cases hnone
      · rename_i hfound
        rw [hline] at hfound
        cases hfound
        rw [ih]
        rfl

/-- Assignments are read back, unless a key is assigned twice. -/
theorem read?_written (entries : List (String × Value)) :
    read? (written entries) = if (entries.map Prod.fst).Nodup then some entries else none := by
  have hmark : withoutMark (entries.flatMap lineOf) = entries.flatMap lineOf := by
    cases entries with
    | nil => rfl
    | cons entry entries => rfl
  rw [read?, written, String.toList_ofList, hmark, lines_written]
  rfl

/-- No key is assigned twice. -/
theorem nodup_of_read?
    {text : String} {entries : List (String × Value)} (h : read? text = some entries) :
    (entries.map Prod.fst).Nodup := by
  simp only [read?, Option.bind_eq_bind, Option.bind_eq_some_iff, Option.ite_none_right_eq_some,
    Option.pure_def, Option.some.injEq] at h
  obtain ⟨found, -, hnodup, rfl⟩ := h
  exact hnodup

end Lines

end Toml

namespace Settings

/-- An assignment of one of the settings. -/
def Assigns (entry : String × Toml.Value) : Prop :=
  (∃ enabled, entry = ("enabled", .boolean enabled)) ∨ ∃ magic, entry = ("magic", .text magic)

/-- Assignments say what the settings are, where some are there before. -/
structure Says (entries : List (String × Toml.Value)) (before settings : Settings) : Prop where
  known : ∀ entry ∈ entries, Assigns entry
  enabled : ∀ enabled, ("enabled", .boolean enabled) ∈ entries → settings.enabled = enabled
  enabledKept : "enabled" ∉ entries.map Prod.fst → settings.enabled = before.enabled
  magic : ∀ magic, ("magic", .text magic) ∈ entries → settings.magic = magic
  magicKept : "magic" ∉ entries.map Prod.fst → settings.magic = before.magic

section Assigning

variable {entries : List (String × Toml.Value)} {before settings : Settings}

/-- An assignment that is accepted is one of a setting, and changes that setting alone. -/
theorem assign_eq_ok_iff {entry : String × Toml.Value} :
    before.assign entry = .ok settings ↔
      (∃ enabled, entry = ("enabled", .boolean enabled) ∧ settings = { before with enabled }) ∨
        ∃ magic, entry = ("magic", .text magic) ∧ settings = { before with magic } := by
  fun_cases assign before entry with
  | case1 enabled => simp [eq_comm]
  | case2 magic => simp [eq_comm]
  | case3 => simp_all
  | case4 => simp_all

/-- What is said of the first assignment and of the others is said of all of them. -/
theorem says_cons
    {entry : String × Toml.Value} {between : Settings}
    (hnew : entry.1 ∉ entries.map Prod.fst)
    (hfirst : before.assign entry = .ok between) (hothers : Says entries between settings) :
    Says (entry :: entries) before settings := by
  rcases assign_eq_ok_iff.1 hfirst with ⟨enabled, rfl, rfl⟩ | ⟨magic, rfl, rfl⟩
  · exact {
      known := List.forall_mem_cons.2 ⟨.inl ⟨enabled, rfl⟩, hothers.known⟩
      enabled := by
        intro other hother
        rcases List.mem_cons.1 hother with heq | hmem
        · cases heq
          exact hothers.enabledKept hnew
        · exact absurd (List.mem_map_of_mem hmem) hnew
      enabledKept := by simp
      magic := fun magic hmagic => hothers.magic magic (by simpa using hmagic)
      magicKept := fun hkept => hothers.magicKept (by simpa using hkept) }
  · exact {
      known := List.forall_mem_cons.2 ⟨.inr ⟨magic, rfl⟩, hothers.known⟩
      enabled := fun enabled henabled => hothers.enabled enabled (by simpa using henabled)
      enabledKept := fun hkept => hothers.enabledKept (by simpa using hkept)
      magic := by
        intro other hother
        rcases List.mem_cons.1 hother with heq | hmem
        · cases heq
          exact hothers.magicKept hnew
        · exact absurd (List.mem_map_of_mem hmem) hnew
      magicKept := by simp }

/-- Settings are what the assignments say, one after the other. -/
theorem says_of_foldlM
    (hnodup : (entries.map Prod.fst).Nodup)
    (h : entries.foldlM assign before = .ok settings) :
    Says entries before settings := by
  induction entries generalizing before with
  | nil =>
      cases h
      constructor <;> simp
  | cons entry entries ih =>
      rw [List.map_cons, List.nodup_cons] at hnodup
      rw [List.foldlM_cons] at h
      cases hfirst : before.assign entry with
      | error fault =>
          rw [hfirst] at h
          cases h
      | ok between =>
          rw [hfirst] at h
          exact says_cons hnodup.1 hfirst (ih hnodup.2 h)

/-- Nothing but an unknown assignment is in the way of settings. -/
theorem exists_foldlM
    (hknown : ∀ entry ∈ entries, Assigns entry) (before : Settings) :
    ∃ settings, entries.foldlM assign before = .ok settings := by
  induction entries generalizing before with
  | nil => exact ⟨before, rfl⟩
  | cons entry entries ih =>
      obtain ⟨hentry, hothers⟩ := List.forall_mem_cons.1 hknown
      obtain ⟨between, hfirst⟩ : ∃ between, before.assign entry = .ok between := by
        rcases hentry with ⟨enabled, rfl⟩ | ⟨magic, rfl⟩
        · exact ⟨_, rfl⟩
        · exact ⟨_, rfl⟩
      obtain ⟨settings, hsettings⟩ := ih hothers between
      refine ⟨settings, ?_⟩
      rw [List.foldlM_cons, hfirst]
      exact hsettings

/-- Assignments say one thing of every setting. -/
theorem Says.unique
    {other : Settings} (h : Says entries before settings) (hother : Says entries before other) :
    settings = other := by
  have henabled : settings.enabled = other.enabled := by
    by_cases hkey : "enabled" ∈ entries.map Prod.fst
    · obtain ⟨entry, hmem, hname⟩ := List.mem_map.1 hkey
      rcases h.known entry hmem with ⟨enabled, rfl⟩ | ⟨magic, rfl⟩
      · rw [h.enabled enabled hmem, hother.enabled enabled hmem]
      · simp at hname
    · rw [h.enabledKept hkey, hother.enabledKept hkey]
  have hmagic : settings.magic = other.magic := by
    by_cases hkey : "magic" ∈ entries.map Prod.fst
    · obtain ⟨entry, hmem, hname⟩ := List.mem_map.1 hkey
      rcases h.known entry hmem with ⟨enabled, rfl⟩ | ⟨magic, rfl⟩
      · simp at hname
      · rw [h.magic magic hmem, hother.magic magic hmem]
    · rw [h.magicKept hkey, hother.magicKept hkey]
  cases settings
  cases other
  rw [Settings.mk.injEq]
  exact ⟨henabled, hmagic⟩

/-- Where no key is assigned twice, the settings are the only ones that the assignments say. -/
theorem foldlM_eq_ok_iff
    (hnodup : (entries.map Prod.fst).Nodup) :
    entries.foldlM assign before = .ok settings ↔ Says entries before settings := by
  constructor
  · exact says_of_foldlM hnodup
  · intro hsays
    obtain ⟨found, hfound⟩ := exists_foldlM hsays.known before
    rw [hfound, hsays.unique (says_of_foldlM hnodup hfound)]

/--
A document gives settings if it is well formed and assigns no key twice, no key but theirs and none
to a value of another type, and if the tag is not empty. What it does not assign keeps its standard
value.
-/
theorem ofToml_eq_ok_iff {document : String} :
    ofToml document = .ok settings ↔
      settings.magic ≠ "" ∧
        ∃ entries, Toml.read? document = some entries ∧ Says entries standard settings := by
  unfold ofToml
  cases hread : Toml.read? document with
  | none => simp
  | some entries =>
      have hiff : entries.foldlM assign standard = .ok settings ↔
          Says entries standard settings :=
        foldlM_eq_ok_iff (Toml.nodup_of_read? hread)
      simp only [Option.some.injEq, exists_eq_left']
      rw [← hiff]
      cases hfold : entries.foldlM assign standard with
      | error fault => simp
      | ok found =>
          by_cases hempty : found.magic = ""
          · simp only [hempty, Except.ok.injEq]
            constructor
            · intro h
              cases h
            · rintro ⟨hmagic, rfl⟩
              exact absurd hempty hmagic
          · simp only [String.isEmpty_iff, hempty, if_false, Except.ok.injEq]
            constructor
            · rintro rfl
              exact ⟨hempty, rfl⟩
            · exact And.right

end Assigning

end Settings
end FirmwareVariables
