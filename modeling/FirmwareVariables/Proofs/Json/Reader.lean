import FirmwareVariables.Json.Numeral
import FirmwareVariables.Text.Hex
import FirmwareVariables.Text.Utf16
import FirmwareVariables.Toml.Document
import Mathlib.Data.List.TakeWhile

/-!
# A reader of JSON

`Json.read?` reads JSON text by the grammar of JSON and knows nothing of how values are written
here: blanks may stand between any two parts, and a text may be escaped in any of the ways there
are. The one thing it does not read is a number with a fraction or an exponent.

The main statements, `Json.quoted_quote` and `Json.number_toString`, say that texts and whole
numbers are read as what was written.
-/

namespace FirmwareVariables
namespace Json

section Reader

/-- A reader of the front of a text: what it found, and the text behind. -/
abbrev Reader (α : Type) := List Char → Option (α × List Char)

/-- A character that may stand between any two parts. -/
def isBlank (c : Char) : Bool :=
  c == ' ' || c == '\t' || c == '\n' || c == '\r'

def skipBlanks (input : List Char) : List Char :=
  input.dropWhile isBlank

/-- The character that a letter behind a backslash stands for. -/
def unescape? : Char → Option Char
  | '"' => some '"'
  | '\\' => some '\\'
  | '/' => some '/'
  | 'b' => some (Char.ofNat 0x08)
  | 'f' => some (Char.ofNat 0x0C)
  | 'n' => some '\n'
  | 'r' => some '\r'
  | 't' => some '\t'
  | _ => none

/-- The unit of UTF-16 that hexadecimal digits write. -/
def unit? (digits : List Char) : Option UInt16 :=
  (digits.mapM Toml.hexDigit?).map fun values => UInt16.ofNat (Hex.number values)

/-- Puts units, if there are any to put, in front of what is read from the rest. -/
def prepend (front : Option (List UInt16)) (read : Option (List UInt16 × List Char)) :
    Option (List UInt16 × List Char) := do
  let front ← front
  let (units, rest) ← read
  return (front ++ units, rest)

/-- The rest of a text behind its opening quote, as units of UTF-16. -/
def textRest : Reader (List UInt16)
  | [] => none
  | '"' :: rest => some ([], rest)
  | '\\' :: 'u' :: a :: b :: c :: d :: rest =>
      prepend ((unit? [a, b, c, d]).map fun unit => [unit]) (textRest rest)
  | '\\' :: c :: rest => prepend ((unescape? c).map Utf16.encodeChar) (textRest rest)
  | c :: rest =>
      prepend (if c.toNat < 0x20 then none else some (Utf16.encodeChar c)) (textRest rest)

/-- A whole number: digits, perhaps with a sign in front. -/
def number (input : List Char) : Option (Json × List Char) := do
  let (negative, behind) := Numeral.sign input
  let (digits, rest) ← Numeral.whole? behind
  let size : Int := Numeral.number digits
  return (.integer (if negative then -size else size), rest)

/-- The words that are values. -/
def words : List (String × Json) :=
  [("null", .null), ("true", .boolean true), ("false", .boolean false)]

/-- A word that is a value, or a number. -/
def scalar (input : List Char) : Option (Json × List Char) :=
  (words.findSome? fun (word, value) =>
    (Toml.behind? word.toList input).map fun rest => (value, rest)).or (number input)

variable {α : Type}

/-- Items with commas between them, up to the closing bracket. -/
def items (item : Reader α) (closing : Char) : Nat → Reader (List α)
  | 0, _ => none
  | fuel + 1, input => do
      let (first, rest) ← item input
      match skipBlanks rest with
      | [] => none
      | c :: rest =>
          if c = closing then
            some ([first], rest)
          else if c = ',' then do
            let (others, rest) ← items item closing fuel rest
            return (first :: others, rest)
          else
            none

/-- Items behind an opening bracket, of which there may be none. -/
def enclosed (item : Reader α) (closing : Char) (fuel : Nat) (input : List Char) :
    Option (List α × List Char) :=
  match skipBlanks input with
  | [] => none
  | c :: rest => if c = closing then some ([], rest) else items item closing fuel input

def quoted (input : List Char) : Option (String × List Char) :=
  match skipBlanks input with
  | '"' :: rest =>
      (textRest rest).map fun (units, rest) => (String.ofList (Utf16.decode units), rest)
  | _ => none

def member (value : Reader Json) (input : List Char) : Option ((String × Json) × List Char) := do
  let (name, rest) ← quoted input
  match skipBlanks rest with
  | ':' :: rest => do
      let (value, rest) ← value rest
      return ((name, value), rest)
  | _ => none

/-- A value. Every level and every item takes one unit of fuel. -/
def value : Nat → Reader Json
  | 0, _ => none
  | fuel + 1, input =>
      match skipBlanks input with
      | [] => none
      | c :: rest =>
          if c = '"' then
            (quoted (c :: rest)).map fun (found, rest) => (.text found, rest)
          else if c = '[' then
            (enclosed (value fuel) ']' fuel rest).map fun (values, rest) => (.list values, rest)
          else if c = '\x7b' then
            (enclosed (member (value fuel)) '\x7d' fuel rest).map fun (members, rest) =>
              (.object members, rest)
          else
            scalar (c :: rest)

/-- The value that a text writes, with nothing but blanks around it. -/
def read? (text : String) : Option Json := do
  let (value, rest) ← value text.toList.length text.toList
  if (skipBlanks rest).isEmpty then some value else none

end Reader

/-- A text does not go on with a digit. -/
def NoDigitAhead (input : List Char) : Prop :=
  ∀ c ∈ input.head?, c.isDigit = false

section Blanks

variable {blanks rest : List Char}

theorem skipBlanks_append (hblanks : ∀ c ∈ blanks, isBlank c = true) (rest : List Char) :
    skipBlanks (blanks ++ rest) = skipBlanks rest :=
  List.dropWhile_append_of_pos hblanks

theorem skipBlanks_cons {c : Char} (hc : isBlank c = false) (rest : List Char) :
    skipBlanks (c :: rest) = c :: rest :=
  List.dropWhile_cons_of_neg (by simp [hc])

theorem isDigit_of_isBlank {c : Char} (hblank : isBlank c = true) :
    c.isDigit = false := by
  simp only [isBlank, Bool.or_eq_true, beq_iff_eq] at hblank
  rcases hblank with ((rfl | rfl) | rfl) | rfl <;> rfl

theorem isBlank_of_isDigit {c : Char} (hdigit : c.isDigit = true) :
    isBlank c = false := by
  cases hblank : isBlank c with
  | false => rfl
  | true =>
      rw [isDigit_of_isBlank hblank] at hdigit
      cases hdigit

theorem isBlank_of_mem_space :
    ∀ c ∈ [' '], isBlank c = true :=
  List.forall_mem_singleton.2 rfl

theorem isBlank_of_mem_newline {level : Nat} :
    ∀ c ∈ (newline level).toList, isBlank c = true := by
  intro c hc
  rw [newline, String.toList_ofList, List.mem_cons] at hc
  rcases hc with rfl | hc
  · rfl
  · rw [(List.mem_replicate.1 hc).2]
    rfl

end Blanks

section Texts

/-- A control without a letter of its own is written as a unit. -/
theorem unit?_control {c : Char} (hcontrol : c.toNat < 0x20) :
    (unit? ['0', '0', Nat.digitChar (c.toNat / 16), Nat.digitChar (c.toNat % 16)]).map
        (fun unit => [unit]) =
      some (Utf16.encodeChar c) := by
  have hzero : Toml.hexDigit? '0' = some 0 := rfl
  have hhigh := Toml.hexDigit?_digitChar (c.toNat / 16) (by omega)
  have hlow := Toml.hexDigit?_digitChar (c.toNat % 16) (by omega)
  have hnumber : Hex.number [0, 0, c.toNat / 16, c.toNat % 16] = c.toNat := by
    simp only [Hex.number, List.foldl_cons, List.foldl_nil]
    omega
  have hsmall : c.toNat < 0x10000 := by
    omega
  simp only [unit?, List.mapM_cons, List.mapM_nil, hzero, hhigh, hlow, Utf16.encodeChar, hsmall,
    if_true, Option.bind_eq_bind, Option.bind_some, Option.pure_def, Option.map_some, hnumber]

/-- A character that is written as it is is read as it is. -/
theorem textRest_literal {c : Char}
    (hquote : c ≠ '"') (hbackslash : c ≠ '\\') (hprinted : ¬ c.toNat < 0x20)
    (rest : List Char) :
    textRest (c :: rest) = prepend (some (Utf16.encodeChar c)) (textRest rest) := by
  have hread : textRest (c :: rest) =
      prepend (if c.toNat < 0x20 then none else some (Utf16.encodeChar c)) (textRest rest) := by
    rw [textRest.eq_def]
    split <;> simp_all
  rw [hread, if_neg hprinted]

/-- A character is read in the form in which it is written. -/
theorem textRest_escape (c : Char) (rest : List Char) :
    textRest (escape c ++ rest) = prepend (some (Utf16.encodeChar c)) (textRest rest) := by
  fun_cases escape c with
  | case1 hc => rw [hc]; rfl
  | case2 _ hc => rw [hc]; rfl
  | case3 _ _ hc => rw [hc]; rfl
  | case4 _ _ _ hc => rw [hc]; rfl
  | case5 _ _ _ _ hc => rw [hc]; rfl
  | case6 _ _ _ _ _ hcode =>
      rw [← Char.ofNat_toNat c, hcode]
      rfl
  | case7 _ _ _ _ _ _ hcode =>
      rw [← Char.ofNat_toNat c, hcode]
      rfl
  | case8 _ _ _ _ _ _ _ hcontrol =>
      rw [← unit?_control hcontrol]
      rfl
  | case9 hquote hbackslash _ _ _ _ _ hprinted =>
      exact textRest_literal hquote hbackslash hprinted rest

theorem textRest_escapes (chars rest : List Char) :
    textRest (chars.flatMap escape ++ '"' :: rest) = some (Utf16.encode chars, rest) := by
  induction chars with
  | nil => rfl
  | cons c chars ih =>
      rw [List.flatMap_cons, List.append_assoc, textRest_escape, ih]
      rfl

theorem toList_quote (text : String) :
    (quote text).toList = '"' :: (text.toList.flatMap escape ++ ['"']) := by
  rw [quote, String.toList_ofList, List.cons_append]

/-- A text is read back from between its quotes. -/
theorem quoted_quote {blanks : List Char}
    (hblanks : ∀ c ∈ blanks, isBlank c = true) (text : String) (rest : List Char) :
    quoted (blanks ++ ((quote text).toList ++ rest)) = some (text, rest) := by
  have hopening : isBlank '"' = false := rfl
  rw [quoted, skipBlanks_append hblanks, toList_quote, List.cons_append, skipBlanks_cons hopening,
    List.append_assoc, List.singleton_append]
  simp only [textRest_escapes, Option.map_some, Utf16.decode_encode, String.ofList_toList]

end Texts

section Numbers

variable {rest : List Char}

/-- The digits of a number end where no digit is ahead. -/
theorem someDigits?_append
    {digits : List Char} (hdigits : ∀ c ∈ digits, c.isDigit = true) (hsome : digits ≠ [])
    (hrest : NoDigitAhead rest) :
    Numeral.someDigits? (digits ++ rest) =
      some (digits.map fun c => c.toNat - 48, rest) := by
  have hnone : rest.takeWhile Char.isDigit = [] ∧ rest.dropWhile Char.isDigit = rest := by
    cases rest with
    | nil => exact ⟨rfl, rfl⟩
    | cons c rest =>
        have hc : ¬ c.isDigit = true := by
          simp [hrest c rfl]
        exact ⟨List.takeWhile_cons_of_neg hc, List.dropWhile_cons_of_neg hc⟩
  have hread : Numeral.digits (digits ++ rest) = (digits.map fun c => c.toNat - 48, rest) := by
    rw [Numeral.digits, List.takeWhile_append_of_pos hdigits, List.dropWhile_append_of_pos hdigits,
      hnone.1, hnone.2, List.append_nil]
  obtain ⟨first, others, rfl⟩ := List.exists_cons_of_ne_nil hsome
  rw [Numeral.someDigits?, hread]
  rfl

/-- Only zero is written with a zero in front. -/
theorem eq_zero_of_head?_toDigits
    {n : Nat} (hhead : (Nat.toDigits 10 n).head? = some '0') :
    n = 0 := by
  induction n using Nat.strong_induction_on with
  | h n ih =>
      by_cases hsmall : n < 10
      · have hall : ∀ n < 10, Nat.digitChar n = '0' → n = 0 := by
          decide
        rw [Nat.toDigits_of_lt_base hsmall] at hhead
        exact hall n hsmall (Option.some.inj hhead)
      · have hsplit := Nat.toDigits_append_toDigits (b := 10) (n := n / 10) (d := n % 10)
          (by decide) (by omega) (by omega)
        rw [Nat.div_add_mod] at hsplit
        have hfirst := List.head?_eq_some_head (Nat.toDigits_ne_nil (b := 10) (n := n / 10))
        rw [← hsplit, List.head?_append, hfirst, Option.some_or, ← hfirst] at hhead
        have hfront := ih (n / 10) (by omega) hhead
        omega

theorem eq_zero_char
    {c : Char} (hdigit : c.isDigit = true) (hzero : c.toNat - 48 = 0) :
    c = '0' := by
  have hleast : 48 ≤ c.toNat := by
    simp only [Char.isDigit, ge_iff_le, Bool.and_eq_true, decide_eq_true_eq,
      UInt32.le_iff_toNat_le] at hdigit
    exact hdigit.1
  have hcode : c.toNat = 48 := by
    omega
  rw [← Char.ofNat_toNat c, hcode]

theorem whole?_toDigits (n : Nat) (hrest : NoDigitAhead rest) :
    ∃ digits,
      Numeral.whole? (Nat.toDigits 10 n ++ rest) = some (digits, rest) ∧
        Numeral.number digits = n := by
  have hread := someDigits?_append
    (fun c hc => Nat.isDigit_of_mem_toDigits (by decide) (by decide) hc)
    (Nat.toDigits_ne_nil (b := 10) (n := n)) hrest
  have hnumber : Numeral.number ((Nat.toDigits 10 n).map fun c => c.toNat - 48) = n := by
    rw [Numeral.number, List.foldl_map]
    exact Nat.ofDigitChars_ten_toDigits
  have hnoZero : ¬ (((Nat.toDigits 10 n).map fun c => c.toNat - 48).head? = some 0 ∧
      1 < ((Nat.toDigits 10 n).map fun c => c.toNat - 48).length) := by
    rintro ⟨hhead, hlong⟩
    rw [List.head?_map, Option.map_eq_some_iff] at hhead
    obtain ⟨c, hfirst, hzero⟩ := hhead
    have hdigit := Nat.isDigit_of_mem_toDigits (by decide) (by decide) (List.mem_of_head? hfirst)
    rw [eq_zero_char hdigit hzero] at hfirst
    rw [eq_zero_of_head?_toDigits hfirst] at hlong
    exact absurd hlong (by decide)
  refine ⟨_, ?_, hnumber⟩
  rw [Numeral.whole?, hread]
  simp only [Option.bind_eq_bind, Option.bind_some, if_neg hnoZero, Option.pure_def]

/-- Digits have no sign in front. -/
theorem sign_toDigits (n : Nat) (rest : List Char) :
    Numeral.sign (Nat.toDigits 10 n ++ rest) = (false, Nat.toDigits 10 n ++ rest) := by
  cases hdigits : Nat.toDigits 10 n with
  | nil => exact absurd hdigits Nat.toDigits_ne_nil
  | cons c digits =>
      have hdigit : c.isDigit = true :=
        Nat.isDigit_of_mem_toDigits (n := n) (by decide) (by decide) (hdigits ▸ List.mem_cons_self)
      rw [List.cons_append]
      unfold Numeral.sign
      split
      · rename_i heq
        cases heq
        cases hdigit
      · rfl

theorem toList_toString_ofNat (n : Nat) :
    (toString (Int.ofNat n)).toList = Nat.toDigits 10 n := by
  have hspelled : toString (Int.ofNat n) = String.ofList (Nat.toDigits 10 n) := rfl
  rw [hspelled, String.toList_ofList]

theorem toList_toString_negSucc (n : Nat) :
    (toString (Int.negSucc n)).toList = '-' :: Nat.toDigits 10 (n + 1) := by
  have hspelled : toString (Int.negSucc n) = "-" ++ String.ofList (Nat.toDigits 10 (n + 1)) := rfl
  have hminus : "-".toList = ['-'] := rfl
  rw [hspelled, String.toList_append, hminus, String.toList_ofList, List.singleton_append]

/-- A number is read back, up to where no digit is ahead. -/
theorem number_toString (value : Int) (hrest : NoDigitAhead rest) :
    number ((toString value).toList ++ rest) = some (.integer value, rest) := by
  cases value with
  | ofNat n =>
      obtain ⟨digits, hwhole, hnumber⟩ := whole?_toDigits n hrest
      rw [toList_toString_ofNat, number, sign_toDigits]
      simp only [hwhole, hnumber, Option.bind_eq_bind, Option.bind_some]
      rfl
  | negSucc n =>
      obtain ⟨digits, hwhole, hnumber⟩ := whole?_toDigits (n + 1) hrest
      rw [toList_toString_negSucc, number, List.cons_append, Numeral.sign]
      simp only [hwhole, hnumber, Option.bind_eq_bind, Option.bind_some, if_true]
      rfl

end Numbers

end Json
end FirmwareVariables
