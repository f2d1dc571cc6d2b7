import FirmwareVariables.Proofs.Guid.Reading
import Mathlib.Data.List.Basic
import Mathlib.Data.List.Induction

/-!
# Spellings of an identifier

A text spells an identifier if it is the canonical text with letters of either case. Reading
accepts a text only if its digits write the fields of an identifier, and the fields write the same
digits again, so what is accepted is a spelling. With the converse from the canonical text this
gives the main statement, `Guid.ofAscii_eq_ok_iff`: reading accepts exactly the spellings.
-/

namespace FirmwareVariables

namespace Utf8

/-- The character that an ASCII octet encodes. -/
def character (octet : UInt8) : Char :=
  Char.ofNat octet.toNat

theorem toNat_character
    {octet : UInt8} (h : octet.toNat < 128) :
    (character octet).toNat = octet.toNat := by
  rw [character, Char.ofNat, dif_pos (.inl (by omega))]
  rfl

/-- Octets of ASCII are the encoding of their characters. -/
theorem encode_characters
    {text : Bytes} (h : ∀ b ∈ text, b.toNat < 128) :
    encode (String.ofList (text.map character)) = text := by
  have hascii : ∀ c ∈ text.map character, c.toNat < 128 := by
    intro c hc
    obtain ⟨b, hb, rfl⟩ := List.mem_map.1 hc
    rw [toNat_character (h b hb)]
    exact h b hb
  rw [encode_of_ascii hascii, List.map_map]
  refine (List.map_congr_left fun b hb => ?_).trans (List.map_id text)
  rw [Function.comp_apply, octet, toNat_character (h b hb), UInt8.ofNat_toNat, id]

end Utf8

namespace Hex

/-- The number that digits write is one of as many digits. -/
theorem number_lt
    {values : List Nat} (h : ∀ d ∈ values, d < 16) :
    number values < bound values.length := by
  induction values using List.reverseRecOn with
  | nil => decide
  | append_singleton values d ih =>
      have hfront := ih fun e he => h e (List.mem_append_left _ he)
      have hlast := h d (by simp)
      rw [number_concat, List.length_append, List.length_singleton, bound]
      omega

/-- It writes these digits again. -/
theorem digits_number
    {values : List Nat} (h : ∀ d ∈ values, d < 16) :
    digits values.length (number values) = values := by
  induction values using List.reverseRecOn with
  | nil => rfl
  | append_singleton values d ih =>
      have hfront := ih fun e he => h e (List.mem_append_left _ he)
      have hlast := h d (by simp)
      have hdiv : (16 * number values + d) / 16 = number values := by
        omega
      have hmod : (16 * number values + d) % 16 = d := by
        omega
      rw [number_concat, List.length_append, List.length_singleton, digits, hdiv, hmod, hfront]

/-- An octet with the value of a digit is an ASCII character, and in lower case that digit. -/
theorem of_digit?_eq_some
    {octet : UInt8} {d : Nat} (h : digit? octet = some d) :
    octet.toNat < 128 ∧ d < 16 ∧ (Utf8.character octet).toLower = Nat.digitChar d := by
  have hall : ∀ n < 256, (digit? (UInt8.ofNat n)).all (fun d =>
      n < 128 ∧ d < 16 ∧ (Char.ofNat n).toLower = Nat.digitChar d) = true := by
    decide +kernel
  have hoctet := hall octet.toNat octet.toNat_lt
  rw [UInt8.ofNat_toNat, h] at hoctet
  simpa [Utf8.character] using hoctet

end Hex

namespace Guid

/-- A text is the canonical text with letters of either case. -/
def SpelledBy (guid : Guid) (text : Bytes) : Prop :=
  ∃ chars : List Char,
    text = Utf8.encode (String.ofList chars) ∧
    chars.map Char.toLower = guid.toChars

/-- A list of pairs is put together from them. -/
theorem flatMap_pairs
    {α : Type} (n : Nat) {values : List α} (h : values.length = 2 * n) :
    ((List.range n).flatMap fun i => (values.drop (2 * i)).take 2) = values := by
  induction n generalizing values with
  | zero => simpa [eq_comm] using h
  | succ n ih =>
      have hrest : (values.drop 2).length = 2 * n := by
        rw [List.length_drop]
        omega
      have hlater := ih hrest
      simp only [List.drop_drop] at hlater
      rw [List.range_succ_eq_map, List.flatMap_cons, List.flatMap_map]
      have hshift (i : Nat) : 2 * i.succ = 2 + 2 * i := by
        omega
      simp only [hshift, hlater, Nat.mul_zero, List.drop_zero, List.take_append_drop]

section Fields

variable {values : List Nat} (hlength : values.length = 32) (hlt : ∀ d ∈ values, d < 16)
include hlength hlt

theorem number_group (start width : Nat) (hwithin : start + width ≤ 32) :
    Hex.number ((values.drop start).take width) < Hex.bound width ∧
      Hex.digits width (Hex.number ((values.drop start).take width)) =
        (values.drop start).take width := by
  have hwidth : ((values.drop start).take width).length = width := by
    rw [List.length_take, List.length_drop, hlength]
    omega
  have hgroup : ∀ d ∈ (values.drop start).take width, d < 16 :=
    fun d hd => hlt d (List.mem_of_mem_drop (List.mem_of_mem_take hd))
  have hnumber := Hex.number_lt hgroup
  have hdigits := Hex.digits_number hgroup
  rw [hwidth] at hnumber hdigits
  exact ⟨hnumber, hdigits⟩

/-- The fields that digits write, write these digits again. -/
theorem digits_ofDigits :
    (ofDigits values).digits = values := by
  have hfirst : Hex.digits 8 (ofDigits values).data1.toNat = values.take 8 := by
    obtain ⟨hnumber, hdigits⟩ := number_group hlength hlt 0 8 (by decide)
    rw [List.drop_zero] at hnumber hdigits
    rw [ofDigits, UInt32.toNat_ofNat_of_lt' hnumber, hdigits]
  have hsecond : Hex.digits 4 (ofDigits values).data2.toNat = (values.drop 8).take 4 := by
    obtain ⟨hnumber, hdigits⟩ := number_group hlength hlt 8 4 (by decide)
    rw [ofDigits, UInt16.toNat_ofNat_of_lt' hnumber, hdigits]
  have hthird : Hex.digits 4 (ofDigits values).data3.toNat = (values.drop 12).take 4 := by
    obtain ⟨hnumber, hdigits⟩ := number_group hlength hlt 12 4 (by decide)
    rw [ofDigits, UInt16.toNat_ofNat_of_lt' hnumber, hdigits]
  have hoctets : ∀ i < 8, Hex.digits 2 ((ofDigits values).data4.toList.getD i 0).toNat =
      (values.drop (16 + 2 * i)).take 2 := by
    intro i hi
    obtain ⟨hnumber, hdigits⟩ := number_group hlength hlt (16 + 2 * i) 2 (by omega)
    have hget : (ofDigits values).data4.toList.getD i 0 =
        UInt8.ofNat (Hex.number ((values.drop (16 + 2 * i)).take 2)) := by
      simp [ofDigits, hi]
    rw [hget, UInt8.toNat_ofNat_of_lt' hnumber, hdigits]
  have hlast : ((List.range 8).flatMap fun i =>
      Hex.digits 2 ((ofDigits values).data4.toList.getD i 0).toNat) = values.drop 16 := by
    have hoctets16 : (values.drop 16).length = 2 * 8 := by
      rw [List.length_drop, hlength]
    rw [← flatMap_pairs 8 hoctets16]
    refine List.flatMap_congr fun i hi => ?_
    rw [hoctets i (List.mem_range.1 hi), List.drop_drop]
  have hback := List.take_append_drop 4 (values.drop 12)
  have hmiddle := List.take_append_drop 4 (values.drop 8)
  rw [List.drop_drop] at hback hmiddle
  rw [digits, hfirst, hsecond, hthird, hlast, List.append_assoc, List.append_assoc, hback, hmiddle,
    List.take_append_drop]

end Fields

/-- Where every place has a value, dropping the empty ones drops nothing. -/
theorem map_eq_map_some_filterMap
    {α β : Type} {f : α → Option β} {places : List α}
    (h : ∀ place ∈ places, (f place).isSome = true) :
    places.map f = (places.filterMap f).map some := by
  induction places with
  | nil => rfl
  | cons place places ih =>
      obtain ⟨value, hvalue⟩ := Option.isSome_iff_exists.1 (h place List.mem_cons_self)
      have hrest := ih fun later hlater => h later (List.mem_cons_of_mem _ hlater)
      rw [List.map_cons, hrest, List.filterMap_cons_some hvalue, List.map_cons, hvalue]

section Reading

variable {guid : Guid} {text : Bytes} (h : ofAscii text = .ok guid)
include h

/-- What reading has seen in a text that it accepts. -/
theorem places_of_ofAscii :
    text.length = textLength ∧
      (∀ i ∈ hyphenOffsets, text[i]? = some 45) ∧
      digitOffsets.map (fun i => text[i]?.bind Hex.digit?) = guid.digits.map some := by
  unfold ofAscii at h
  split at h
  · cases h
  rename_i hlength
  split at h
  · cases h
  rename_i hhyphens
  split at h
  · cases h
  rename_i hdigits
  rw [List.find?_eq_none] at hhyphens hdigits
  have hvalued : ∀ i ∈ digitOffsets, (text[i]?.bind Hex.digit?).isSome = true := by
    simpa [Option.isSome_iff_ne_none] using hdigits
  have hplaces := map_eq_map_some_filterMap hvalued
  obtain rfl := Except.ok.inj h
  have hvalues : (digitOffsets.filterMap fun i => text[i]?.bind Hex.digit?).length = 32 := by
    have hlengths := congrArg List.length hplaces
    rw [List.length_map, List.length_map] at hlengths
    exact hlengths.symm
  have hsmall : ∀ d ∈ digitOffsets.filterMap fun i => text[i]?.bind Hex.digit?, d < 16 := by
    intro d hd
    obtain ⟨i, -, hi⟩ := List.mem_filterMap.1 hd
    obtain ⟨octet, -, hoctet⟩ := Option.bind_eq_some_iff.1 hi
    exact (Hex.of_digit?_eq_some hoctet).2.1
  refine ⟨not_not.1 hlength, by simpa using hhyphens, ?_⟩
  rw [digits_ofDigits hvalues hsmall, hplaces]

/-- Place by place, the text has the characters of the canonical one in either case. -/
theorem letter_of_ofAscii {i : Nat} (hi : i < textLength) :
    ∃ octet,
      text[i]? = some octet ∧
      octet.toNat < 128 ∧
      guid.toChars[i]? = some (Utf8.character octet).toLower := by
  have hoffsets : ∀ i < textLength, i ∈ hyphenOffsets ∨ i ∈ digitOffsets := by
    decide
  obtain ⟨-, hhyphens, hdigits⟩ := places_of_ofAscii h
  rcases hoffsets i hi with hhyphen | hdigit
  · refine ⟨45, hhyphens i hhyphen, by decide, ?_⟩
    rw [hyphens_toChars guid i hhyphen]
    rfl
  · have hchars := congrArg (List.map (Option.map Nat.digitChar)) hdigits
    rw [List.map_map, List.map_map] at hchars
    have hplace := List.map_inj_left.1 (hchars.trans (digits_toChars guid).symm) i hdigit
    have hwithin : i < guid.toChars.length := by
      rwa [length_toChars]
    rw [List.getElem?_eq_getElem hwithin] at hplace ⊢
    obtain ⟨d, hd, hchar⟩ := Option.map_eq_some_iff.1 hplace
    obtain ⟨octet, hoctet, hvalue⟩ := Option.bind_eq_some_iff.1 hd
    obtain ⟨hascii, -, hlower⟩ := Hex.of_digit?_eq_some hvalue
    exact ⟨octet, hoctet, hascii, by rw [hlower, hchar]⟩

theorem spelledBy_of_ofAscii :
    guid.SpelledBy text := by
  have hlength := (places_of_ofAscii h).1
  have hascii : ∀ octet ∈ text, octet.toNat < 128 := by
    intro octet hoctet
    obtain ⟨i, hget⟩ := List.mem_iff_getElem?.1 hoctet
    obtain ⟨hi, -⟩ := List.getElem?_eq_some_iff.1 hget
    obtain ⟨_, hplace, hsmall, -⟩ := letter_of_ofAscii h (hlength ▸ hi)
    rw [hget] at hplace
    exact Option.some.inj hplace ▸ hsmall
  refine ⟨text.map Utf8.character, (Utf8.encode_characters hascii).symm, ?_⟩
  refine List.ext_getElem? fun i => ?_
  by_cases hi : i < textLength
  · obtain ⟨octet, hget, -, hchar⟩ := letter_of_ofAscii h hi
    simp [hget, hchar]
  · rw [List.getElem?_eq_none, List.getElem?_eq_none]
    · rw [length_toChars]
      omega
    · rw [List.length_map, List.length_map, hlength]
      omega

end Reading

/-- Reading accepts exactly the spellings of identifiers. -/
theorem ofAscii_eq_ok_iff {guid : Guid} {text : Bytes} :
    ofAscii text = .ok guid ↔ guid.SpelledBy text := by
  constructor
  · exact spelledBy_of_ofAscii
  · rintro ⟨chars, rfl, hchars⟩
    exact ofAscii_of_toLower hchars

end Guid
end FirmwareVariables
