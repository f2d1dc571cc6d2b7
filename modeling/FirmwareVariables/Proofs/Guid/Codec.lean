import FirmwareVariables.Guid.Json
import FirmwareVariables.Proofs.Guid.Spelling
import Mathlib.Order.Bounds.Basic

/-!
# The text of an identifier, both ways

Writing and reading an identifier are a codec: what is written is read back, also as a JSON value,
and what is read is written again in lower case. `Guid.WellFormed` says which texts are read, place
by place, and `Guid.Faulty` which fault is named of any other: the length counts before the
hyphens and the hyphens before the digits, and among the places of a kind the first one.

The main statement, `Guid.text_codec`, takes all of this together, for every identifier and for
every string of octets.
-/

namespace FirmwareVariables

/-- The octet of a digit in base sixteen, in either case. -/
def Hex.IsDigit (octet : UInt8) : Prop :=
  48 ≤ octet ∧ octet ≤ 57 ∨ 65 ≤ octet ∧ octet ≤ 70 ∨ 97 ≤ octet ∧ octet ≤ 102

theorem Hex.isSome_digit?_iff (octet : UInt8) :
    (digit? octet).isSome = true ↔ IsDigit octet := by
  unfold digit? IsDigit
  split
  · simp [*]
  · split
    · simp [*]
    · split
      · simp [*]
      · simp [*]

namespace Utf8

/-- An octet with its ASCII letter, if it is one, in lower case. -/
def lower (octet : UInt8) : UInt8 :=
  if 65 ≤ octet ∧ octet ≤ 90 then octet + 32 else octet

theorem octet_toLower
    {c : Char} (h : c.toNat < 128) :
    octet c.toLower = lower (octet c) := by
  have hall : ∀ n < 128, octet (Char.ofNat n).toLower = lower (octet (Char.ofNat n)) := by
    decide
  have hc := hall c.toNat h
  rwa [Char.ofNat_toNat] at hc

end Utf8

namespace Guid

/-- In an ascending list, the first place that is found is the least one. -/
theorem find?_eq_some_iff_isLeast
    {places : List Nat} (hsorted : places.Pairwise (· < ·)) {p : Nat → Bool} {i : Nat} :
    places.find? p = some i ↔ IsLeast {j | j ∈ places ∧ p j = true} i := by
  have hleast {i : Nat} (hfound : places.find? p = some i) :
      IsLeast {j | j ∈ places ∧ p j = true} i := by
    refine ⟨⟨List.mem_of_find?_eq_some hfound, List.find?_some hfound⟩, ?_⟩
    rintro j ⟨hmem, hj⟩
    obtain ⟨-, before, behind, rfl, hbefore⟩ := List.find?_eq_some_iff_append.1 hfound
    rw [List.pairwise_append, List.pairwise_cons] at hsorted
    rcases List.mem_append.1 hmem with hmem | hmem
    · have hnot := hbefore j hmem
      rw [hj] at hnot
      cases hnot
    · rcases List.mem_cons.1 hmem with rfl | hmem
      · exact Nat.le_refl j
      · exact Nat.le_of_lt (hsorted.2.1.1 j hmem)
  refine ⟨hleast, fun h => ?_⟩
  obtain ⟨found, hfound⟩ := Option.isSome_iff_exists.1 (List.find?_isSome.2 ⟨i, h.1⟩)
  rw [hfound, (hleast hfound).unique h]

def HyphenAt (text : Bytes) (i : Nat) : Prop :=
  text[i]? = some 45

def DigitAt (text : Bytes) (i : Nat) : Prop :=
  ∃ octet, text[i]? = some octet ∧ Hex.IsDigit octet

/-- A text with the hyphens and digits of an identifier. -/
structure WellFormed (text : Bytes) : Prop where
  length : text.length = 36
  hyphens : ∀ i ∈ [8, 13, 18, 23], HyphenAt text i
  digits : ∀ i < 36, i ∉ [8, 13, 18, 23] → DigitAt text i

/-- What is wrong with a text, as it is named. -/
def Faulty (text : Bytes) : TextError → Prop
  | .length found => text.length ≠ 36 ∧ found = text.length
  | .hyphen offset =>
      text.length = 36 ∧
        IsLeast {i | i ∈ [8, 13, 18, 23] ∧ ¬ HyphenAt text i} offset
  | .digit offset =>
      text.length = 36 ∧
        (∀ i ∈ [8, 13, 18, 23], HyphenAt text i) ∧
        IsLeast {i | i < 36 ∧ i ∉ [8, 13, 18, 23] ∧ ¬ DigitAt text i} offset

/-- What an answer says of the text that was read. -/
def Answers (text : Bytes) : Except TextError Guid → Prop
  | .ok _ => WellFormed text
  | .error error => Faulty text error

theorem mem_digitOffsets_iff (i : Nat) :
    i ∈ digitOffsets ↔ i < 36 ∧ i ∉ [8, 13, 18, 23] := by
  simp [digitOffsets, textLength, hyphenOffsets]

theorem digitAt_iff (text : Bytes) (i : Nat) :
    DigitAt text i ↔ (text[i]?.bind Hex.digit?).isSome = true := by
  unfold DigitAt
  cases text[i]? with
  | none => simp
  | some octet => simp [Hex.isSome_digit?_iff]

section Faults

variable {text : Bytes}

/-- A text has one fault. -/
theorem Faulty.unique
    {one other : TextError} (hone : Faulty text one) (hother : Faulty text other) :
    one = other := by
  cases one with
  | length found =>
      cases other with
      | length _ => rw [hone.2, hother.2]
      | hyphen _ => exact absurd hother.1 hone.1
      | digit _ => exact absurd hother.1 hone.1
  | hyphen offset =>
      obtain ⟨hlength, hfirst⟩ := hone
      cases other with
      | length _ => exact absurd hlength hother.1
      | hyphen _ => rw [hfirst.unique hother.2]
      | digit _ => exact absurd (hother.2.1 offset hfirst.1.1) hfirst.1.2
  | digit offset =>
      obtain ⟨hlength, hhyphens, hfirst⟩ := hone
      cases other with
      | length _ => exact absurd hlength hother.1
      | hyphen missing => exact absurd (hhyphens missing hother.2.1.1) hother.2.1.2
      | digit _ => rw [hfirst.unique hother.2.2]

/-- A text is well-formed or has a fault, not both. -/
theorem WellFormed.not_faulty
    (h : WellFormed text) (error : TextError) :
    ¬ Faulty text error := by
  intro hfaulty
  cases error with
  | length found => exact hfaulty.1 h.length
  | hyphen offset =>
      obtain ⟨-, ⟨hoffset, hmissing⟩, -⟩ := hfaulty
      exact hmissing (h.hyphens offset hoffset)
  | digit offset =>
      obtain ⟨-, -, ⟨hlt, hoffset, hmissing⟩, -⟩ := hfaulty
      exact hmissing (h.digits offset hlt hoffset)

/-- The hyphen that reading misses is the first one that is missing. -/
theorem find?_hyphen_iff (offset : Nat) :
    (hyphenOffsets.find? fun i => text[i]? ≠ some 45) = some offset ↔
      IsLeast {i | i ∈ [8, 13, 18, 23] ∧ ¬ HyphenAt text i} offset := by
  have hsorted : hyphenOffsets.Pairwise (· < ·) := by
    decide
  rw [find?_eq_some_iff_isLeast hsorted]
  simp only [hyphenOffsets, HyphenAt, decide_eq_true_eq]

/-- The place that reading finds without a digit is the first one. -/
theorem find?_digit_iff (offset : Nat) :
    (digitOffsets.find? fun i => (text[i]?.bind Hex.digit?).isNone) = some offset ↔
      IsLeast {i | i < 36 ∧ i ∉ [8, 13, 18, 23] ∧ ¬ DigitAt text i} offset := by
  have hsorted : digitOffsets.Pairwise (· < ·) := by
    decide
  rw [find?_eq_some_iff_isLeast hsorted]
  have hplaces : {i | i ∈ digitOffsets ∧ (text[i]?.bind Hex.digit?).isNone = true} =
      {i | i < 36 ∧ i ∉ [8, 13, 18, 23] ∧ ¬ DigitAt text i} := by
    ext i
    simp only [Set.mem_ofPred_eq, mem_digitOffsets_iff, digitAt_iff, and_assoc]
    simp
  rw [hplaces]

/-- Reading looks for the faults in their order, and accepts what has none. -/
theorem answers_ofAscii :
    Answers text (ofAscii text) := by
  unfold ofAscii
  split
  · rename_i hlength
    exact ⟨hlength, rfl⟩
  have hlength : text.length = 36 := not_not.1 ‹¬ text.length ≠ textLength›
  split
  · rename_i offset hmissing
    exact ⟨hlength, find?_hyphen_iff offset |>.1 hmissing⟩
  rename_i hnone
  have hhyphens : ∀ i ∈ [8, 13, 18, 23], HyphenAt text i := by
    simpa [HyphenAt, hyphenOffsets] using hnone
  split
  · rename_i offset hmissing
    exact ⟨hlength, hhyphens, find?_digit_iff offset |>.1 hmissing⟩
  · rename_i hdigits
    rw [List.find?_eq_none] at hdigits
    refine ⟨hlength, hhyphens, fun i hlt hi => ?_⟩
    have hsome := hdigits i ((mem_digitOffsets_iff i).2 ⟨hlt, hi⟩)
    rw [digitAt_iff]
    simpa [Option.isSome_iff_ne_none] using hsome

theorem exists_ofAscii_eq_ok_iff :
    (∃ guid, ofAscii text = .ok guid) ↔ WellFormed text := by
  have hanswers : Answers text (ofAscii text) := answers_ofAscii
  cases hread : ofAscii text with
  | ok guid =>
      rw [hread] at hanswers
      exact ⟨fun _ => hanswers, fun _ => ⟨guid, rfl⟩⟩
  | error error =>
      rw [hread] at hanswers
      exact ⟨by simp, fun h => absurd hanswers (h.not_faulty error)⟩

theorem ofAscii_eq_error_iff (error : TextError) :
    ofAscii text = .error error ↔ Faulty text error := by
  have hanswers : Answers text (ofAscii text) := answers_ofAscii
  cases hread : ofAscii text with
  | ok guid =>
      rw [hread] at hanswers
      exact ⟨by simp, fun h => absurd h (hanswers.not_faulty error)⟩
  | error found =>
      rw [hread] at hanswers
      constructor
      · rintro ⟨⟩
        exact hanswers
      · intro h
        rw [hanswers.unique h]

end Faults

section RoundTrip

variable (guid : Guid)

theorem encode_toText :
    Utf8.encode guid.toText = guid.toChars.map Utf8.octet :=
  Utf8.encode_of_ascii fun _ hc => (toNat_of_mem_toChars hc).2

theorem ofAscii_encode_toText :
    ofAscii (Utf8.encode guid.toText) = .ok guid := by
  rw [encode_toText, ofAscii_toChars]

theorem ofJson_toJson :
    ofJson guid.toJson = .ok guid := by
  simp only [toJson, ofJson, ofText, ofAscii_encode_toText]

/-- In JSON no character of the text is escaped. -/
theorem pretty_toJson (level : Nat) :
    Json.pretty level guid.toJson = String.ofList ('"' :: guid.toChars ++ ['"']) := by
  have hdigits : ∀ d < 16, Json.escape (Nat.digitChar d) = [Nat.digitChar d] := by
    decide
  have hplain : ∀ c ∈ guid.toChars, Json.escape c = [c] := by
    intro c hc
    rcases eq_hyphen_or_digitChar_of_mem_toChars hc with rfl | ⟨d, hd, rfl⟩
    · rfl
    · exact hdigits d hd
  rw [toJson, Json.pretty, Json.quote, toText, String.toList_ofList, List.flatMap_congr hplain,
    List.flatMap_singleton']

/-- What has been read is written again in lower case. -/
theorem encode_toText_of_ofAscii
    {text : Bytes} {guid : Guid} (h : ofAscii text = .ok guid) :
    Utf8.encode guid.toText = text.map Utf8.lower := by
  obtain ⟨chars, rfl, hchars⟩ := spelledBy_of_ofAscii h
  rw [encode_toText, encode_of_toLower hchars, ← hchars, List.map_map, List.map_map]
  refine List.map_congr_left fun c hc => ?_
  exact Utf8.octet_toLower (toNat_of_toLower hchars c hc).2

end RoundTrip

/--
The codec of identifiers. What is written is read back: from octets, from a text, and from a JSON
value, which shows the text between quotes. Exactly the well-formed texts are read, as the
identifier that is written as their lower case, and any other text is refused with its fault.
-/
theorem text_codec :
    (∀ guid : Guid,
      ofAscii (Utf8.encode guid.toText) = .ok guid ∧
      ofText guid.toText = .ok guid ∧
      ofJson guid.toJson = .ok guid ∧
      ∀ level,
        Json.pretty level guid.toJson = String.ofList ('"' :: guid.toText.toList ++ ['"'])) ∧
    ∀ text : Bytes,
      ((∃ guid, ofAscii text = .ok guid) ↔ WellFormed text) ∧
      (∀ guid,
        ofAscii text = .ok guid ↔
          WellFormed text ∧ Utf8.encode guid.toText = text.map Utf8.lower) ∧
      ∀ error, ofAscii text = .error error ↔ Faulty text error := by
  refine ⟨fun guid => ?_,
    fun text => ⟨exists_ofAscii_eq_ok_iff, fun guid => ?_, ofAscii_eq_error_iff⟩⟩
  · refine ⟨guid.ofAscii_encode_toText, guid.ofAscii_encode_toText, guid.ofJson_toJson,
      fun level => ?_⟩
    rw [pretty_toJson, toText, String.toList_ofList]
  · constructor
    · intro h
      exact ⟨exists_ofAscii_eq_ok_iff.1 ⟨guid, h⟩, encode_toText_of_ofAscii h⟩
    · rintro ⟨hformed, hlower⟩
      -- What is read has the same text, and a text is read in one way only.
      obtain ⟨found, hfound⟩ := exists_ofAscii_eq_ok_iff.2 hformed
      have hsame := (encode_toText_of_ofAscii hfound).trans hlower.symm
      have hread := found.ofAscii_encode_toText
      rw [hsame, guid.ofAscii_encode_toText] at hread
      rw [hfound, Except.ok.inj hread]

end Guid
end FirmwareVariables
