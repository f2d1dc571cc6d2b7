import FirmwareVariables.Guid.Text

/-!
# Reading the text of an identifier

A canonical text is read back: it writes down the values of its 32 digits, from which the fields
are put together. Reading does not tell cases apart. The main statement,
`Guid.ofAscii_of_toLower`, takes both together: a text that is canonical up to its case is read
as the identifier whose text it is.
-/

namespace FirmwareVariables

namespace Utf8

theorem encode_ofList (chars : List Char) :
    encode (String.ofList chars) = chars.flatMap String.utf8EncodeChar := by
  simp [encode, List.utf8Encode]

def octet (c : Char) : UInt8 :=
  UInt8.ofNat c.toNat

/-- ASCII characters are encoded as they are. -/
theorem encode_of_ascii
    {chars : List Char} (h : ∀ c ∈ chars, c.toNat < 128) :
    encode (String.ofList chars) = chars.map octet := by
  rw [encode_ofList]
  induction chars with
  | nil => rfl
  | cons c chars ih =>
      have hc := h c List.mem_cons_self
      have hsize : c.utf8Size = 1 := by
        rw [Char.utf8Size_eq_one_iff, UInt32.le_iff_toNat_le]
        exact Nat.le_of_lt_succ hc
      rw [List.flatMap_cons, ih fun d hd => h d (List.mem_cons_of_mem _ hd),
        String.utf8EncodeChar_eq_singleton hsize]
      rfl

end Utf8

namespace Hex

/-- The values of the last `width` digits of a number. -/
def digits : Nat → Nat → List Nat
  | 0, _ => []
  | width + 1, n => digits width (n / 16) ++ [n % 16]

theorem fixed_eq_map_digits (width n : Nat) :
    fixed width n = (digits width n).map Nat.digitChar := by
  induction width generalizing n with
  | zero => rfl
  | succ width ih => rw [fixed, digits, List.map_append, ih, List.map_singleton]

theorem lt_of_mem_digits
    {width n d : Nat} (h : d ∈ digits width n) :
    d < 16 := by
  induction width generalizing n with
  | zero => cases h
  | succ width ih =>
      rw [digits, List.mem_append, List.mem_singleton] at h
      rcases h with hfront | rfl
      · exact ih hfront
      · exact Nat.mod_lt n (by decide)

theorem number_concat (values : List Nat) (d : Nat) :
    number (values ++ [d]) = 16 * number values + d := by
  rw [number, List.foldl_append]
  rfl

/-- How many numbers there are of so many digits. -/
def bound : Nat → Nat
  | 0 => 1
  | width + 1 => 16 * bound width

/-- The digits of a number write it down again. -/
theorem number_digits (width n : Nat) :
    number (digits width n) = n % bound width := by
  induction width generalizing n with
  | zero => exact (Nat.mod_one n).symm
  | succ width ih => rw [digits, number_concat, ih, bound, Nat.mod_mul, Nat.add_comm]

theorem toNat_toLower (c : Char) :
    c.toLower.toNat = if 65 ≤ c.toNat ∧ c.toNat ≤ 90 then c.toNat + 32 else c.toNat := by
  have hupper : c.val ≥ 'A'.val ∧ c.val ≤ 'Z'.val ↔ 65 ≤ c.toNat ∧ c.toNat ≤ 90 := by
    rw [ge_iff_le, UInt32.le_iff_toNat_le, UInt32.le_iff_toNat_le]
    rfl
  unfold Char.toLower
  split
  · rename_i h
    rw [if_pos (hupper.1 h)]
    have hsmall := (hupper.1 h).2
    change (c.val + 32).toNat = c.toNat + 32
    rw [UInt32.toNat_add]
    change (c.toNat + 32) % 4294967296 = c.toNat + 32
    omega
  · rename_i h
    rw [if_neg (mt hupper.2 h)]

/-- A character without case is its own lower case, and 26 others have one. -/
theorem toLower_cases (c : Char) :
    c.toLower = c ∨ ∃ k < 26, c.toNat = 65 + k ∧ c.toLower.toNat = 97 + k := by
  have hlower := toNat_toLower c
  by_cases hcase : 65 ≤ c.toNat ∧ c.toNat ≤ 90
  · rw [if_pos hcase] at hlower
    exact .inr ⟨c.toNat - 65, by omega, by omega, by omega⟩
  · rw [if_neg hcase] at hlower
    exact .inl (Char.toNat_inj.1 hlower)

/-- A digit has the same value in either case. -/
theorem digit?_toLower (c : Char) :
    digit? (Utf8.octet c.toLower) = digit? (Utf8.octet c) := by
  have hletters : ∀ k < 26, digit? (UInt8.ofNat (97 + k)) = digit? (UInt8.ofNat (65 + k)) := by
    decide
  rcases toLower_cases c with hsame | ⟨k, hk, hupper, hlower⟩
  · rw [hsame]
  · rw [Utf8.octet, Utf8.octet, hupper, hlower, hletters k hk]

/-- No letter is a hyphen in either case. -/
theorem toLower_hyphen (c : Char) :
    Utf8.octet c.toLower = 45 ↔ Utf8.octet c = 45 := by
  have hletters : ∀ k < 26, UInt8.ofNat (97 + k) ≠ 45 ∧ UInt8.ofNat (65 + k) ≠ 45 := by
    decide
  rcases toLower_cases c with hsame | ⟨k, hk, hupper, hlower⟩
  · rw [hsame]
  · rw [Utf8.octet, Utf8.octet, hupper, hlower]
    simp only [hletters k hk]

end Hex

namespace Guid

/-- The values of all digits of the text, in its order. -/
def digits (guid : Guid) : List Nat :=
  Hex.digits 8 guid.data1.toNat ++ Hex.digits 4 guid.data2.toNat ++
    Hex.digits 4 guid.data3.toNat ++
    (List.range 8).flatMap fun i => Hex.digits 2 (guid.data4.toList.getD i 0).toNat

theorem hyphens_toChars (guid : Guid) :
    ∀ i ∈ hyphenOffsets, guid.toChars[i]? = some '-' := by
  intro i hi
  simp only [toChars, Hex.fixed, List.nil_append, List.cons_append]
  simp only [hyphenOffsets, List.mem_cons, List.not_mem_nil, or_false] at hi
  rcases hi with rfl | rfl | rfl | rfl <;> rfl

/-- The digits one by one. -/
theorem digits_eq (guid : Guid) :
    guid.digits =
      Hex.digits 8 guid.data1.toNat ++ (Hex.digits 4 guid.data2.toNat ++
        (Hex.digits 4 guid.data3.toNat ++ (Hex.digits 2 (guid.data4.toList.getD 0 0).toNat ++
          (Hex.digits 2 (guid.data4.toList.getD 1 0).toNat ++
          (Hex.digits 2 (guid.data4.toList.getD 2 0).toNat ++
          (Hex.digits 2 (guid.data4.toList.getD 3 0).toNat ++
          (Hex.digits 2 (guid.data4.toList.getD 4 0).toNat ++
          (Hex.digits 2 (guid.data4.toList.getD 5 0).toNat ++
          (Hex.digits 2 (guid.data4.toList.getD 6 0).toNat ++
            Hex.digits 2 (guid.data4.toList.getD 7 0).toNat))))))))) := by
  have hrange : List.range 8 = [0, 1, 2, 3, 4, 5, 6, 7] := by
    decide
  simp only [digits, hrange, List.flatMap_cons, List.flatMap_nil, List.append_nil,
    List.append_assoc]

/-- The last field has eight octets. -/
theorem toList_data4 (guid : Guid) :
    ∃ a b c d e f g h, guid.data4.toList = [a, b, c, d, e, f, g, h] := by
  have hlength : guid.data4.toList.length = 8 := guid.data4.length_toList
  match guid.data4.toList, hlength with
  | [a, b, c, d, e, f, g, h], _ => exact ⟨a, b, c, d, e, f, g, h, rfl⟩

/-- The text by the fields: the octets of the last one stand in two parts. -/
theorem toChars_eq (guid : Guid) :
    guid.toChars =
      Hex.fixed 8 guid.data1.toNat ++ '-' :: (Hex.fixed 4 guid.data2.toNat ++
        '-' :: (Hex.fixed 4 guid.data3.toNat ++
          '-' :: ((guid.data4.toList.take 2).flatMap (fun b => Hex.fixed 2 b.toNat) ++
            '-' :: (guid.data4.toList.drop 2).flatMap fun b => Hex.fixed 2 b.toNat))) := by
  obtain ⟨a, b, c, d, e, f, g, h, hlist⟩ := guid.toList_data4
  simp only [toChars, hlist, List.getD_cons_zero, List.getD_cons_succ, List.take_succ_cons,
    List.take_zero, List.drop_succ_cons, List.drop_zero, List.flatMap_cons, List.flatMap_nil,
    List.append_nil, List.append_assoc, List.cons_append]

theorem digits_toChars (guid : Guid) :
    digitOffsets.map (guid.toChars[·]?) = guid.digits.map fun d => some (Nat.digitChar d) := by
  have hoffsets : digitOffsets =
      [0, 1, 2, 3, 4, 5, 6, 7, 9, 10, 11, 12, 14, 15, 16, 17, 19, 20, 21, 22, 24, 25, 26, 27, 28,
        29, 30, 31, 32, 33, 34, 35] := by
    decide
  rw [hoffsets, digits_eq]
  simp only [toChars, Hex.fixed, Hex.digits, List.nil_append, List.cons_append, List.map_cons,
    List.map_nil]
  rfl

theorem lt_of_mem_digits
    {guid : Guid} {d : Nat} (h : d ∈ guid.digits) :
    d < 16 := by
  simp only [digits, List.mem_append, List.mem_flatMap] at h
  rcases h with ((h | h) | h) | ⟨i, -, h⟩ <;> exact Hex.lt_of_mem_digits h

/-- The fields are put together from their digits. -/
theorem ofDigits_digits (guid : Guid) :
    ofDigits guid.digits = guid := by
  have hfirst : UInt32.ofNat (Hex.number (guid.digits.take 8)) = guid.data1 := by
    have htake : guid.digits.take 8 = Hex.digits 8 guid.data1.toNat := by
      rw [digits_eq]
      rfl
    have hlt : guid.data1.toNat < Hex.bound 8 := guid.data1.toNat_lt
    rw [htake, Hex.number_digits, Nat.mod_eq_of_lt hlt, UInt32.ofNat_toNat]
  have hsecond : UInt16.ofNat (Hex.number ((guid.digits.drop 8).take 4)) = guid.data2 := by
    have htake : (guid.digits.drop 8).take 4 = Hex.digits 4 guid.data2.toNat := by
      rw [digits_eq]
      rfl
    have hlt : guid.data2.toNat < Hex.bound 4 := guid.data2.toNat_lt
    rw [htake, Hex.number_digits, Nat.mod_eq_of_lt hlt, UInt16.ofNat_toNat]
  have hthird : UInt16.ofNat (Hex.number ((guid.digits.drop 12).take 4)) = guid.data3 := by
    have htake : (guid.digits.drop 12).take 4 = Hex.digits 4 guid.data3.toNat := by
      rw [digits_eq]
      rfl
    have hlt : guid.data3.toNat < Hex.bound 4 := guid.data3.toNat_lt
    rw [htake, Hex.number_digits, Nat.mod_eq_of_lt hlt, UInt16.ofNat_toNat]
  have htakes : ∀ i < 8, (guid.digits.drop (16 + 2 * i)).take 2 =
      Hex.digits 2 (guid.data4.toList.getD i 0).toNat := by
    intro i hi
    have hcases : i = 0 ∨ i = 1 ∨ i = 2 ∨ i = 3 ∨ i = 4 ∨ i = 5 ∨ i = 6 ∨ i = 7 := by
      omega
    rw [digits_eq]
    rcases hcases with rfl | rfl | rfl | rfl | rfl | rfl | rfl | rfl <;> rfl
  have hlast : (Vector.ofFn fun i : Fin 8 =>
      UInt8.ofNat (Hex.number ((guid.digits.drop (16 + 2 * i.val)).take 2))) = guid.data4 := by
    apply Vector.ext
    intro i hi
    have hlt : guid.data4[i].toNat < Hex.bound 2 := guid.data4[i].toNat_lt
    have hget : guid.data4.toList.getD i 0 = guid.data4[i] := by
      simp [hi]
    rw [Vector.getElem_ofFn, htakes i hi, Hex.number_digits, hget, Nat.mod_eq_of_lt hlt,
      UInt8.ofNat_toNat]
  unfold ofDigits
  rw [hfirst, hsecond, hthird, hlast]

/-- A text is read if its hyphens and digits stand where they should. -/
theorem ofAscii_of_digits
    {text : Bytes} {values : List Nat}
    (hlength : text.length = textLength)
    (hhyphens : ∀ i ∈ hyphenOffsets, text[i]? = some 45)
    (hdigits : digitOffsets.map (fun i => text[i]?.bind Hex.digit?) = values.map some) :
    ofAscii text = .ok (ofDigits values) := by
  have hnohyphen : hyphenOffsets.find? (fun i => text[i]? ≠ some 45) = none := by
    simpa [List.find?_eq_none] using hhyphens
  have hnodigit : digitOffsets.find? (fun i => (text[i]?.bind Hex.digit?).isNone) = none := by
    rw [List.find?_eq_none]
    intro i hi hnone
    have hmem : text[i]?.bind Hex.digit? ∈ values.map some := by
      rw [← hdigits]
      exact List.mem_map_of_mem hi
    obtain ⟨d, -, hd⟩ := List.mem_map.1 hmem
    rw [← hd] at hnone
    cases hnone
  have hvalues : digitOffsets.filterMap (fun i => text[i]?.bind Hex.digit?) = values := by
    have hmap := congrArg (List.filterMap id) hdigits
    simpa [List.filterMap_map] using hmap
  unfold ofAscii
  rw [if_neg (not_not_intro hlength)]
  simp only [hnohyphen, hnodigit, hvalues]

/-- Reading does not tell cases apart. -/
theorem ofAscii_toLower (chars : List Char) :
    ofAscii ((chars.map Char.toLower).map Utf8.octet) = ofAscii (chars.map Utf8.octet) := by
  have hhyphen (i : Nat) :
      ((chars.map Char.toLower).map Utf8.octet)[i]? = some 45 ↔
        (chars.map Utf8.octet)[i]? = some 45 := by
    cases hc : chars[i]? with
    | none => simp [hc]
    | some c => simp [hc, Hex.toLower_hyphen]
  have hdigit (i : Nat) :
      ((chars.map Char.toLower).map Utf8.octet)[i]?.bind Hex.digit? =
        (chars.map Utf8.octet)[i]?.bind Hex.digit? := by
    cases hc : chars[i]? with
    | none => simp [hc]
    | some c => simp [hc, Hex.digit?_toLower]
  simp only [ofAscii, List.length_map, hhyphen, hdigit, ne_eq]

theorem length_toChars (guid : Guid) :
    guid.toChars.length = textLength := by
  simp [toChars, textLength]

/-- The text is made of hyphens and digits in lower case. -/
theorem eq_hyphen_or_digitChar_of_mem_toChars
    {guid : Guid} {c : Char} (h : c ∈ guid.toChars) :
    c = '-' ∨ ∃ d < 16, c = Nat.digitChar d := by
  have hfixed (width n : Nat) (h : c ∈ Hex.fixed width n) :
      c = '-' ∨ ∃ d < 16, c = Nat.digitChar d := by
    rw [Hex.fixed_eq_map_digits] at h
    obtain ⟨d, hd, rfl⟩ := List.mem_map.1 h
    exact .inr ⟨d, Hex.lt_of_mem_digits hd, rfl⟩
  simp only [toChars, List.mem_append, List.mem_cons, or_assoc] at h
  rcases h with h | h | h | h | h | h | h | h | h | h | h | h | h | h | h <;>
    first
    | exact .inl h
    | exact hfixed _ _ h

theorem toNat_of_mem_toChars
    {guid : Guid} {c : Char} (h : c ∈ guid.toChars) :
    0 < c.toNat ∧ c.toNat < 128 := by
  have hdigits : ∀ d < 16, 0 < (Nat.digitChar d).toNat ∧ (Nat.digitChar d).toNat < 128 := by
    decide
  rcases eq_hyphen_or_digitChar_of_mem_toChars h with rfl | ⟨d, hd, rfl⟩
  · decide
  · exact hdigits d hd

/-- The canonical text is read back. -/
theorem ofAscii_toChars (guid : Guid) :
    ofAscii (guid.toChars.map Utf8.octet) = .ok guid := by
  have hlength : (guid.toChars.map Utf8.octet).length = textLength := by
    rw [List.length_map, length_toChars]
  have hhyphens : ∀ i ∈ hyphenOffsets, (guid.toChars.map Utf8.octet)[i]? = some 45 := by
    intro i hi
    rw [List.getElem?_map, hyphens_toChars guid i hi]
    rfl
  have hdigits : digitOffsets.map (fun i => (guid.toChars.map Utf8.octet)[i]?.bind Hex.digit?) =
      guid.digits.map some := by
    have hread (i : Nat) : (guid.toChars.map Utf8.octet)[i]?.bind Hex.digit? =
        guid.toChars[i]?.bind fun c => Hex.digit? (Utf8.octet c) := by
      rw [List.getElem?_map]
      cases guid.toChars[i]? <;> rfl
    have hchars := congrArg (List.map (·.bind fun c => Hex.digit? (Utf8.octet c)))
      (digits_toChars guid)
    simp only [List.map_map, Function.comp_def, Option.bind_some] at hchars
    simp only [hread, hchars]
    exact List.map_congr_left fun d hd => Hex.digit?_digitChar (lt_of_mem_digits hd)
  rw [ofAscii_of_digits hlength hhyphens hdigits, ofDigits_digits]

section UpToCase

variable {guid : Guid} {chars : List Char}

/-- A text that is canonical up to its case is plain ASCII without NULs. -/
theorem toNat_of_toLower
    (h : chars.map Char.toLower = guid.toChars) :
    ∀ c ∈ chars, 0 < c.toNat ∧ c.toNat < 128 := by
  intro c hc
  have hlower := toNat_of_mem_toChars (h ▸ List.mem_map_of_mem hc)
  rw [Hex.toNat_toLower] at hlower
  split at hlower <;> omega

theorem encode_of_toLower
    (h : chars.map Char.toLower = guid.toChars) :
    Utf8.encode (String.ofList chars) = chars.map Utf8.octet :=
  Utf8.encode_of_ascii fun c hc => (toNat_of_toLower h c hc).2

theorem length_of_toLower
    (h : chars.map Char.toLower = guid.toChars) :
    (Utf8.encode (String.ofList chars)).length = textLength := by
  rw [encode_of_toLower h, List.length_map, ← length_toChars guid, ← h, List.length_map]

theorem zero_notMem_of_toLower
    (h : chars.map Char.toLower = guid.toChars) :
    (0 : UInt8) ∉ Utf8.encode (String.ofList chars) := by
  rw [encode_of_toLower h]
  intro hzero
  obtain ⟨c, hc, hoctet⟩ := List.mem_map.1 hzero
  obtain ⟨hpositive, hascii⟩ := toNat_of_toLower h c hc
  have hcode : c.toNat % 256 = 0 := by
    simpa [Utf8.octet] using congrArg UInt8.toNat hoctet
  omega

/-- A text that is canonical up to its case is read as the identifier whose text it is. -/
theorem ofAscii_of_toLower
    (h : chars.map Char.toLower = guid.toChars) :
    ofAscii (Utf8.encode (String.ofList chars)) = .ok guid := by
  rw [encode_of_toLower h, ← ofAscii_toLower, h, ofAscii_toChars]

end UpToCase

end Guid

end FirmwareVariables
