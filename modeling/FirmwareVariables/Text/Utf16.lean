/-!
# UTF-16 text

Firmware keeps names as sequences of 16-bit units. A character beyond the first 65536
takes two units, a high surrogate and a low one. Reading gives a replacement character
for each surrogate that stands alone; the main statement is that reading gives back
every text that was written.
-/

namespace FirmwareVariables
namespace Utf16

def encodeChar (c : Char) : List UInt16 :=
  if c.toNat < 0x10000 then
    [UInt16.ofNat c.toNat]
  else
    [UInt16.ofNat (0xD800 + (c.toNat - 0x10000) / 0x400),
      UInt16.ofNat (0xDC00 + (c.toNat - 0x10000) % 0x400)]

def encode (chars : List Char) : List UInt16 :=
  chars.flatMap encodeChar

/-- The first of the two units of a character. -/
def isHigh (unit : UInt16) : Bool :=
  0xD800 ≤ unit && unit < 0xDC00

/-- The second of the two units of a character. -/
def isLow (unit : UInt16) : Bool :=
  0xDC00 ≤ unit && unit < 0xE000

/-- The character of a high and a low surrogate. -/
def joined (high low : UInt16) : Char :=
  Char.ofNat (0x10000 + (high.toNat - 0xD800) * 0x400 + (low.toNat - 0xDC00))

/-- The character that stands for a surrogate alone. -/
def replacement : Char :=
  Char.ofNat 0xFFFD

/-- The characters of any sequence of units. -/
def decode : List UInt16 → List Char
  | [] => []
  | [unit] => [if isHigh unit || isLow unit then replacement else Char.ofNat unit.toNat]
  | unit :: next :: rest =>
      if isHigh unit then
        if isLow next then
          joined unit next :: decode rest
        else
          replacement :: decode (next :: rest)
      else if isLow unit then
        replacement :: decode (next :: rest)
      else
        Char.ofNat unit.toNat :: decode (next :: rest)

theorem decode_cons_of_plain {unit : UInt16} (hhigh : isHigh unit = false)
    (hlow : isLow unit = false) (rest : List UInt16) :
    decode (unit :: rest) = Char.ofNat unit.toNat :: decode rest := by
  cases rest with
  | nil => simp [decode, hhigh, hlow]
  | cons next rest => simp [decode, hhigh, hlow]

theorem decode_cons_of_pair {high low : UInt16} (hhigh : isHigh high = true)
    (hlow : isLow low = true) (rest : List UInt16) :
    decode (high :: low :: rest) = joined high low :: decode rest := by
  simp [decode, hhigh, hlow]

theorem toNat_ofNat_of_lt {n : Nat} (h : n < 0x10000) :
    (UInt16.ofNat n).toNat = n := by
  simpa using Nat.mod_eq_of_lt h

/-- A character is written as one unit that is no surrogate, or as a high and a low surrogate. -/
theorem encodeChar_cases (c : Char) :
    (∃ unit,
      encodeChar c = [unit] ∧
      isHigh unit = false ∧ isLow unit = false ∧
      unit.toNat = c.toNat) ∨
    ∃ high low,
      encodeChar c = [high, low] ∧
      isHigh high = true ∧ isLow low = true ∧
      joined high low = c := by
  have hvalid : c.toNat < 0xD800 ∨ 0xDFFF < c.toNat ∧ c.toNat < 0x110000 := c.valid
  by_cases hsmall : c.toNat < 0x10000
  · have hunit := toNat_ofNat_of_lt hsmall
    have hhigh : isHigh (UInt16.ofNat c.toNat) = false := by
      simp only [isHigh, Bool.and_eq_false_imp, decide_eq_true_eq, decide_eq_false_iff_not,
        UInt16.le_iff_toNat_le, UInt16.lt_iff_toNat_lt, hunit]
      simp
      omega
    have hlow : isLow (UInt16.ofNat c.toNat) = false := by
      simp only [isLow, Bool.and_eq_false_imp, decide_eq_true_eq, decide_eq_false_iff_not,
        UInt16.le_iff_toNat_le, UInt16.lt_iff_toNat_lt, hunit]
      simp
      omega
    exact .inl ⟨_, by simp only [encodeChar, hsmall, ↓reduceIte], hhigh, hlow, hunit⟩
  · have hfirst : 0xD800 + (c.toNat - 0x10000) / 0x400 < 0xDC00 := by
      omega
    have hsecond : 0xDC00 + (c.toNat - 0x10000) % 0x400 < 0xE000 := by
      omega
    have hfirstNat := toNat_ofNat_of_lt (Nat.lt_trans hfirst (by decide))
    have hsecondNat := toNat_ofNat_of_lt (Nat.lt_trans hsecond (by decide))
    have hhigh : isHigh (UInt16.ofNat (0xD800 + (c.toNat - 0x10000) / 0x400)) = true := by
      simp only [isHigh, Bool.and_eq_true, decide_eq_true_eq, UInt16.le_iff_toNat_le,
        UInt16.lt_iff_toNat_lt, hfirstNat]
      simp
      omega
    have hlow : isLow (UInt16.ofNat (0xDC00 + (c.toNat - 0x10000) % 0x400)) = true := by
      simp only [isLow, Bool.and_eq_true, decide_eq_true_eq, UInt16.le_iff_toNat_le,
        UInt16.lt_iff_toNat_lt, hsecondNat]
      simp
      omega
    have hback : 0x10000 + (0xD800 + (c.toNat - 0x10000) / 0x400 - 0xD800) * 0x400 +
        (0xDC00 + (c.toNat - 0x10000) % 0x400 - 0xDC00) = c.toNat := by
      omega
    refine .inr ⟨_, _, by simp only [encodeChar, hsmall, ↓reduceIte], hhigh, hlow, ?_⟩
    rw [joined, hfirstNat, hsecondNat, hback, Char.ofNat_toNat]

/-- A written character is read back, whatever follows it. -/
theorem decode_encodeChar_append (c : Char) (rest : List UInt16) :
    decode (encodeChar c ++ rest) = c :: decode rest := by
  rcases encodeChar_cases c with ⟨unit, hunit, hhigh, hlow, hcode⟩ |
    ⟨high, low, hunits, hhigh, hlow, hjoined⟩
  · rw [hunit, List.singleton_append, decode_cons_of_plain hhigh hlow, hcode, Char.ofNat_toNat]
  · rw [hunits, List.cons_append, List.singleton_append, decode_cons_of_pair hhigh hlow, hjoined]

/-- Reading gives back every text that was written. -/
@[simp] theorem decode_encode (chars : List Char) :
    decode (encode chars) = chars := by
  induction chars with
  | nil => rfl
  | cons c chars ih =>
      rw [encode, List.flatMap_cons, decode_encodeChar_append]
      exact congrArg (c :: ·) ih

end Utf16
end FirmwareVariables
