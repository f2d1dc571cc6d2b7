import FirmwareVariables.Proofs.Guid.Reading

/-!
# Octets in hexadecimal text

Octets are written as pairs of digits in lower case, and pairs of digits in either case are read.
`Hex.toBytes?_of_toLower` says that a text that is what the octets are written as, up to its case,
is read as these octets. A number in twice as many digits is written as its octets are:
`Hex.fixed_eq_flatMap`.
-/

namespace FirmwareVariables

/-- The last `width` octets of a number, the most significant first. -/
def Bytes.bigEndian : Nat → Nat → Bytes
  | 0, _ => []
  | width + 1, n => bigEndian width (n / 256) ++ [UInt8.ofNat n]

theorem Bytes.length_bigEndian (width n : Nat) :
    (bigEndian width n).length = width := by
  induction width generalizing n with
  | zero => rfl
  | succ width ih => rw [bigEndian, List.length_append, ih, List.length_singleton]

namespace Hex

/-- The two digits of the last octet of a number are its last two digits. -/
theorem fixed_two_ofNat (n : Nat) :
    fixed 2 (UInt8.ofNat n).toNat = [Nat.digitChar (n / 16 % 16), Nat.digitChar (n % 16)] := by
  have hhigh : n % 256 / 16 % 16 = n / 16 % 16 := by
    omega
  have hlow : n % 256 % 16 = n % 16 := by
    omega
  simp only [fixed, UInt8.toNat_ofNat', Nat.reducePow, hhigh, hlow, List.nil_append,
    List.cons_append]

/-- Twice as many digits as octets are the digits of the octets. -/
theorem fixed_eq_flatMap (width n : Nat) :
    fixed (2 * width) n = (Bytes.bigEndian width n).flatMap fun b => fixed 2 b.toNat := by
  induction width generalizing n with
  | zero => rfl
  | succ width ih =>
      have hfront : n / 16 / 16 = n / 256 := by
        rw [Nat.div_div_eq_div_mul]
      rw [Bytes.bigEndian, List.flatMap_append, ← ih, List.flatMap_singleton, fixed_two_ofNat,
        Nat.mul_succ, fixed, fixed, hfront, List.append_assoc, List.singleton_append]

theorem toList_ofBytes (bytes : Bytes) :
    (ofBytes bytes).toList = bytes.flatMap fun b => fixed 2 b.toNat := by
  rw [ofBytes, String.toList_ofList]

theorem length_toList_ofBytes (bytes : Bytes) :
    (ofBytes bytes).toList.length = 2 * bytes.length := by
  rw [toList_ofBytes]
  induction bytes with
  | nil => rfl
  | cons b bytes ih =>
      rw [List.flatMap_cons, List.length_append, length_fixed, ih, List.length_cons]
      omega

/-- Octets are written with the digits in lower case. -/
theorem exists_digit_of_mem_ofBytes
    {bytes : Bytes} {c : Char} (h : c ∈ (ofBytes bytes).toList) :
    ∃ d < 16, c = Nat.digitChar d := by
  rw [toList_ofBytes, List.mem_flatMap] at h
  obtain ⟨b, -, hc⟩ := h
  rw [fixed_eq_map_digits] at hc
  obtain ⟨d, hd, rfl⟩ := List.mem_map.1 hc
  exact ⟨d, lt_of_mem_digits hd, rfl⟩

/-- What is a digit in lower case is an ASCII character in either. -/
theorem toNat_of_toLower_digit
    {c : Char} (h : ∃ d < 16, c.toLower = Nat.digitChar d) :
    c.toNat < 128 := by
  have hall : ∀ d < 16, (Nat.digitChar d).toNat < 128 := by
    decide
  obtain ⟨d, hd, hlower⟩ := h
  have hsmall := hall d hd
  rw [← hlower, toNat_toLower] at hsmall
  split at hsmall <;> omega

/-- The digits of an octet write it. -/
theorem octets_digits_append (b : UInt8) (rest : List Nat) :
    octets (digits 2 b.toNat ++ rest) = b :: octets rest := by
  have hb := b.toNat_lt
  have hvalue : 16 * (b.toNat / 16 % 16) + b.toNat % 16 = b.toNat := by
    omega
  simp only [digits, List.nil_append, List.cons_append, octets, hvalue, UInt8.ofNat_toNat]

theorem octets_flatMap_digits (bytes : Bytes) :
    octets (bytes.flatMap fun b => digits 2 b.toNat) = bytes := by
  induction bytes with
  | nil => rfl
  | cons b bytes ih => rw [List.flatMap_cons, octets_digits_append, ih]

/-- Every written digit is read back. -/
theorem mapM_digit?_map
    {values : List Nat} (h : ∀ d ∈ values, d < 16) :
    (values.map fun d => Utf8.octet (Nat.digitChar d)).mapM digit? = some values := by
  induction values with
  | nil => rfl
  | cons d values ih =>
      have hfirst : digit? (Utf8.octet (Nat.digitChar d)) = some d :=
        digit?_digitChar (h d List.mem_cons_self)
      have hrest := ih fun e he => h e (List.mem_cons_of_mem d he)
      rw [List.map_cons, List.mapM_cons, hfirst, hrest]
      rfl

theorem mapM_digit?_ofBytes (bytes : Bytes) :
    ((ofBytes bytes).toList.map Utf8.octet).mapM digit? =
      some (bytes.flatMap fun b => digits 2 b.toNat) := by
  have hdigits : ∀ d ∈ bytes.flatMap fun b => digits 2 b.toNat, d < 16 := by
    intro d hd
    obtain ⟨b, -, hd⟩ := List.mem_flatMap.1 hd
    exact lt_of_mem_digits hd
  rw [← mapM_digit?_map hdigits, toList_ofBytes, List.map_flatMap, List.map_flatMap]
  simp only [fixed_eq_map_digits, List.map_map, Function.comp_def]

/-- Pairs of digits are read in either case. -/
theorem toBytes?_of_toLower
    {chars : List Char} {bytes : Bytes}
    (h : chars.map Char.toLower = (ofBytes bytes).toList) :
    toBytes? (String.ofList chars) = some bytes := by
  have hascii : ∀ c ∈ chars, c.toNat < 128 := by
    intro c hc
    exact toNat_of_toLower_digit (exists_digit_of_mem_ofBytes (h ▸ List.mem_map_of_mem hc))
  have hread : (chars.map Utf8.octet).mapM digit? =
      some (bytes.flatMap fun b => digits 2 b.toNat) := by
    rw [← mapM_digit?_ofBytes, ← h, List.map_map, List.mapM_map, List.mapM_map]
    congr 1
    funext c
    exact (digit?_toLower c).symm
  have heven : (bytes.flatMap fun b => digits 2 b.toNat).length % 2 = 0 := by
    have hlength := length_toList_ofBytes bytes
    rw [toList_ofBytes] at hlength
    simp only [fixed_eq_map_digits, ← List.map_flatMap, List.length_map] at hlength
    omega
  simp only [toBytes?, Utf8.encode_of_ascii hascii, hread, heven, ↓reduceIte, octets_flatMap_digits]

/-- Written octets are read back. -/
theorem toBytes?_ofBytes (bytes : Bytes) :
    toBytes? (ofBytes bytes) = some bytes := by
  have hlower : ∀ d < 16, (Nat.digitChar d).toLower = Nat.digitChar d := by
    decide
  have hsame : (ofBytes bytes).toList.map Char.toLower = (ofBytes bytes).toList := by
    refine (List.map_congr_left fun c hc => ?_).trans (List.map_id _)
    obtain ⟨d, hd, rfl⟩ := exists_digit_of_mem_ofBytes hc
    exact hlower d hd
  have hread := toBytes?_of_toLower hsame
  rwa [String.ofList_toList] at hread

end Hex
end FirmwareVariables
