import FirmwareVariables.Proofs.Guid.Spelling
import FirmwareVariables.Proofs.Text.Hex

/-!
# The binary form of an identifier

The sixteen octets of an identifier and its 32 digits hold the same octets in two orders: a text
writes every field the most significant octet first, and in memory the first three fields have
their octets backwards. `Guid.toBytes_eq` says this of the fields, and `Guid.digits_of_ofAscii`
that the digits of a text write the octets of the fields.

The main statement, `Guid.binary_form`, takes the round trips between identifiers and their octets
and the law between octets and texts together.
-/

namespace FirmwareVariables

namespace Bytes

theorem bigEndian_four (n : Nat) :
    bigEndian 4 n = ofCell n := by
  simp only [bigEndian, ofCell, Nat.div_div_eq_div_mul, Nat.reduceMul, List.nil_append,
    List.cons_append]

/-- The octets of a cell write its number, up to the 32 bits that it holds. -/
theorem cell_ofNat (n : Nat) :
    cell (UInt8.ofNat (n / 16777216)) (UInt8.ofNat (n / 65536)) (UInt8.ofNat (n / 256))
        (UInt8.ofNat n) =
      n % 4294967296 := by
  have hread := takeCell?_ofCell_append n []
  rw [ofCell, List.append_nil, takeCell?] at hread
  exact congrArg Prod.fst (Option.some.inj hread)

/-- Two octets write the number, up to the 16 bits that they hold. -/
theorem pair_ofNat (n : Nat) :
    (UInt8.ofNat (n / 256)).toNat * 256 + (UInt8.ofNat n).toNat = n % 65536 := by
  rw [UInt8.toNat_ofNat', UInt8.toNat_ofNat']
  omega

/-- Two octets are those of the number that they write. -/
theorem bigEndian_two (a b : UInt8) :
    bigEndian 2 (a.toNat * 256 + b.toNat) = [a, b] := by
  have ha := a.toNat_lt
  have hb := b.toNat_lt
  have hhigh : (a.toNat * 256 + b.toNat) / 256 = a.toNat := by
    omega
  have hlow : UInt8.ofNat (a.toNat * 256 + b.toNat) = b := by
    rw [← UInt8.toNat_inj, UInt8.toNat_ofNat']
    omega
  simp only [bigEndian, hhigh, hlow, UInt8.ofNat_toNat, List.nil_append, List.cons_append]

end Bytes

namespace Guid

/-- Octets of which the first four, the next two and the two after these are turned around. -/
def memoryOrder (octets : Bytes) : Bytes :=
  (octets.take 4).reverse ++ ((octets.drop 4).take 2).reverse ++
    ((octets.drop 6).take 2).reverse ++ octets.drop 8

/-- The octets of the fields in the order of the text. -/
def fieldOctets (guid : Guid) : Bytes :=
  Bytes.bigEndian 4 guid.data1.toNat ++ (Bytes.bigEndian 2 guid.data2.toNat ++
    (Bytes.bigEndian 2 guid.data3.toNat ++ guid.data4.toList))

theorem length_fieldOctets (guid : Guid) :
    guid.fieldOctets.length = 16 := by
  simp only [fieldOctets, List.length_append, Bytes.length_bigEndian, Vector.length_toList]

/-- In memory the octets of the first three fields are turned around. -/
theorem toBytes_eq (guid : Guid) :
    guid.toBytes = memoryOrder guid.fieldOctets := by
  rw [fieldOctets, Bytes.bigEndian_four]
  rfl

section RoundTrips

/-- The fields that sixteen octets write have these octets. -/
theorem fieldOctets_ofBytes (a b c d e f g h i j k l m n o p : UInt8) :
    (ofBytes #v[a, b, c, d, e, f, g, h, i, j, k, l, m, n, o, p]).fieldOctets =
      [d, c, b, a, f, e, h, g, i, j, k, l, m, n, o, p] := by
  have hcell : Bytes.cell d c b a < UInt32.size :=
    Bytes.cell_lt d c b a
  have hpair (high low : UInt8) : high.toNat * 256 + low.toNat < UInt16.size := by
    have hhigh := high.toNat_lt
    have hlow := low.toNat_lt
    change high.toNat * 256 + low.toNat < 65536
    omega
  have hfirst : Bytes.bigEndian 4 (UInt32.ofNat (Bytes.cell d c b a)).toNat = [d, c, b, a] := by
    rw [UInt32.toNat_ofNat_of_lt' hcell, Bytes.bigEndian_four, Bytes.ofCell_cell]
  have hword (high low : UInt8) :
      Bytes.bigEndian 2 (UInt16.ofNat (high.toNat * 256 + low.toNat)).toNat = [high, low] := by
    rw [UInt16.toNat_ofNat_of_lt' (hpair high low), Bytes.bigEndian_two]
  exact congrArg₂ (· ++ ·) hfirst (congrArg₂ (· ++ ·) (hword f e)
    (congrArg (· ++ [i, j, k, l, m, n, o, p]) (hword h g)))

theorem toBytes_ofBytes (octets : Vector UInt8 16) :
    (ofBytes octets).toBytes = octets.toList := by
  obtain ⟨⟨values⟩, hlength⟩ := octets
  match values, hlength with
  | [a, b, c, d, e, f, g, h, i, j, k, l, m, n, o, p], _ =>
      rw [toBytes_eq]
      exact congrArg memoryOrder (fieldOctets_ofBytes a b c d e f g h i j k l m n o p)

/-- The octets of an identifier are sixteen, and write it again. -/
theorem exists_ofBytes_eq (guid : Guid) :
    ∃ octets : Vector UInt8 16, octets.toList = guid.toBytes ∧ ofBytes octets = guid := by
  obtain ⟨a, b, c, d, e, f, g, h, hlist⟩ := guid.toList_data4
  have hfirst : UInt32.ofNat (Bytes.cell (UInt8.ofNat (guid.data1.toNat / 16777216))
      (UInt8.ofNat (guid.data1.toNat / 65536)) (UInt8.ofNat (guid.data1.toNat / 256))
      (UInt8.ofNat guid.data1.toNat)) = guid.data1 := by
    rw [Bytes.cell_ofNat, Nat.mod_eq_of_lt guid.data1.toNat_lt, UInt32.ofNat_toNat]
  have hword (word : UInt16) : UInt16.ofNat ((UInt8.ofNat (word.toNat / 256)).toNat * 256 +
      (UInt8.ofNat word.toNat).toNat) = word := by
    rw [Bytes.pair_ofNat, Nat.mod_eq_of_lt word.toNat_lt, UInt16.ofNat_toNat]
  have hlast : #v[a, b, c, d, e, f, g, h] = guid.data4 := by
    rw [← Vector.toList_inj, hlist]
    rfl
  refine ⟨#v[UInt8.ofNat guid.data1.toNat, UInt8.ofNat (guid.data1.toNat / 256),
    UInt8.ofNat (guid.data1.toNat / 65536), UInt8.ofNat (guid.data1.toNat / 16777216),
    UInt8.ofNat guid.data2.toNat, UInt8.ofNat (guid.data2.toNat / 256),
    UInt8.ofNat guid.data3.toNat, UInt8.ofNat (guid.data3.toNat / 256),
    a, b, c, d, e, f, g, h], ?_, ?_⟩
  · rw [toBytes, hlist]
    rfl
  · exact congr (congr (congr (congrArg Guid.mk hfirst) (hword guid.data2)) (hword guid.data3))
      hlast

end RoundTrips

section Texts

/-- Only the hyphen is a hyphen in lower case. -/
theorem toLower_eq_hyphen_iff (c : Char) :
    c.toLower = '-' ↔ c = '-' := by
  rcases Hex.toLower_cases c with hsame | ⟨k, hk, hupper, hlower⟩
  · rw [hsame]
  · rw [← Char.toNat_inj, ← Char.toNat_inj, hupper, hlower]
    change 97 + k = 45 ↔ 65 + k = 45
    omega

theorem octet_eq_hyphen_iff
    {c : Char} (h : c.toNat < 128) :
    Utf8.octet c = 45 ↔ c = '-' := by
  rw [← Char.toNat_inj, ← UInt8.toNat_inj, Utf8.octet, UInt8.toNat_ofNat']
  change c.toNat % 256 = 45 ↔ c.toNat = 45
  omega

/-- Without its hyphens the text writes the octets of the fields. -/
theorem filter_toChars (guid : Guid) :
    guid.toChars.filter (· ≠ '-') = (Hex.ofBytes guid.fieldOctets).toList := by
  have hplain (width n : Nat) : (Hex.fixed width n).filter (· ≠ '-') = Hex.fixed width n := by
    have hdigits : ∀ d < 16, Nat.digitChar d ≠ '-' := by
      decide
    rw [List.filter_eq_self]
    intro c hc
    rw [Hex.fixed_eq_map_digits] at hc
    obtain ⟨d, hd, rfl⟩ := List.mem_map.1 hc
    exact decide_eq_true (hdigits d (Hex.lt_of_mem_digits hd))
  have hhyphen : decide ('-' ≠ '-') = false := rfl
  have hlast : (guid.data4.toList.take 2).flatMap (fun b => Hex.fixed 2 b.toNat) ++
      (guid.data4.toList.drop 2).flatMap (fun b => Hex.fixed 2 b.toNat) =
      guid.data4.toList.flatMap fun b => Hex.fixed 2 b.toNat := by
    rw [← List.flatMap_append, List.take_append_drop]
  rw [Hex.toList_ofBytes, fieldOctets, List.flatMap_append, List.flatMap_append,
    List.flatMap_append, ← Hex.fixed_eq_flatMap, ← Hex.fixed_eq_flatMap, ← Hex.fixed_eq_flatMap,
    ← hlast]
  simp only [toChars_eq, List.filter_append, List.filter_cons, List.filter_flatMap, hhyphen, hplain,
    Bool.false_eq_true, ↓reduceIte]

section Reading

variable {guid : Guid} {text : Bytes}

/-- What a text that is read has besides its hyphens, writes the octets of the fields. -/
theorem digits_of_ofAscii
    (h : ofAscii text = .ok guid) :
    ∃ digits : String,
      Utf8.encode digits = text.filter (· ≠ 45) ∧
      Hex.toBytes? digits = some guid.fieldOctets := by
  obtain ⟨chars, rfl, hchars⟩ := spelledBy_of_ofAscii h
  have hascii : ∀ c ∈ chars, c.toNat < 128 := fun c hc => (toNat_of_toLower hchars c hc).2
  refine ⟨String.ofList (chars.filter (· ≠ '-')), ?_, Hex.toBytes?_of_toLower ?_⟩
  · have hdigits : ∀ c ∈ chars.filter (· ≠ '-'), c.toNat < 128 :=
      fun c hc => hascii c (List.mem_of_mem_filter hc)
    rw [Utf8.encode_of_ascii hdigits, encode_of_toLower hchars, List.filter_map]
    congr 1
    refine List.filter_congr fun c hc => ?_
    rw [Function.comp_apply, decide_eq_decide]
    exact not_congr (octet_eq_hyphen_iff (hascii c hc)).symm
  · rw [← filter_toChars, ← hchars, List.filter_map]
    congr 1
    refine List.filter_congr fun c _ => ?_
    rw [Function.comp_apply, decide_eq_decide]
    exact not_congr (toLower_eq_hyphen_iff c).symm

end Reading

/--
The binary form of identifiers. Sixteen octets are those of the identifier that they write, and the
octets of an identifier write it again. If a text is read as an identifier, its digits without the
hyphens write sixteen octets, and the octets of the identifier are these with the first four, the
next two and the two after these turned around.
-/
theorem binary_form :
    (∀ octets : Vector UInt8 16, (ofBytes octets).toBytes = octets.toList) ∧
    (∀ guid : Guid, ∃ octets : Vector UInt8 16,
      octets.toList = guid.toBytes ∧ ofBytes octets = guid) ∧
    ∀ (text : Bytes) (guid : Guid), ofAscii text = .ok guid →
      ∃ (digits : String) (octets : Bytes),
        Utf8.encode digits = text.filter (· ≠ 45) ∧
        Hex.toBytes? digits = some octets ∧
        octets.length = 16 ∧
        guid.toBytes = memoryOrder octets := by
  refine ⟨toBytes_ofBytes, exists_ofBytes_eq, fun text guid hread => ?_⟩
  obtain ⟨digits, hdigits, hoctets⟩ := digits_of_ofAscii hread
  exact ⟨digits, guid.fieldOctets, hdigits, hoctets, guid.length_fieldOctets, guid.toBytes_eq⟩

/-- A text with letters of both cases. -/
theorem binary_form_mixed_case :
    let text := Utf8.encode "8be4df61-93CA-11d2-AA0d-00e098032B8c"
    let guid : Guid := ⟨0x8BE4DF61, 0x93CA, 0x11D2, #v[0xAA, 0x0D, 0, 0xE0, 0x98, 3, 0x2B, 0x8C]⟩
    ofAscii text = .ok guid ∧
      ∃ (digits : String) (octets : Bytes),
        Utf8.encode digits = text.filter (· ≠ 45) ∧
        Hex.toBytes? digits = some octets ∧
        octets.length = 16 ∧
        guid.toBytes = memoryOrder octets := by
  intro text guid
  have hread : ofAscii text = .ok guid := by
    decide +kernel
  exact ⟨hread, binary_form.2.2 text guid hread⟩

end Texts

end Guid
end FirmwareVariables
