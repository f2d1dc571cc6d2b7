import FirmwareVariables.Bytes

/-!
# UTF-8 text

Texts as octets. `encode` and `decode?` go between a text and its octets, and
`decodeLossy` reads any octets at all: each stretch of octets that begins a character
and does not finish it stands for one replacement character. The main statement is
that `decode?` accepts exactly what `encode` produces.
-/

namespace FirmwareVariables
namespace Utf8

def encode (text : String) : Bytes :=
  text.toUTF8.data.toList

/-- The text that the octets encode, if they do. -/
def decode? (bytes : Bytes) : Option String :=
  String.fromUTF8? ⟨bytes.toArray⟩

/-- What a first octet promises: how many octets follow it, and the range of the next one. -/
structure Lead where
  following : Nat
  least : Nat
  greatest : Nat
deriving DecidableEq, Repr

/--
The first octets of characters outside ASCII. The range of the second octet leaves out
the forms that are longer than need be, the surrogates, and all beyond the last character.
-/
def lead? (octet : Nat) : Option Lead :=
  if octet < 0xC2 then none
  else if octet ≤ 0xDF then some ⟨1, 0x80, 0xBF⟩
  else if octet = 0xE0 then some ⟨2, 0xA0, 0xBF⟩
  else if octet = 0xED then some ⟨2, 0x80, 0x9F⟩
  else if octet ≤ 0xEF then some ⟨2, 0x80, 0xBF⟩
  else if octet = 0xF0 then some ⟨3, 0x90, 0xBF⟩
  else if octet ≤ 0xF3 then some ⟨3, 0x80, 0xBF⟩
  else if octet = 0xF4 then some ⟨3, 0x80, 0x8F⟩
  else none

/-- The octets at the front that continue a character, at most as many as were promised. -/
def continuation : Lead → Bytes → List Nat
  | ⟨0, _, _⟩, _ => []
  | _, [] => []
  | ⟨following + 1, least, greatest⟩, b :: rest =>
      if least ≤ b.toNat ∧ b.toNat ≤ greatest then
        b.toNat :: continuation ⟨following, 0x80, 0xBF⟩ rest
      else
        []

/-- The code point of a first octet and all the octets that it promised. -/
def codePoint (octet : Nat) (continued : List Nat) : Nat :=
  continued.foldl (fun n b => n * 64 + b % 64) (octet % (64 >>> continued.length))

/-- The character that stands for octets which encode none. -/
def replacement : Char :=
  Char.ofNat 0xFFFD

/-- The character at the front, and how many octets after the first one belong to it. -/
def front (b : UInt8) (rest : Bytes) : Char × Nat :=
  if b < 0x80 then
    (Char.ofNat b.toNat, 0)
  else
    match lead? b.toNat with
    | none => (replacement, 0)
    | some lead =>
        let continued := continuation lead rest
        if continued.length = lead.following then
          (Char.ofNat (codePoint b.toNat continued), continued.length)
        else
          (replacement, continued.length)

/-- The characters of any octets, with replacements for what encodes none. -/
def decodeChars : Bytes → List Char
  | [] => []
  | b :: rest =>
      let (c, more) := front b rest
      c :: decodeChars (rest.drop more)
termination_by bytes => bytes.length
decreasing_by
  simp only [List.length_drop, List.length_cons]
  omega

/-- The text of any octets, with replacements for what encodes none. -/
def decodeLossy (bytes : Bytes) : String :=
  String.ofList (decodeChars bytes)

@[simp] theorem decode?_encode (text : String) :
    decode? (encode text) = some text := by
  have hbytes : ByteArray.mk (encode text).toArray = text.toUTF8 := by
    simp [encode]
  unfold decode?
  rw [hbytes]
  unfold String.fromUTF8?
  rw [String.toUTF8_eq_toByteArray, dif_pos text.isValidUTF8]
  rfl

@[simp] theorem encode_append (text other : String) :
    encode (text ++ other) = encode text ++ encode other := by
  simp [encode]

theorem encode_inj {text other : String} :
    encode text = encode other ↔ text = other := by
  constructor
  · intro h
    have hread := decode?_encode text
    rw [h, decode?_encode] at hread
    exact (Option.some.inj hread).symm
  · rintro rfl
    rfl

theorem encode_of_decode? {bytes : Bytes} {text : String}
    (h : decode? bytes = some text) :
    encode text = bytes := by
  simp only [decode?, String.fromUTF8?] at h
  split at h
  · cases h
    rfl
  · cases h

/-- Reading accepts exactly what writing produces. -/
theorem decode?_eq_some_iff {bytes : Bytes} {text : String} :
    decode? bytes = some text ↔ encode text = bytes := by
  constructor
  · exact encode_of_decode?
  · rintro rfl
    exact decode?_encode text

end Utf8
end FirmwareVariables
