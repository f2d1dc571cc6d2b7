import FirmwareVariables.Proofs.Store.Atomicity
import Mathlib.Data.List.TakeWhile

/-!
# Names and their texts

A name keeps UTF-16 units, and it is shown, looked up, refused and logged by its text. Nothing is
lost between the two: `Utf16.readings` shows where reading units puts a replacement character, and
the units of a name have no such place, since cutting a text at its first NUL cuts its units
there, between two characters, and a widened octet is a character of its own.

The main statement, `VariableName.text_lossless`, says this of every name that was made from a
text or from octets. So names with the same text are the same, and `StandsFor` says what that
means for a store in memory: wherever it uses a text, it is about the variables of one name.
-/

namespace FirmwareVariables

namespace Utf16

/-- What reading finds, piece by piece: a character, or a surrogate that stands alone. -/
def readings : List UInt16 → List (Option Char)
  | [] => []
  | [unit] => [if isHigh unit || isLow unit then none else some (Char.ofNat unit.toNat)]
  | unit :: next :: rest =>
      if isHigh unit then
        if isLow next then
          some (joined unit next) :: readings rest
        else
          none :: readings (next :: rest)
      else if isLow unit then
        none :: readings (next :: rest)
      else
        some (Char.ofNat unit.toNat) :: readings (next :: rest)

/-- Reading puts a replacement where it finds no character, and nowhere else. -/
theorem decode_eq_map_readings (units : List UInt16) :
    decode units = (readings units).map (·.getD replacement) := by
  fun_induction readings units with
  | case1 => rfl
  | case2 unit =>
      cases halone : isHigh unit || isLow unit <;>
        simp only [decode, halone, Bool.false_eq_true, ↓reduceIte, List.map_cons, List.map_nil,
          Option.getD_some, Option.getD_none]
  | case3 unit next rest hhigh hlow ih =>
      rw [decode, if_pos hhigh, if_pos hlow, List.map_cons, Option.getD_some, ih]
  | case4 unit next rest hhigh hlow ih =>
      rw [decode, if_pos hhigh, if_neg hlow, List.map_cons, Option.getD_none, ih]
  | case5 unit next rest hhigh hlow ih =>
      rw [decode, if_neg hhigh, if_pos hlow, List.map_cons, Option.getD_none, ih]
  | case6 unit next rest hhigh hlow ih =>
      rw [decode, if_neg hhigh, if_neg hlow, List.map_cons, Option.getD_some, ih]

theorem readings_encodeChar_append (c : Char) (rest : List UInt16) :
    readings (encodeChar c ++ rest) = some c :: readings rest := by
  rcases encodeChar_cases c with ⟨unit, hunit, hhigh, hlow, hcode⟩ |
    ⟨high, low, hunits, hhigh, hlow, hjoined⟩
  · have hchar : Char.ofNat unit.toNat = c := by
      rw [hcode, Char.ofNat_toNat]
    rw [hunit, List.singleton_append]
    cases rest with
    | nil => simp [readings, hhigh, hlow, hchar]
    | cons next rest => simp [readings, hhigh, hlow, hchar]
  · simp [hunits, readings, hhigh, hlow, hjoined]

/-- In a written text every piece is a character. -/
theorem readings_encode (chars : List Char) :
    readings (encode chars) = chars.map some := by
  induction chars with
  | nil => rfl
  | cons c chars ih =>
      rw [encode, List.flatMap_cons, readings_encodeChar_append]
      exact congrArg (some c :: ·) ih

/-- Only the NUL character has a NUL unit. -/
theorem ne_zero_of_mem_encodeChar
    {c : Char} (hc : c ≠ '\x00') {unit : UInt16} (h : unit ∈ encodeChar c) :
    unit ≠ 0 := by
  rintro rfl
  rcases encodeChar_cases c with ⟨unit, hunit, -, -, hcode⟩ | ⟨high, low, hunits, hhigh, hlow, -⟩
  · rw [hunit, List.mem_singleton] at h
    rw [← h] at hcode
    exact hc (Char.toNat_inj.1 hcode.symm)
  · rw [hunits, List.mem_cons, List.mem_singleton] at h
    rcases h with rfl | rfl
    · exact absurd hhigh (by decide)
    · exact absurd hlow (by decide)

/-- Cutting a text at its first NUL cuts its units there. -/
theorem takeWhile_encode (chars : List Char) :
    (encode chars).takeWhile (· ≠ 0) = encode (chars.takeWhile (· ≠ '\x00')) := by
  induction chars with
  | nil => rfl
  | cons c chars ih =>
      by_cases hc : c = '\x00'
      · subst hc
        rfl
      · have hplain : ∀ unit ∈ encodeChar c, decide (unit ≠ 0) = true :=
          fun unit hunit => decide_eq_true (ne_zero_of_mem_encodeChar hc hunit)
        have hkept : (c :: chars).takeWhile (· ≠ '\x00') = c :: chars.takeWhile (· ≠ '\x00') :=
          List.takeWhile_cons_of_pos (decide_eq_true hc)
        rw [hkept, encode, encode, List.flatMap_cons, List.flatMap_cons,
          List.takeWhile_append_of_pos hplain]
        exact congrArg (encodeChar c ++ ·) ih

end Utf16

namespace VariableName

/-- The character that an octet is widened to. -/
def widened (octet : UInt8) : Char :=
  Char.ofNat octet.toNat

theorem toNat_widened (octet : UInt8) :
    (widened octet).toNat = octet.toNat := by
  have hlt := octet.toNat_lt
  rw [widened, Char.ofNat, dif_pos (.inl (by omega))]
  rfl

/-- A widened octet is the one unit of its character. -/
theorem encodeChar_widened (octet : UInt8) :
    Utf16.encodeChar (widened octet) = [octet.toUInt16] := by
  have hlt := octet.toNat_lt
  have hsmall : (widened octet).toNat < 0x10000 := by
    rw [toNat_widened]
    omega
  rw [Utf16.encodeChar, if_pos hsmall, toNat_widened, UInt16.ofNat_uInt8ToNat]

theorem encode_widened (octets : Bytes) :
    Utf16.encode (octets.map widened) = octets.map UInt8.toUInt16 := by
  simp only [Utf16.encode, List.flatMap_map, encodeChar_widened]
  exact List.map_eq_flatMap.symm

/-- What a name is made from. -/
inductive Origin where
  | text (given : String)
  | octets (given : Bytes)
deriving DecidableEq, Repr

namespace Origin

def name : Origin → VariableName
  | .text given => ofText given
  | .octets given => ofAscii given

/-- The characters that the name keeps, which are those before the first NUL. -/
def chars : Origin → List Char
  | .text given => given.toList.takeWhile (· ≠ '\x00')
  | .octets given => (Bytes.beforeNul given).map widened

theorem ne_nul_of_mem_chars
    {origin : Origin} {c : Char} (h : c ∈ origin.chars) :
    c ≠ '\x00' := by
  cases origin with
  | text given =>
      have hkept := List.mem_takeWhile_imp (p := fun c => decide (c ≠ '\x00')) h
      exact of_decide_eq_true hkept
  | octets given =>
      obtain ⟨octet, hoctet, rfl⟩ := List.mem_map.1 h
      intro hnul
      have hcode := congrArg Char.toNat hnul
      rw [toNat_widened] at hcode
      have hzero : octet = 0 := UInt8.toNat_inj.1 hcode
      exact Bytes.zero_notMem_beforeNul given (hzero ▸ hoctet)

/-- Both ways to make a name put a NUL behind the units of its characters. -/
theorem unitsWithNul_name (origin : Origin) :
    origin.name.unitsWithNul = Utf16.encode origin.chars ++ [0] := by
  cases origin with
  | text given => exact congrArg (· ++ [0]) (Utf16.takeWhile_encode given.toList)
  | octets given => exact congrArg (· ++ [0]) (encode_widened (Bytes.beforeNul given)).symm

theorem units_name (origin : Origin) :
    origin.name.units = Utf16.encode origin.chars := by
  rw [units, length, unitsWithNul_name, List.length_append, List.length_singleton,
    Nat.add_sub_cancel, List.take_left]

theorem toText_name (origin : Origin) :
    origin.name.toText = String.ofList origin.chars := by
  rw [toText, units_name, Utf16.decode_encode]

/-- A name is made again from its text. -/
theorem ofText_toText_name (origin : Origin) :
    ofText origin.name.toText = origin.name := by
  have hchars : origin.chars.takeWhile (· ≠ '\x00') = origin.chars :=
    List.takeWhile_eq_self_iff.2 fun c hc => decide_eq_true (ne_nul_of_mem_chars hc)
  rw [toText_name, ofText, String.toList_ofList, Utf16.takeWhile_encode, hchars,
    ← unitsWithNul_name]

theorem toText_name_inj (one other : Origin) :
    one.name.toText = other.name.toText ↔ one.name = other.name := by
  constructor
  · intro h
    rw [← one.ofText_toText_name, h, other.ofText_toText_name]
  · intro h
    rw [h]

/-- The texts of names are those without a NUL. -/
theorem exists_toText_name_eq_iff (text : String) :
    (∃ origin : Origin, origin.name.toText = text) ↔ '\x00' ∉ text.toList := by
  constructor
  · rintro ⟨origin, rfl⟩ hnul
    rw [toText_name, String.toList_ofList] at hnul
    exact ne_nul_of_mem_chars hnul rfl
  · intro hplain
    have hchars : text.toList.takeWhile (· ≠ '\x00') = text.toList :=
      List.takeWhile_eq_self_iff.2 fun c hc => decide_eq_true fun hnul => hplain (hnul ▸ hc)
    refine ⟨.text text, ?_⟩
    rw [toText_name, chars, hchars, String.ofList_toList]

/-- Reading a name finds a character at every place. -/
theorem none_notMem_readings (origin : Origin) :
    none ∉ Utf16.readings origin.name.units := by
  rw [units_name, Utf16.readings_encode]
  simp

end Origin

/-- The text of a name shows a replacement where reading finds no character. -/
theorem toText_eq_readings (name : VariableName) :
    name.toText =
      String.ofList ((Utf16.readings name.units).map (·.getD Utf16.replacement)) := by
  rw [toText, Utf16.decode_eq_map_readings]

end VariableName

/-- The name and the scope that a line of the log shows. -/
def StoreOperation.address : StoreOperation → String × Guid
  | probe name scope => (name, scope)
  | set name scope _ _ => (name, scope)

namespace RamStore

/-- A write is answered with an injected failure. -/
def Injected (store : RamStore) (call : WriteCall) : Prop :=
  ∃ message, (call.make store).1 = .error (.device message)

theorem injected_iff (store : RamStore) (call : WriteCall) :
    store.Injected call ↔
      store.writeProtected = false ∧ ¬ call.Deletes ∧ call.key.1.toText ∈ store.failing := by
  have hdeletes := call.deletes_iff
  have hwritten :=
    write_written call.key.1 call.key.2 call.attributes call.data (store.log call.operation)
  rw [Injected, call.make_eq]
  generalize (store.log call.operation).write call.key.1 call.key.2 call.attributes call.data =
    result at hwritten
  cases hwritten with
  | refused hprotected => simp_all [log]
  | failed hopen hplain hfailing =>
      have hkeeps : ¬ call.Deletes := by
        simp [hdeletes, hplain]
      exact ⟨fun _ => ⟨hopen, hkeeps, hfailing⟩, fun _ => ⟨_, rfl⟩⟩
  | _ => simp_all [log]

theorem operations_make (store : RamStore) (call : WriteCall) :
    (call.make store).2.operations = store.operations ++ [call.operation] := by
  rw [call.make_eq]
  exact operations_of_written (write_written _ _ _ _ (store.log call.operation))

open VariableName in
/-- What it means that a store takes a text for a name. -/
structure StandsFor (text : String) (name : VariableName) : Prop where
  /-- What is found by the text stands under the name. -/
  found : ∀ (store : RamStore) (scope : Guid),
    store.get? text scope = store.entries.get? (name, scope)
  /-- To refuse the text is to refuse the name: the writes to it that delete nothing fail. -/
  refused : ∀ (store : RamStore) (origin : Origin) (call : WriteCall),
    call.key.1 = origin.name →
    ((store.refuseName text).Injected call ↔
      store.Injected call ∨
        store.writeProtected = false ∧ ¬ call.Deletes ∧ call.key.1 = name)
  /-- A probe is logged under the text if and only if it is about the name. -/
  probed : ∀ (store : RamStore) (origin : Origin) (scope : Guid),
    ∃ line,
      (VariableStore.probe origin.name scope store).2.operations = store.operations ++ [line] ∧
      ∀ place, line.address = (text, place) ↔ (origin.name, scope) = (name, place)
  /-- So is a write. -/
  written : ∀ (store : RamStore) (origin : Origin) (call : WriteCall),
    call.key.1 = origin.name →
    ∃ line,
      (call.make store).2.operations = store.operations ++ [line] ∧
      ∀ place, line.address = (text, place) ↔ call.key = (name, place)

open VariableName in
/-- A store takes the text of a name for that name. -/
theorem standsFor_toText (origin : Origin) :
    StandsFor origin.name.toText origin.name where
  found := by
    intro store scope
    rw [get?, origin.ofText_toText_name]
  refused := by
    intro store other call hname
    simp only [injected_iff, refuseName, List.mem_cons, hname, other.toText_name_inj origin]
    rw [and_or_left, and_or_left, or_comm]
  probed := by
    intro store other scope
    refine ⟨_, rfl, fun place => ?_⟩
    simp only [StoreOperation.address, Prod.mk.injEq, other.toText_name_inj origin]
  written := by
    intro store other call hname
    refine ⟨_, operations_make store call, fun place => ?_⟩
    simp only [StoreOperation.address, WriteCall.operation, Prod.ext_iff, hname,
      other.toText_name_inj origin]

end RamStore

namespace VariableName

/--
Names lose nothing in their texts. A text gives a name that shows all before its first NUL, and
the texts without a NUL are those of names. Every name that was made from a text or from octets is
read without replacements and made again from its text, names with the same text are the same, and
a store in memory takes the text for the name.
-/
theorem text_lossless :
    (∀ text,
      (ofText text).toText = String.ofList (text.toList.takeWhile (· ≠ '\x00'))) ∧
    (∀ text, (∃ origin : Origin, origin.name.toText = text) ↔ '\x00' ∉ text.toList) ∧
    ∀ origin : Origin,
      ofText origin.name.toText = origin.name ∧
      origin.name.toText =
        String.ofList ((Utf16.readings origin.name.units).map (·.getD Utf16.replacement)) ∧
      none ∉ Utf16.readings origin.name.units ∧
      (∀ other : Origin, other.name.toText = origin.name.toText ↔ other.name = origin.name) ∧
      RamStore.StandsFor origin.name.toText origin.name := by
  refine ⟨fun text => (Origin.text text).toText_name, Origin.exists_toText_name_eq_iff,
    fun origin => ?_⟩
  exact ⟨origin.ofText_toText_name, origin.name.toText_eq_readings, origin.none_notMem_readings,
    fun other => other.toText_name_inj origin, RamStore.standsFor_toText origin⟩

end VariableName
end FirmwareVariables
