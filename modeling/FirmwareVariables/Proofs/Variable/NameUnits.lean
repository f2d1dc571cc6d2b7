import FirmwareVariables.Proofs.DeviceTree.Words
import FirmwareVariables.Proofs.Variable.NameText

/-!
# Names and the NUL that ends them

A name keeps its units and a NUL behind them, and what is asked of it is calculated from all that
it keeps: its units are those before the last one, and names are compared with their NULs. That
this is right hangs on both ways to make a name, of which one stops at the first NUL of octets and
the other at the first NUL unit of a text, and each puts a NUL behind what it took.

The main statement is `VariableName.ends_in_only_nul`: a name that was made in either way has one
NUL, at its end, octets give the name of the text with their characters, and the order of names is
the lexicographic order of the units without the NUL, since no unit is less than a NUL.
-/

namespace FirmwareVariables
namespace VariableName

/-- The units before the last one, where the place of the last one is in range. -/
def withoutLast? (kept : List UInt16) : Option (List UInt16) := do
  let stop ← Word.sub? kept.length 1
  return kept.take stop

/-- What a name keeps, and what is calculated from that. -/
structure Kept (name : VariableName) : Prop where
  /-- There is one NUL among the units that are kept. -/
  single : name.unitsWithNul.count 0 = 1
  /-- The last one of them is a NUL. -/
  last : name.unitsWithNul.getLast? = some 0
  /-- The units before the last one are those of the name. -/
  units : withoutLast? name.unitsWithNul = some name.units
  /-- One less than there are is the length of the name. -/
  length : Word.sub? name.unitsWithNul.length 1 = some name.length
  /-- Each one takes two octets. -/
  size : name.byteSize = 2 * (name.length + 1)

/-- No way to make a name puts a NUL among its units. -/
theorem Origin.zero_notMem_units (origin : Origin) :
    (0 : UInt16) ∉ origin.name.units := by
  rw [units_name, Utf16.encode, List.mem_flatMap]
  rintro ⟨c, hc, hzero⟩
  exact Utf16.ne_zero_of_mem_encodeChar (ne_nul_of_mem_chars hc) hzero rfl

/-- Each way to make a name puts a NUL behind its units. -/
theorem Origin.unitsWithNul_eq (origin : Origin) :
    origin.name.unitsWithNul = origin.name.units ++ [0] := by
  rw [unitsWithNul_name, units_name]

theorem Origin.length_unitsWithNul (origin : Origin) :
    origin.name.unitsWithNul.length = origin.name.length + 1 := by
  rw [VariableName.length, origin.unitsWithNul_name, List.length_append, List.length_singleton,
    Nat.add_sub_cancel]

theorem Origin.sub?_length_unitsWithNul (origin : Origin) :
    Word.sub? origin.name.unitsWithNul.length 1 = some origin.name.length := by
  rw [origin.length_unitsWithNul, Word.sub?_of_le (Nat.le_add_left 1 origin.name.length),
    Nat.add_sub_cancel]

theorem kept_name (origin : Origin) :
    Kept origin.name where
  single := by
    rw [origin.unitsWithNul_eq, List.count_append,
      List.count_eq_zero_of_not_mem origin.zero_notMem_units]
    rfl
  last := by
    rw [origin.unitsWithNul_eq, List.getLast?_concat]
  units := by
    rw [withoutLast?, origin.sub?_length_unitsWithNul]
    rfl
  length := origin.sub?_length_unitsWithNul
  size := by
    rw [byteSize, origin.length_unitsWithNul, Nat.mul_comm]

/-- Octets give the name of the text that has a character for each of them. -/
theorem ofAscii_eq_ofText (octets : Bytes) :
    ofAscii octets = ofText (String.ofList (octets.map widened)) := by
  have hnul : (fun unit : UInt16 => decide (unit ≠ 0)) ∘ UInt8.toUInt16 =
      fun octet : UInt8 => decide (octet ≠ 0) := by
    funext octet
    exact decide_eq_decide.2 (not_congr (UInt8.toUInt16_inj (b := 0)))
  rw [ofText, String.toList_ofList, encode_widened, List.takeWhile_map, hnul]
  rfl

theorem toNat_toList_widened (octets : Bytes) :
    (String.ofList (octets.map widened)).toList.map Char.toNat = octets.map UInt8.toNat := by
  rw [String.toList_ofList, List.map_map]
  exact List.map_congr_left fun octet _ => toNat_widened octet

section Order

/-- No number is less than zero, so zeros at the ends of two lists do not count. -/
theorem compare_append_zero (m n : List Nat) :
    compare (m ++ [0]) (n ++ [0]) = compare m n := by
  -- Where one list ends, its zero meets a number of the other; if that is a zero too, the other
  -- list still goes on behind it.
  induction m generalizing n with
  | nil =>
      cases n with
      | nil => rfl
      | cons b n =>
          cases b with
          | zero => cases n <;> rfl
          | succ b => rfl
  | cons a m ih =>
      cases n with
      | nil =>
          cases a with
          | zero => cases m <;> rfl
          | succ a => rfl
      | cons b n =>
          rw [List.cons_append, List.cons_append, List.compare_cons_cons, List.compare_cons_cons,
            ih]

variable (one other : Origin)

theorem compare_name :
    compare one.name other.name =
      compare (one.name.units.map UInt16.toNat) (other.name.units.map UInt16.toNat) := by
  have hwith (origin : Origin) :
      origin.name.unitsWithNul.map UInt16.toNat = origin.name.units.map UInt16.toNat ++ [0] := by
    rw [origin.unitsWithNul_eq, List.map_append]
    rfl
  change compare (one.name.unitsWithNul.map UInt16.toNat)
    (other.name.unitsWithNul.map UInt16.toNat) = _
  rw [hwith, hwith, compare_append_zero]

/-- Numbers are compared as the units that they stand for. -/
theorem compare_map_toNat_eq_lt_iff (m n : List UInt16) :
    compare (m.map UInt16.toNat) (n.map UInt16.toNat) = .lt ↔ m < n := by
  induction m generalizing n with
  | nil =>
      cases n with
      | nil => simp
      | cons b n => simp
  | cons a m ih =>
      cases n with
      | nil => simp
      | cons b n =>
          rw [List.map_cons, List.map_cons, List.compare_cons_cons, Ordering.then_eq_lt,
            Nat.compare_eq_lt, Nat.compare_eq_eq, ih, List.cons_lt_cons_iff,
            UInt16.lt_iff_toNat_lt, UInt16.toNat_inj]

theorem compare_name_eq_lt_iff :
    compare one.name other.name = .lt ↔ one.name.units < other.name.units := by
  rw [compare_name, compare_map_toNat_eq_lt_iff]

theorem compare_name_eq_gt_iff :
    compare one.name other.name = .gt ↔ other.name.units < one.name.units := by
  rw [compare_name, Std.OrientedCmp.gt_iff_lt, compare_map_toNat_eq_lt_iff]

theorem compare_name_eq_eq_iff :
    compare one.name other.name = .eq ↔ one.name = other.name := by
  have hunits : Function.Injective UInt16.toNat := fun _ _ => UInt16.toNat_inj.1
  rw [compare_name, Std.LawfulEqCmp.compare_eq_iff_eq, List.map_inj_right hunits]
  constructor
  · intro h
    have hkept : one.name.unitsWithNul = other.name.unitsWithNul := by
      rw [one.unitsWithNul_eq, other.unitsWithNul_eq, h]
    exact congrArg mk hkept
  · intro h
    rw [h]

/-- A name that another one begins with stands before it. -/
theorem compare_name_of_continued
    {unit : UInt16}
    {rest : List UInt16}
    (hunits : other.name.units = one.name.units ++ unit :: rest) :
    compare one.name other.name = .lt := by
  have hbehind : one.name.units ++ [] < one.name.units ++ unit :: rest :=
    List.append_left_lt (List.nil_lt_cons unit rest)
  rw [List.append_nil, ← hunits] at hbehind
  exact (compare_name_eq_lt_iff one other).2 hbehind

end Order

/--
Names end in a NUL and have no other. What a name keeps that was made from a text or from octets
is its units and one NUL, so that units, length and size are calculated from it and the calculation
stays in range. Octets give the name of the text that has a character for each of them. Names that
were made are in the lexicographic order of their units without the NUL: a name that another one
begins with stands before it.
-/
theorem ends_in_only_nul :
    (∀ origin : Origin, Kept origin.name) ∧
    (∀ octets : Bytes,
      ∃ text : String,
        text.toList.map Char.toNat = octets.map UInt8.toNat ∧
        ofAscii octets = ofText text) ∧
    ∀ one other : Origin,
      compare one.name other.name =
        compare (one.name.units.map UInt16.toNat) (other.name.units.map UInt16.toNat) ∧
      (compare one.name other.name = .lt ↔ one.name.units < other.name.units) ∧
      (compare one.name other.name = .eq ↔ one.name = other.name) ∧
      (compare one.name other.name = .gt ↔ other.name.units < one.name.units) ∧
      ∀ unit rest,
        other.name.units = one.name.units ++ unit :: rest →
        compare one.name other.name = .lt := by
  refine ⟨kept_name, fun octets => ?_, fun one other => ?_⟩
  · exact ⟨_, toNat_toList_widened octets, ofAscii_eq_ofText octets⟩
  · exact ⟨compare_name one other, compare_name_eq_lt_iff one other,
      compare_name_eq_eq_iff one other, compare_name_eq_gt_iff one other,
      fun _ _ => compare_name_of_continued one other⟩

/-- One name that begins with another, the one made from octets and the other from a text. -/
theorem ends_in_only_nul_continued :
    let name := ofText "BA"
    let continued := ofAscii [0x42, 0x41, 0x43, 0, 0x44]
    name.unitsWithNul = [0x42, 0x41, 0] ∧
      Kept continued ∧
      continued.units = name.units ++ [0x43] ∧
      compare name continued = .lt := by
  intro name continued
  obtain ⟨hkept, -, horder⟩ := ends_in_only_nul
  obtain ⟨-, -, -, -, hbefore⟩ :=
    horder (.text "BA") (.octets [0x42, 0x41, 0x43, 0, 0x44])
  have hcontinued : continued.units = name.units ++ [0x43] := by decide
  exact ⟨by decide, hkept (.octets [0x42, 0x41, 0x43, 0, 0x44]), hcontinued,
    hbefore 0x43 [] hcontinued⟩

end VariableName
end FirmwareVariables
