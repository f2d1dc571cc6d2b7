import FirmwareVariables.Proofs.Guid.Codec

/-!
# The order of identifiers and of their texts

Identifiers are compared field by field as numbers, and their texts octet by octet. Both come to
the same. A field has the same number of digits in every text, the most significant first, the
octets of digits are in the order of their values, and hyphens stand where hyphens stand:
`Guid.compare_spelled_append` and `Guid.compare_cons_self` take one piece off two texts at a time.

The main statement is `Guid.order_of_texts`. `Guid.Sorts` says what it is to sort a list, by
whatever means; the texts of sorted identifiers are the sorted texts.
-/

namespace FirmwareVariables
namespace Guid

section Lists

variable {α : Type} [Ord α]

/-- Behind fronts of one length, the rests are compared where the fronts are the same. -/
theorem compare_append
    {front other : List α} (hlength : front.length = other.length) (rest behind : List α) :
    compare (front ++ rest) (other ++ behind) =
      (compare front other).then (compare rest behind) := by
  induction front generalizing other with
  | nil =>
      rw [List.length_nil, eq_comm, List.length_eq_zero_iff] at hlength
      rw [hlength]
      rfl
  | cons a front ih =>
      cases other with
      | nil => cases hlength
      | cons b other =>
          have hfronts := ih (Nat.succ.inj hlength)
          rw [List.cons_append, List.cons_append, List.compare_cons_cons, List.compare_cons_cons,
            hfronts, Ordering.then_assoc]

theorem compare_cons_self [Std.ReflOrd α] (a : α) (rest behind : List α) :
    compare (a :: rest) (a :: behind) = compare rest behind := by
  rw [List.compare_cons_cons, Std.compare_self]
  rfl

/-- A list holds what is given, in ascending order. -/
structure Sorts (sorted given : List α) : Prop where
  perm : sorted.Perm given
  ascending : sorted.Pairwise fun a b => (compare a b).isLE = true

theorem sorts_mergeSort [Std.TransOrd α] (given : List α) :
    Sorts (given.mergeSort fun a b => (compare a b).isLE) given where
  perm := List.mergeSort_perm given _
  ascending := by
    refine List.pairwise_mergeSort (fun _ _ _ => Std.TransCmp.isLE_trans) (fun a b => ?_) given
    have hswap : compare a b = (compare b a).swap := Std.OrientedCmp.eq_swap
    rw [hswap]
    cases compare b a <;> rfl

/-- What is sorted by different means is the same. -/
theorem Sorts.unique
    [Std.OrientedOrd α] [Std.LawfulEqOrd α]
    {one other given : List α} (hone : Sorts one given) (hother : Sorts other given) :
    one = other := by
  refine List.Perm.eq_of_pairwise (fun a b _ _ hab hba => ?_) hone.ascending hother.ascending
    (hone.perm.trans hother.perm.symm)
  exact Std.LawfulEqCmp.eq_of_compare (Std.OrientedCmp.isLE_antisymm hab hba)

end Lists

section Digits

/-- Numbers are compared by what stands before their last digits, and then by these. -/
theorem compare_div_mod (m n : Nat) :
    compare m n = (compare (m / 16) (n / 16)).then (compare (m % 16) (n % 16)) := by
  rcases Nat.lt_trichotomy (m / 16) (n / 16) with hlt | heq | hgt
  · have hsmaller : m < n := by
      omega
    rw [Nat.compare_eq_lt.2 hlt, Nat.compare_eq_lt.2 hsmaller]
    rfl
  · rw [heq, Std.compare_self]
    simp only [Nat.compare_eq_ite_lt, Ordering.eq_then]
    have hless : m % 16 < n % 16 ↔ m < n := by
      omega
    have hmore : n % 16 < m % 16 ↔ n < m := by
      omega
    simp only [hless, hmore]
  · have hgreater : n < m := by
      omega
    rw [Nat.compare_eq_gt.2 hgt, Nat.compare_eq_gt.2 hgreater]
    rfl

/-- Octets are in the order of the numbers that they stand for. -/
theorem compare_octet (a b : UInt8) :
    compare a b = compare a.toNat b.toNat := by
  change compareOfLessAndEq a b = compareOfLessAndEq a.toNat b.toNat
  simp only [compareOfLessAndEq, UInt8.lt_iff_toNat_lt, UInt8.toNat_inj]

theorem compare_map_toNat (octets others : Bytes) :
    compare (octets.map UInt8.toNat) (others.map UInt8.toNat) = compare octets others := by
  induction octets generalizing others with
  | nil => cases others <;> rfl
  | cons a octets ih =>
      cases others with
      | nil => rfl
      | cons b others =>
          rw [List.map_cons, List.map_cons, List.compare_cons_cons, List.compare_cons_cons, ih,
            compare_octet]

/-- The octets of the last `width` digits of a number. -/
def spelled (width n : Nat) : Bytes :=
  (Hex.fixed width n).map Utf8.octet

theorem length_spelled (width n : Nat) :
    (spelled width n).length = width := by
  rw [spelled, List.length_map, Hex.length_fixed]

/-- The octets of digits are in the order of their values. -/
theorem compare_octet_digitChar
    {c d : Nat} (hc : c < 16) (hd : d < 16) :
    compare (Utf8.octet (Nat.digitChar c)) (Utf8.octet (Nat.digitChar d)) = compare c d := by
  have hall : ∀ c < 16, ∀ d < 16,
      compare (Utf8.octet (Nat.digitChar c)) (Utf8.octet (Nat.digitChar d)) = compare c d := by
    decide
  exact hall c hc d hd

/-- Numbers are in the order of their digits, as long as these are all of them. -/
theorem compare_spelled
    {width m n : Nat} (hm : m < Hex.bound width) (hn : n < Hex.bound width) :
    compare (spelled width m) (spelled width n) = compare m n := by
  induction width generalizing m n with
  | zero =>
      have hzero : m = n := by
        simp only [Hex.bound] at hm hn
        omega
      rw [hzero, Std.compare_self, Std.compare_self]
  | succ width ih =>
      rw [Hex.bound] at hm hn
      have hfront := @ih (m / 16) (n / 16) (by omega) (by omega)
      have hlast := compare_octet_digitChar (Nat.mod_lt m (by decide)) (Nat.mod_lt n (by decide))
      have hlengths : (spelled width (m / 16)).length = (spelled width (n / 16)).length := by
        rw [length_spelled, length_spelled]
      rw [compare_div_mod m n, ← hfront, ← hlast]
      rw [spelled, spelled, Hex.fixed, Hex.fixed, List.map_append, List.map_append]
      rw [← spelled, ← spelled, compare_append hlengths, List.map_singleton, List.map_singleton,
        List.compare_cons_cons, List.compare_nil_nil, Ordering.then_eq]

/-- Behind digits of one number each, two texts are compared if the numbers are the same. -/
theorem compare_spelled_append
    {width m n : Nat} (hm : m < Hex.bound width) (hn : n < Hex.bound width)
    (rest behind : Bytes) :
    compare (spelled width m ++ rest) (spelled width n ++ behind) =
      (compare m n).then (compare rest behind) := by
  have hlengths : (spelled width m).length = (spelled width n).length := by
    rw [length_spelled, length_spelled]
  rw [compare_append hlengths, compare_spelled hm hn]

/-- Octets are in the order of their digits. -/
theorem compare_flatMap_spelled
    {octets others : Bytes} (hlength : octets.length = others.length) :
    compare (octets.flatMap fun b => spelled 2 b.toNat)
        (others.flatMap fun b => spelled 2 b.toNat) =
      compare octets others := by
  induction octets generalizing others with
  | nil =>
      rw [List.length_nil, eq_comm, List.length_eq_zero_iff] at hlength
      rw [hlength]
      rfl
  | cons a octets ih =>
      cases others with
      | nil => cases hlength
      | cons b others =>
          have hrest := ih (Nat.succ.inj hlength)
          have ha : a.toNat < Hex.bound 2 := a.toNat_lt
          have hb : b.toNat < Hex.bound 2 := b.toNat_lt
          rw [List.flatMap_cons, List.flatMap_cons, compare_spelled_append ha hb, hrest,
            List.compare_cons_cons, compare_octet]

end Digits

section Texts

def textOctets (guid : Guid) : Bytes :=
  Utf8.encode guid.toText

/-- They are those of the digits and of the hyphens. -/
theorem textOctets_eq (guid : Guid) :
    guid.textOctets =
      spelled 8 guid.data1.toNat ++ 45 :: (spelled 4 guid.data2.toNat ++
        45 :: (spelled 4 guid.data3.toNat ++
          45 :: ((guid.data4.toList.take 2).flatMap (fun b => spelled 2 b.toNat) ++
            45 :: (guid.data4.toList.drop 2).flatMap fun b => spelled 2 b.toNat))) := by
  have hhyphen : Utf8.octet '-' = 45 := rfl
  rw [textOctets, encode_toText, toChars_eq]
  simp only [spelled, List.map_append, List.map_cons, List.map_flatMap, hhyphen]

/-- Identifiers are compared by their fields, the last one octet by octet. -/
theorem compare_eq_then (g h : Guid) :
    compare g h =
      (compare g.data1.toNat h.data1.toNat).then ((compare g.data2.toNat h.data2.toNat).then
        ((compare g.data3.toNat h.data3.toNat).then
          (compare g.data4.toList h.data4.toList))) := by
  rw [← compare_map_toNat]
  change compare g.sortKey h.sortKey = _
  rw [sortKey, sortKey, List.compare_cons_cons, List.compare_cons_cons, List.compare_cons_cons]

/-- Identifiers are compared as their texts are. -/
theorem compare_textOctets (g h : Guid) :
    compare g.textOctets h.textOctets = compare g h := by
  have hfirst : g.data1.toNat < Hex.bound 8 ∧ h.data1.toNat < Hex.bound 8 :=
    ⟨g.data1.toNat_lt, h.data1.toNat_lt⟩
  have hsecond : g.data2.toNat < Hex.bound 4 ∧ h.data2.toNat < Hex.bound 4 :=
    ⟨g.data2.toNat_lt, h.data2.toNat_lt⟩
  have hthird : g.data3.toNat < Hex.bound 4 ∧ h.data3.toNat < Hex.bound 4 :=
    ⟨g.data3.toNat_lt, h.data3.toNat_lt⟩
  have hfront : (g.data4.toList.take 2).length = (h.data4.toList.take 2).length := by
    simp
  have hback : (g.data4.toList.drop 2).length = (h.data4.toList.drop 2).length := by
    simp
  have hspelled : ((g.data4.toList.take 2).flatMap fun b => spelled 2 b.toNat).length =
      ((h.data4.toList.take 2).flatMap fun b => spelled 2 b.toNat).length := by
    simp [List.length_flatMap, length_spelled]
  -- Field by field both come apart in the same way, and only the last field has a hyphen inside.
  rw [textOctets_eq, textOctets_eq, compare_spelled_append hfirst.1 hfirst.2,
    compare_cons_self, compare_spelled_append hsecond.1 hsecond.2, compare_cons_self,
    compare_spelled_append hthird.1 hthird.2, compare_cons_self, compare_append hspelled,
    compare_cons_self, compare_flatMap_spelled hfront, compare_flatMap_spelled hback,
    ← compare_append hfront, List.take_append_drop, List.take_append_drop, compare_eq_then]

end Texts

section Sorting

instance : Std.TransOrd Guid where
  eq_swap {g h} := by
    change compare g.sortKey h.sortKey = (compare h.sortKey g.sortKey).swap
    exact Std.OrientedCmp.eq_swap
  isLE_trans {f g h} hfg hgh := by
    change (compare f.sortKey g.sortKey).isLE = true at hfg
    change (compare g.sortKey h.sortKey).isLE = true at hgh
    change (compare f.sortKey h.sortKey).isLE = true
    exact Std.TransCmp.isLE_trans hfg hgh

/-- Identifiers that are not told apart have the same text, and are the same. -/
instance : Std.LawfulEqOrd Guid where
  compare_self := Std.ReflCmp.compare_self
  eq_of_compare {g h} hsame := by
    rw [← compare_textOctets] at hsame
    have htexts : g.textOctets = h.textOctets := Std.LawfulEqCmp.eq_of_compare hsame
    have hread : ofAscii g.textOctets = .ok g := g.ofAscii_encode_toText
    have hsecond : ofAscii h.textOctets = .ok h := h.ofAscii_encode_toText
    rw [htexts, hsecond] at hread
    exact (Except.ok.inj hread).symm

theorem Sorts.map_textOctets
    {sorted guids : List Guid} (h : Sorts sorted guids) :
    Sorts (sorted.map textOctets) (guids.map textOctets) where
  perm := h.perm.map textOctets
  ascending := by
    rw [List.pairwise_map]
    refine h.ascending.imp fun {g k} hle => ?_
    rwa [compare_textOctets]

/--
The order of identifiers is that of their texts. Identifiers are compared by the first three fields
as numbers and then by the octets of the last one, and this is how the octets of their texts
compare. So the sorted texts are the texts of the sorted identifiers, whatever sorts them.
-/
theorem order_of_texts :
    (∀ g h : Guid,
      compare g h =
        (compare g.data1.toNat h.data1.toNat).then ((compare g.data2.toNat h.data2.toNat).then
          ((compare g.data3.toNat h.data3.toNat).then
            (compare g.data4.toList h.data4.toList))) ∧
      compare g h = compare g.textOctets h.textOctets) ∧
    ∀ guids : List Guid,
      (∀ sorted, Sorts sorted guids ↔ sorted = sort guids) ∧
      ∀ texts,
        Sorts texts (guids.map textOctets) ↔ texts = (sort guids).map textOctets := by
  refine ⟨fun g h => ⟨compare_eq_then g h, (compare_textOctets g h).symm⟩, fun guids => ?_⟩
  have hsorts : Sorts (sort guids) guids := sorts_mergeSort guids
  refine ⟨fun sorted => ?_, fun texts => ?_⟩
  · constructor
    · intro h
      exact h.unique hsorts
    · rintro rfl
      exact hsorts
  · constructor
    · intro h
      exact h.unique hsorts.map_textOctets
    · rintro rfl
      exact hsorts.map_textOctets

end Sorting

end Guid
end FirmwareVariables
