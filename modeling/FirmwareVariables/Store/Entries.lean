import FirmwareVariables.Variable.Record

/-!
# Entries of a store

A finite map from names and scopes to stored variables: a list of pairs in which no key
stands twice. The statements say what each operation does to every look-up.
-/

namespace FirmwareVariables

/-- What tells variables apart: the name and its scope. -/
abbrev VariableKey := VariableName × Guid

/-- A variable as a store keeps it. -/
structure StoreEntry where
  attributes : Attributes
  data : Bytes
deriving DecidableEq, Repr

/-- The variables of a store under their keys. -/
structure Entries where
  toList : List (VariableKey × StoreEntry)
  nodup_keys : (toList.map Prod.fst).Nodup

namespace Entries

def empty : Entries :=
  ⟨[], List.nodup_nil⟩

def size (entries : Entries) : Nat :=
  entries.toList.length

/-- The variable under a key, if there is one. -/
def get? (entries : Entries) (key : VariableKey) : Option StoreEntry :=
  (entries.toList.find? fun entry => entry.1 == key).map Prod.snd

/-- The entries without the one under a key. -/
def erase (entries : Entries) (key : VariableKey) : Entries where
  toList := entries.toList.filter fun entry => entry.1 != key
  nodup_keys := entries.nodup_keys.sublist (List.filter_sublist.map _)

/-- The entries with a variable under a key, in place of one that was there. -/
def put (entries : Entries) (key : VariableKey) (stored : StoreEntry) : Entries where
  toList := (entries.erase key).toList ++ [(key, stored)]
  nodup_keys := by
    rw [List.map_append, List.nodup_append]
    refine ⟨(entries.erase key).nodup_keys, by simp, ?_⟩
    intro other hother same hsame
    simp only [List.map_cons, List.map_nil, List.mem_singleton] at hsame
    subst hsame
    obtain ⟨entry, hentry, rfl⟩ := List.mem_map.1 hother
    simp only [erase, List.mem_filter, bne_iff_ne] at hentry
    exact hentry.2

@[simp] theorem get?_empty (key : VariableKey) :
    empty.get? key = none := by
  rfl

theorem get?_erase (entries : Entries) (key other : VariableKey) :
    (entries.erase key).get? other = if other = key then none else entries.get? other := by
  simp only [get?, erase, List.find?_filter]
  split
  · rename_i hsame
    subst hsame
    simp
  · rename_i hne
    congr 2
    funext entry
    by_cases hentry : entry.1 = other
    · simp [hentry, hne]
    · simp [hentry]

theorem get?_put (entries : Entries) (key other : VariableKey) (stored : StoreEntry) :
    (entries.put key stored).get? other =
      if other = key then some stored else entries.get? other := by
  have herase := get?_erase entries key other
  simp only [get?] at herase ⊢
  simp only [put, List.find?_append]
  split
  · rename_i hsame
    subst hsame
    simp only [↓reduceIte, Option.map_eq_none_iff] at herase
    simp [herase]
  · rename_i hne
    simp only [hne, ↓reduceIte] at herase
    have hkey : (key == other) = false := by
      simp [Ne.symm hne]
    simp [hkey, herase]

end Entries
end FirmwareVariables
