import FirmwareVariables.Proofs.DeviceTree.Strings
import Mathlib.Data.List.Induction
import Mathlib.Data.List.TakeWhile

/-!
# The strings block of a writer

A writer adds a name to the strings block when it is used for the first time. `stringsOf` is the
block in which names stand one behind the other, each with its NUL, and a writer never has another
one: `placeName_stringsOf` says where a name is placed in such a block and that one more of them
comes out, and `stringsBlock_takeAll_eq` follows a writer over its steps.

The main statement, `strings_canonical`, gives the block of any steps: the names used in them,
without repetitions and in the order of their first use. The offset that is written with a property
is where its name begins, and the name is read there from then on.
-/

namespace FirmwareVariables

section FirstUses

variable {α : Type} [DecidableEq α]

/-- Without repetitions, one more use adds what has not been used before. -/
theorem eraseDups_concat (used : List α) (last : α) :
    (used ++ [last]).eraseDups =
      used.eraseDups ++ if last ∈ used.eraseDups then [] else [last] := by
  rw [List.eraseDups_append, List.removeAll]
  congr 1
  by_cases hlast : last ∈ used
  · simp [hlast]
  · simp [hlast, List.eraseDups_cons]

theorem nodup_eraseDups (used : List α) :
    used.eraseDups.Nodup := by
  induction used using List.reverseRecOn with
  | nil => exact List.nodup_nil
  | append_singleton used last ih =>
      rw [eraseDups_concat]
      split
      · rwa [List.append_nil]
      · rename_i hlast
        exact List.nodup_append.2 ⟨ih, by simp, fun other hother _ hsame hequal =>
          hlast (List.mem_singleton.1 hsame ▸ hequal ▸ hother)⟩

/-- What stands in front of the first occurrence, if there is one. -/
theorem exists_eq_takeWhile_append {names : List α} {name : α} (h : name ∈ names) :
    ∃ back, names = names.takeWhile (· ≠ name) ++ name :: back := by
  induction names with
  | nil => cases h
  | cons first names ih =>
      by_cases hfirst : first = name
      · exact ⟨names, by simp [hfirst]⟩
      · obtain ⟨back, hback⟩ := ih (List.mem_of_ne_of_mem (Ne.symm hfirst) h)
        refine ⟨back, ?_⟩
        rw [List.takeWhile_cons_of_pos (by simp [hfirst]), List.cons_append, ← hback]

theorem takeWhile_ne_of_notMem {names : List α} {name : α} (h : name ∉ names) :
    names.takeWhile (· ≠ name) = names :=
  List.takeWhile_eq_self_iff.2 fun other hother => by
    have hne : other ≠ name := fun hsame => h (hsame ▸ hother)
    exact decide_eq_true hne

/-- The first use of a name settles what stands in front of it for good. -/
theorem eraseDups_of_use (before later : List α) (name : α) :
    ∃ back,
      (before ++ name :: later).eraseDups =
        before.eraseDups.takeWhile (· ≠ name) ++ name :: back := by
  have hsplit : before ++ name :: later = (before ++ [name]) ++ later := by
    simp
  rw [hsplit, List.eraseDups_append, eraseDups_concat]
  by_cases hmem : name ∈ before.eraseDups
  · obtain ⟨back, hback⟩ := exists_eq_takeWhile_append hmem
    rw [if_pos hmem, List.append_nil]
    refine ⟨back ++ (later.removeAll (before ++ [name])).eraseDups, ?_⟩
    rw [← List.cons_append, ← List.append_assoc, ← hback]
  · refine ⟨(later.removeAll (before ++ [name])).eraseDups, ?_⟩
    rw [if_neg hmem, takeWhile_ne_of_notMem hmem, List.append_assoc, List.singleton_append]

end FirstUses

namespace DeviceTree

/-- The property that a step writes, if it writes one. -/
def WriteStep.property? : WriteStep → Option Property
  | beginNode _ => none
  | endNode => none
  | property name value => some ⟨name, value⟩
  | text name value => some ⟨name, Utf8.encode value ++ [0]⟩
  | number name value => some ⟨name, Bytes.ofCell value⟩
  | nop => none

/-- The names of the properties that steps write, in their order. -/
def namesUsed (steps : List WriteStep) : List String :=
  steps.filterMap fun step => step.property?.map (·.name)

/-- Names one behind the other, each with its NUL. -/
def stringsOf (names : List String) : Bytes :=
  names.flatMap fun name => Utf8.encode name ++ [0]

section Blocks

variable {name : String} {names : List String}

theorem stringsOf_append (names later : List String) :
    stringsOf (names ++ later) = stringsOf names ++ stringsOf later :=
  List.flatMap_append

theorem stringsOf_cons (name : String) (names : List String) :
    stringsOf (name :: names) = Utf8.encode name ++ 0 :: stringsOf names := by
  rw [stringsOf, List.flatMap_cons, List.append_assoc]
  rfl

/-- A name stands behind the names in front of it. -/
theorem holdsName_stringsOf (front back : List String) :
    HoldsName (stringsOf (front ++ name :: back)) (stringsOf front).length name := by
  refine ⟨stringsOf front, stringsOf back, ?_, rfl⟩
  rw [stringsOf_append, stringsOf_cons]

/-- The pieces of such a block are the names that it is made of, and nothing behind the last NUL. -/
theorem split_stringsOf (hnames : ∀ name ∈ names, (0 : UInt8) ∉ Utf8.encode name) :
    Bytes.split 0 (stringsOf names) = names.map Utf8.encode ++ [[]] := by
  induction names with
  | nil => rfl
  | cons first names ih =>
      obtain ⟨hfirst, hlater⟩ := List.forall_mem_cons.1 hnames
      rw [stringsOf_cons, Bytes.split_append hfirst, ih hlater, List.map_cons, List.cons_append]

/-- A name is found where those in front of it end. -/
theorem offsetOf?_map_encode
    {names : List String} {start size : Nat}
    (hsize : start + (stringsOf names).length = size)
    (name : String) :
    offsetOf? (Utf8.encode name) size (names.map Utf8.encode ++ [[]]) start =
      if name ∈ names then
        some (start + (stringsOf (names.takeWhile (· ≠ name))).length)
      else
        none := by
  induction names generalizing start with
  | nil =>
      have hend : ¬ start < size := by
        rw [← hsize]
        simp [stringsOf]
      simp [offsetOf?, hend]
  | cons first names ih =>
      rw [stringsOf_cons, List.length_append, List.length_cons] at hsize
      have hbegin : start < size := by omega
      rw [List.map_cons, List.cons_append, offsetOf?]
      by_cases hfirst : first = name
      · simp [hfirst, hbegin, stringsOf]
      · have hencoded : Utf8.encode first ≠ Utf8.encode name := mt Utf8.encode_inj.1 hfirst
        have hlength : (stringsOf (first :: names.takeWhile (· ≠ name))).length =
            (Utf8.encode first).length + 1 + (stringsOf (names.takeWhile (· ≠ name))).length := by
          rw [stringsOf_cons, List.length_append, List.length_cons]
          omega
        have hmem : name ∈ first :: names ↔ name ∈ names := by
          rw [List.mem_cons, or_iff_right (Ne.symm hfirst)]
        have hfront : (first :: names).takeWhile (· ≠ name) =
            first :: names.takeWhile (· ≠ name) :=
          List.takeWhile_cons_of_pos (decide_eq_true hfirst)
        rw [if_neg (fun h => hencoded h.1), ih (by omega), hfront, hlength]
        simp only [hmem, Nat.add_assoc]

/-- A name is placed behind the names in front of it, and added if it was not there. -/
theorem placeName_stringsOf
    (hnames : ∀ name ∈ names, (0 : UInt8) ∉ Utf8.encode name)
    (name : String) :
    Writer.placeName name (stringsOf names) =
      ((stringsOf (names.takeWhile (· ≠ name))).length,
        stringsOf (names ++ if name ∈ names then [] else [name])) := by
  rw [Writer.placeName, split_stringsOf hnames, offsetOf?_map_encode (Nat.zero_add _)]
  by_cases hmem : name ∈ names
  · simp only [if_pos hmem, Nat.zero_add, List.append_nil]
  · have hadded : stringsOf [name] = Utf8.encode name ++ [0] := stringsOf_cons name []
    simp only [if_neg hmem, takeWhile_ne_of_notMem hmem, stringsOf_append, hadded,
      List.append_assoc]

/-- Behind the names used so far, the block is that of these and one more use. -/
theorem placeName_eraseDups
    (hnames : ∀ name ∈ names, (0 : UInt8) ∉ Utf8.encode name)
    (name : String) :
    Writer.placeName name (stringsOf names.eraseDups) =
      ((stringsOf (names.eraseDups.takeWhile (· ≠ name))).length,
        stringsOf (names ++ [name]).eraseDups) := by
  have hdistinct : ∀ name ∈ names.eraseDups, (0 : UInt8) ∉ Utf8.encode name :=
    fun name hname => hnames name (List.mem_eraseDups.1 hname)
  rw [placeName_stringsOf hdistinct, eraseDups_concat]

end Blocks

/-- What a property is written as, with the offset of its name. -/
def Property.octetsAt (property : Property) (offset : Nat) : Bytes :=
  Bytes.ofCell Marker.property.code ++ Bytes.ofCell property.value.length ++
    Bytes.ofCell offset ++ Bytes.padded property.value

section Steps

variable {writer : Writer} {step : WriteStep} {used : List String}

/-- A step that writes a property writes it at the offset of its name. -/
theorem take_of_property
    {property : Property}
    (hstep : step.property? = some property) :
    writer.take step = writer.property property.name property.value := by
  cases step with
  | beginNode name => cases hstep
  | endNode => cases hstep
  | nop => cases hstep
  | property name value =>
      cases hstep
      rfl
  | text name value =>
      cases hstep
      rfl
  | number name value =>
      cases hstep
      rfl

/-- Any other step leaves the strings block as it is. -/
theorem stringsBlock_take_of_none (hstep : step.property? = none) :
    (writer.take step).2.stringsBlock = writer.stringsBlock := by
  cases step with
  | beginNode name => rfl
  | endNode => rfl
  | nop => rfl
  | property name value => cases hstep
  | text name value => cases hstep
  | number name value => cases hstep

theorem namesUsed_append (steps later : List WriteStep) :
    namesUsed (steps ++ later) = namesUsed steps ++ namesUsed later :=
  List.filterMap_append

/-- What steps use stays used with more steps behind them. -/
theorem mem_namesUsed_append
    {steps : List WriteStep} {name : String}
    (hname : name ∈ namesUsed steps)
    (later : List WriteStep) :
    name ∈ namesUsed (steps ++ later) := by
  rw [namesUsed_append]
  exact List.mem_append_left _ hname

theorem namesUsed_of_property
    {property : Property}
    (hstep : step.property? = some property) :
    namesUsed [step] = [property.name] := by
  simp [namesUsed, hstep]

/-- A property is written with the offset behind the names in front of its own. -/
theorem octets_take
    {property : Property}
    (hused : ∀ name ∈ used, (0 : UInt8) ∉ Utf8.encode name)
    (hblock : writer.stringsBlock = stringsOf used.eraseDups)
    (hstep : step.property? = some property) :
    (writer.take step).1 =
      property.octetsAt (stringsOf (used.eraseDups.takeWhile (· ≠ property.name))).length := by
  rw [take_of_property hstep, Writer.property, hblock, placeName_eraseDups hused]
  rfl

/-- One step keeps the block that of the names used so far. -/
theorem stringsBlock_take_eq
    (hused : ∀ name ∈ used, (0 : UInt8) ∉ Utf8.encode name)
    (hblock : writer.stringsBlock = stringsOf used.eraseDups) :
    (writer.take step).2.stringsBlock = stringsOf (used ++ namesUsed [step]).eraseDups := by
  cases hstep : step.property? with
  | none =>
      have hnone : namesUsed [step] = [] := by
        simp [namesUsed, hstep]
      rw [stringsBlock_take_of_none hstep, hnone, List.append_nil, hblock]
  | some property =>
      rw [take_of_property hstep, Writer.property, hblock, placeName_eraseDups hused,
        namesUsed_of_property hstep]

/-- So do all steps. -/
theorem stringsBlock_takeAll_eq
    {steps : List WriteStep}
    (hnames : ∀ name ∈ used ++ namesUsed steps, (0 : UInt8) ∉ Utf8.encode name)
    (hblock : writer.stringsBlock = stringsOf used.eraseDups) :
    (writer.takeAll steps).2.stringsBlock = stringsOf (used ++ namesUsed steps).eraseDups := by
  induction steps generalizing writer used with
  | nil =>
      rw [namesUsed, List.filterMap_nil, List.append_nil]
      exact hblock
  | cons step steps ih =>
      have hused : ∀ name ∈ used, (0 : UInt8) ∉ Utf8.encode name :=
        fun name hname => hnames name (List.mem_append_left _ hname)
      have hnext : (writer.take step).2.stringsBlock =
          stringsOf (used ++ namesUsed [step]).eraseDups :=
        stringsBlock_take_eq hused hblock
      have hsplit : namesUsed (step :: steps) = namesUsed [step] ++ namesUsed steps :=
        namesUsed_append [step] steps
      rw [hsplit, ← List.append_assoc] at hnames ⊢
      exact ih hnames hnext

theorem takeAll_append (writer : Writer) (steps later : List WriteStep) :
    writer.takeAll (steps ++ later) =
      ((writer.takeAll steps).1 ++ ((writer.takeAll steps).2.takeAll later).1,
        ((writer.takeAll steps).2.takeAll later).2) := by
  induction steps generalizing writer with
  | nil => rfl
  | cons step steps ih =>
      simp only [List.cons_append, Writer.takeAll, ih, List.append_assoc]

/-- The block behind steps is that of the names that they use. -/
theorem stringsBlock_written
    {steps : List WriteStep}
    (hnames : ∀ name ∈ namesUsed steps, (0 : UInt8) ∉ Utf8.encode name) :
    (Writer.empty.takeAll steps).2.stringsBlock = stringsOf (namesUsed steps).eraseDups := by
  have hempty : Writer.empty.stringsBlock = stringsOf [].eraseDups := rfl
  exact stringsBlock_takeAll_eq hnames hempty

theorem namesUsed_of_use
    {property : Property}
    (hstep : step.property? = some property)
    (before later : List WriteStep) :
    namesUsed (before ++ step :: later) =
      namesUsed before ++ property.name :: namesUsed later := by
  have hsplit : before ++ step :: later = before ++ ([step] ++ later) := rfl
  rw [hsplit, namesUsed_append, namesUsed_append, namesUsed_of_property hstep]
  rfl

/-- A name stays behind those that were used before it for the first time. -/
theorem holdsName_written
    {before later : List WriteStep} {property : Property}
    (hnames : ∀ name ∈ namesUsed (before ++ step :: later), (0 : UInt8) ∉ Utf8.encode name)
    (hstep : step.property? = some property) :
    HoldsName (Writer.empty.takeAll (before ++ step :: later)).2.stringsBlock
      (stringsOf ((namesUsed before).eraseDups.takeWhile (· ≠ property.name))).length
      property.name := by
  obtain ⟨back, hback⟩ := eraseDups_of_use (namesUsed before) (namesUsed later) property.name
  rw [stringsBlock_written hnames, namesUsed_of_use hstep, hback]
  exact holdsName_stringsOf _ back

end Steps

/--
The strings block of any steps that use no name with a NUL, if the offsets in it fit into cells. It
is the names that the steps use, each of them once with its NUL, in the order of their first use.
The offset that stands in the structure block with a property is where the property's name begins
in the strings block: the names in front of it were used before it for the first time. The name is
read there behind the step that writes the property, and behind any later step.
-/
theorem strings_canonical
    {steps : List WriteStep}
    (hnames : ∀ name ∈ namesUsed steps, (0 : UInt8) ∉ Utf8.encode name)
    (hshort : (Writer.empty.takeAll steps).2.stringsBlock.length < 4294967296) :
    let names := (namesUsed steps).eraseDups
    (Writer.empty.takeAll steps).2.stringsBlock = stringsOf names ∧
    names.Nodup ∧
    ∀ before step later property,
      steps = before ++ step :: later →
      step.property? = some property →
        ∃ front back offset written,
          names = front ++ property.name :: back ∧
          offset = (stringsOf front).length ∧
          offset < 4294967296 ∧
          (Writer.empty.takeAll steps).1 =
            (Writer.empty.takeAll before).1 ++ (property.octetsAt offset ++ written) ∧
          ∀ next rest, later = next ++ rest →
            nameAt (Writer.empty.takeAll (before ++ step :: next)).2.stringsBlock offset =
              .ok property.name := by
  intro names
  refine ⟨stringsBlock_written hnames, nodup_eraseDups _, ?_⟩
  rintro before step later property rfl hstep
  have huses := namesUsed_of_use hstep before
  have hbefore : ∀ name ∈ namesUsed before, (0 : UInt8) ∉ Utf8.encode name :=
    fun name hused => hnames name (mem_namesUsed_append hused (step :: later))
  have hname : (0 : UInt8) ∉ Utf8.encode property.name := by
    apply hnames
    rw [huses]
    exact List.mem_append_right _ List.mem_cons_self
  let front := (namesUsed before).eraseDups.takeWhile (· ≠ property.name)
  let writer := (Writer.empty.takeAll before).2
  obtain ⟨back, hback⟩ := eraseDups_of_use (namesUsed before) (namesUsed later) property.name
  refine ⟨front, back, (stringsOf front).length, ((writer.take step).2.takeAll later).1, ?_, rfl,
    ?_, ?_, ?_⟩
  · rw [← hback, ← huses]
  · exact Nat.lt_trans (holdsName_written hnames hstep).offset_lt hshort
  · rw [takeAll_append, ← octets_take hbefore (stringsBlock_written hbefore) hstep]
    rfl
  · rintro next rest rfl
    -- The names in front are the same, whatever steps there are behind this one.
    have hfewer : ∀ name ∈ namesUsed (before ++ step :: next), (0 : UInt8) ∉ Utf8.encode name := by
      intro name hused
      have hsplit : before ++ step :: (next ++ rest) = (before ++ step :: next) ++ rest := by
        simp
      exact hnames name (hsplit ▸ mem_namesUsed_append hused rest)
    exact (holdsName_written hfewer hstep).nameAt_eq hname

/-- A name that ends another one, an empty name, and names that are used again. -/
def sharedNameSteps : List WriteStep :=
  [.beginNode "", .property "address-cells" [1], .number "cells" 2, .text "" "x", .nop,
    .property "cells" [], .endNode, .text "" "y", .property "address-cells" []]

theorem strings_canonical_shared :
    ((∀ name ∈ namesUsed sharedNameSteps, (0 : UInt8) ∉ Utf8.encode name) ∧
        (Writer.empty.takeAll sharedNameSteps).2.stringsBlock.length < 4294967296) ∧
      (Writer.empty.takeAll sharedNameSteps).2.stringsBlock =
        stringsOf ["address-cells", "cells", ""] ∧
      ∃ front back offset written,
        ["address-cells", "cells", ""] = front ++ "cells" :: back ∧
        offset = (stringsOf front).length ∧
        offset < 4294967296 ∧
        (Writer.empty.takeAll sharedNameSteps).1 =
          (Writer.empty.takeAll (sharedNameSteps.take 5)).1 ++
            (Property.octetsAt ⟨"cells", []⟩ offset ++ written) ∧
        ∀ next rest, sharedNameSteps.drop 6 = next ++ rest →
          nameAt
              (Writer.empty.takeAll
                (sharedNameSteps.take 5 ++ .property "cells" [] :: next)).2.stringsBlock
              offset =
            .ok "cells" := by
  have hnames : ∀ name ∈ namesUsed sharedNameSteps, (0 : UInt8) ∉ Utf8.encode name := by
    decide
  have hshort : (Writer.empty.takeAll sharedNameSteps).2.stringsBlock.length < 4294967296 := by
    decide +kernel
  have hdistinct : (namesUsed sharedNameSteps).eraseDups = ["address-cells", "cells", ""] := by
    decide +kernel
  obtain ⟨hblock, -, hplaced⟩ := strings_canonical hnames hshort
  rw [hdistinct] at hblock hplaced
  exact ⟨⟨hnames, hshort⟩, hblock,
    hplaced (sharedNameSteps.take 5) (.property "cells" []) (sharedNameSteps.drop 6) _ rfl rfl⟩

end DeviceTree
end FirmwareVariables
