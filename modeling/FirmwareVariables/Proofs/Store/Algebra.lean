import FirmwareVariables.Proofs.Store.Atomicity

/-!
# The algebra of writes

Nothing decides on a write but the rules of the store and what stands under its key, and a write
leaves all other keys alone. `WriteCall.effect` is a write as a function of these two, and
`WriteCall.make_effect` says that it is what every store does. A law about several writes to one
variable is then a law of this function, and writes to two variables do not meet.

The main statement, `algebra_make`, holds of every store: writes to two variables can be made in
either order, two appending writes are one that appends the data of both, and a write that
replaces does nothing when it is made again.
-/

namespace FirmwareVariables
namespace RamStore

/-- What decides on a write besides what stands under its key. -/
structure Rules extends Refusals where
  /-- Whether a write may change the attributes of a variable. -/
  allowAttributeChange : Bool
deriving DecidableEq, Repr

def rules (store : RamStore) : Rules :=
  ⟨store.refusals, store.allowAttributeChange⟩

/-- Two stores that hold the same variables. -/
def SameVariables (store other : RamStore) : Prop :=
  ∀ key, store.entries.get? key = other.entries.get? key

namespace WriteCall

/-- Whether what stands under a key may get the attributes that a write leaves. -/
def suits (call : WriteCall) (rules : Rules) (old : Option StoreEntry) : Bool :=
  rules.allowAttributeChange ||
    old.all fun existing => existing.attributes == call.attributes.stored

/-- Why a write fails, given what stands under its key. -/
def objection? (call : WriteCall) (rules : Rules) (old : Option StoreEntry) : Option StoreError :=
  if rules.writeProtected then
    some .writeProtected
  else if isDeletion call.attributes call.data then
    if old.isSome then none else some .notFound
  else
    match refusal? rules.failing call.key.1 with
    | some error => some error
    | none => if call.suits rules old then none else some .invalidParameter

/-- What a write that goes through leaves under its key. -/
def leaves (call : WriteCall) (old : Option StoreEntry) : Option StoreEntry :=
  if isDeletion call.attributes call.data then
    none
  else
    some ⟨call.attributes.stored, dataAfter call.attributes call.data old⟩

/-- How a write ends and what it leaves under its key, given what stood there. -/
def effect (call : WriteCall) (rules : Rules) (old : Option StoreEntry) :
    Except StoreError Unit × Option StoreEntry :=
  match call.objection? rules old with
  | some error => (.error error, old)
  | none => (.ok (), call.leaves old)

section Effect

variable {call : WriteCall} {rules : Rules} {old : Option StoreEntry}

theorem effect_of_objection
    {error : StoreError} (h : call.objection? rules old = some error) :
    call.effect rules old = (.error error, old) := by
  rw [effect, h]

theorem effect_of_no_objection
    (h : call.objection? rules old = none) :
    call.effect rules old = (.ok (), call.leaves old) := by
  rw [effect, h]

theorem objection?_eq_none_of_ok
    (h : (call.effect rules old).1 = .ok ()) :
    call.objection? rules old = none := by
  cases hobjection : call.objection? rules old with
  | none => rfl
  | some error =>
      rw [effect_of_objection hobjection] at h
      cases h

theorem leaves_of_plain
    (hplain : isDeletion call.attributes call.data = false) :
    call.leaves old =
      some ⟨call.attributes.stored, dataAfter call.attributes call.data old⟩ := by
  simp [leaves, hplain]

/-- Once a write that does not delete has gone through, nothing stands against it any more. -/
theorem objection?_stored
    (hplain : isDeletion call.attributes call.data = false)
    (h : call.objection? rules old = none) (data : Bytes) :
    call.objection? rules (some ⟨call.attributes.stored, data⟩) = none := by
  have hsuits : call.suits rules (some ⟨call.attributes.stored, data⟩) = true := by
    simp [suits]
  unfold objection? at h ⊢
  cases hprotected : rules.writeProtected with
  | true => simp [hprotected] at h
  | false =>
      cases hrefusal : refusal? rules.failing call.key.1 with
      | some error => simp [hprotected, hplain, hrefusal] at h
      | none => simp [hplain, hsuits]

end Effect

/-- Whichever way a write goes, it has this effect on its key. -/
theorem effect_of_written
    {call : WriteCall} {store : RamStore} {result : Except StoreError Unit × RamStore}
    (hwritten : Written call.key.1 call.key.2 call.attributes call.data store result) :
    call.effect store.rules (store.entries.get? call.key) =
      (result.1, result.2.entries.get? call.key) := by
  cases hwritten with
  | refused hprotected =>
      exact effect_of_objection (if_pos hprotected)
  | deleted existing hopen hdeletion hold =>
      rw [effect_of_no_objection]
      · simp [leaves, hdeletion, Entries.get?_erase]
      · simp [objection?, rules, refusals, hopen, hdeletion, hold]
  | missing hopen hdeletion hold =>
      rw [effect_of_objection]
      simp [objection?, rules, refusals, hopen, hdeletion, hold]
  | failed hopen hplain hfailing =>
      rw [effect_of_objection]
      simp [objection?, rules, refusals, refusal?, hopen, hplain, hfailing]
  | nameless hopen hplain hworking hnameless =>
      rw [effect_of_objection]
      simp [objection?, rules, refusals, refusal?, hopen, hplain, hworking, hnameless]
  | changing existing hopen hplain hworking hnamed hold hdiffers hfixed =>
      rw [effect_of_objection]
      simp [objection?, suits, rules, refusals, refusal?, hopen, hplain, hworking, hnamed, hold,
        hdiffers, hfixed]
  | stored old hopen hplain hworking hnamed hold hallowed =>
      have hkey : store.entries.get? call.key = old := hold
      have hsuits : call.suits store.rules old = true := by
        cases old with
        | none => simp [suits]
        | some existing => simpa [suits, rules, or_comm] using hallowed existing rfl
      rw [hkey, effect_of_no_objection, leaves_of_plain hplain]
      · simp [Entries.get?_put]
      · simp only [objection?, hsuits]
        simp [rules, refusals, refusal?, hopen, hplain, hworking, hnamed]

section Calls

variable (call : WriteCall) (store : RamStore)

/-- A store answers a write, and leaves under its key, what the effect of the write says. -/
theorem make_effect :
    ((call.make store).1, (call.make store).2.entries.get? call.key) =
      call.effect store.rules (store.entries.get? call.key) := by
  rw [make_eq]
  exact (effect_of_written (write_written _ _ _ _ (store.log call.operation))).symm

theorem answer_make :
    (call.make store).1 = (call.effect store.rules (store.entries.get? call.key)).1 :=
  congrArg Prod.fst (call.make_effect store)

theorem get?_make :
    (call.make store).2.entries.get? call.key =
      (call.effect store.rules (store.entries.get? call.key)).2 :=
  congrArg Prod.snd (call.make_effect store)

theorem get?_make_of_ne
    {key : VariableKey} (hne : key ≠ call.key) :
    (call.make store).2.entries.get? key = store.entries.get? key := by
  rw [make_eq]
  exact get?_write_of_ne _ _ _ _ (store.log call.operation) hne

theorem rules_make :
    (call.make store).2.rules = store.rules := by
  rw [make_eq]
  obtain ⟨hfailing, hprotected, hallow⟩ := write_switches call.key.1 call.key.2 call.attributes
    call.data (store.log call.operation)
  rw [rules, refusals, hfailing, hprotected, hallow]
  rfl

end Calls

section TwoVariables

variable {store : RamStore} {one other : WriteCall} (hkeys : one.key ≠ other.key)
include hkeys

/-- A write to one variable decides nothing about a write to another. -/
theorem effect_behind :
    other.effect (one.make store).2.rules ((one.make store).2.entries.get? other.key) =
      other.effect store.rules (store.entries.get? other.key) := by
  rw [rules_make, get?_make_of_ne one store hkeys.symm]

theorem answer_behind :
    (other.make (one.make store).2).1 = (other.make store).1 := by
  rw [answer_make, answer_make, effect_behind hkeys]

theorem get?_behind :
    (other.make (one.make store).2).2.entries.get? other.key =
      (other.make store).2.entries.get? other.key := by
  rw [get?_make, get?_make, effect_behind hkeys]

/-- Writes to two variables leave the same in either order. -/
theorem sameVariables_swap :
    SameVariables (other.make (one.make store).2).2 (one.make (other.make store).2).2 := by
  intro key
  by_cases hone : key = one.key
  · subst hone
    rw [get?_make_of_ne _ _ hkeys, get?_behind hkeys.symm]
  · by_cases hother : key = other.key
    · subst hother
      rw [get?_behind hkeys, get?_make_of_ne _ _ hone]
    · rw [get?_make_of_ne _ _ hother, get?_make_of_ne _ _ hone, get?_make_of_ne _ _ hone,
        get?_make_of_ne _ _ hother]

end TwoVariables

section OneVariable

/--
If the effects of two writes on a variable come to that of a third one, then so do the two writes
on the store.
-/
theorem make_make_of_effect
    {store : RamStore} {first second whole : WriteCall}
    (hsecond : second.key = first.key) (hwhole : whole.key = first.key)
    (heffect :
      second.effect store.rules (first.effect store.rules (store.entries.get? first.key)).2 =
        whole.effect store.rules (store.entries.get? first.key)) :
    (second.make (first.make store).2).1 = (whole.make store).1 ∧
      SameVariables (second.make (first.make store).2).2 (whole.make store).2 := by
  have htwice := second.make_effect (first.make store).2
  have honce := whole.make_effect store
  rw [rules_make, hsecond, get?_make, heffect] at htwice
  rw [hwhole, ← htwice] at honce
  refine ⟨(congrArg Prod.fst honce).symm, fun key => ?_⟩
  by_cases hkey : key = first.key
  · subst hkey
    exact (congrArg Prod.snd honce).symm
  · rw [get?_make_of_ne _ _ (hsecond ▸ hkey), get?_make_of_ne _ _ hkey,
      get?_make_of_ne _ _ (hwhole ▸ hkey)]

theorem isDeletion_of_isAppend
    {attributes : Attributes} (happend : attributes.isAppend = true) (data : Bytes) :
    isDeletion attributes data = false := by
  have hempty : attributes.isEmpty = false := by
    cases attributes with
    | mk bits =>
        rw [Attributes.isEmpty, beq_eq_false_iff_ne]
        rintro rfl
        exact absurd happend (by decide)
  simp [isDeletion, hempty, happend]

/-- Nothing about the data decides whether an appending write fails. -/
theorem objection?_append
    (name : VariableName) (scope : Guid) {attributes : Attributes}
    (happend : attributes.isAppend = true) (data more : Bytes) (rules : Rules)
    (old : Option StoreEntry) :
    (set name scope attributes data).objection? rules old =
      (set name scope attributes more).objection? rules old := by
  have hplain := isDeletion_of_isAppend happend
  simp only [objection?, WriteCall.attributes, WriteCall.data, hplain]
  rfl

/-- Behind an append that goes through, a second one adds its data to those of the first. -/
theorem leaves_append
    (name : VariableName) (scope : Guid) {attributes : Attributes}
    (happend : attributes.isAppend = true) (front back : Bytes) (old : Option StoreEntry) :
    (set name scope attributes back).leaves ((set name scope attributes front).leaves old) =
      (set name scope attributes (front ++ back)).leaves old := by
  have hplain := isDeletion_of_isAppend happend
  simp only [leaves, WriteCall.attributes, WriteCall.data, hplain]
  cases old with
  | none => simp [dataAfter, happend]
  | some existing => simp [dataAfter, happend]

/-- To append twice is to append once, whatever stood there. -/
theorem effect_append
    (name : VariableName) (scope : Guid) {attributes : Attributes}
    (happend : attributes.isAppend = true) (front back : Bytes) (rules : Rules)
    (old : Option StoreEntry) :
    let first := (set name scope attributes front).effect rules old
    let whole := (set name scope attributes (front ++ back)).effect rules old
    first.1 = whole.1 ∧ (set name scope attributes back).effect rules first.2 = whole := by
  have hdata (data : Bytes) := objection?_append name scope happend data front rules
  cases hfirst : (set name scope attributes front).objection? rules old with
  | some error =>
      -- What fails leaves the entry as it was, so all three writes meet the same objection.
      have hfails (data : Bytes) := effect_of_objection ((hdata data old).trans hfirst)
      rw [hfails, hfails]
      exact ⟨rfl, hfails back⟩
  | none =>
      have hwhole := (hdata (front ++ back) old).trans hfirst
      have hplain : isDeletion (set name scope attributes front).attributes
          (set name scope attributes front).data = false :=
        isDeletion_of_isAppend happend front
      have hsecond : (set name scope attributes back).objection? rules
          ((set name scope attributes front).leaves old) = none := by
        rw [hdata, leaves_of_plain hplain]
        exact objection?_stored hplain hfirst _
      rw [effect_of_no_objection hfirst, effect_of_no_objection hwhole]
      refine ⟨rfl, ?_⟩
      rw [effect_of_no_objection hsecond, leaves_append name scope happend]

/-- A write that replaces what stood there does nothing when it is made again. -/
theorem effect_repeated
    {call : WriteCall} {rules : Rules} {old : Option StoreEntry}
    (hreplaces : call.attributes.isAppend = false)
    (hplain : isDeletion call.attributes call.data = false)
    (hok : (call.effect rules old).1 = .ok ()) :
    call.effect rules (call.effect rules old).2 = call.effect rules old := by
  have hobjection := objection?_eq_none_of_ok hok
  have hdata (any : Option StoreEntry) :
      dataAfter call.attributes call.data any = call.data := by
    cases any <;> simp [dataAfter, hreplaces]
  have hleaves (any : Option StoreEntry) :
      call.leaves any = some ⟨call.attributes.stored, call.data⟩ := by
    rw [leaves_of_plain hplain, hdata]
  have hagain : call.objection? rules (call.leaves old) = none := by
    rw [hleaves]
    exact objection?_stored hplain hobjection _
  rw [effect_of_no_objection hobjection, effect_of_no_objection hagain, hleaves, hleaves]

end OneVariable

end WriteCall

/-- The laws of two writes to a store. -/
structure WriteAlgebra (store : RamStore) : Prop where
  /-- Writes to two variables get the same answers and leave the same in either order. -/
  commute : ∀ one other : WriteCall,
    one.key ≠ other.key →
    (other.make (one.make store).2).1 = (other.make store).1 ∧
      (one.make (other.make store).2).1 = (one.make store).1 ∧
      SameVariables (other.make (one.make store).2).2 (one.make (other.make store).2).2
  /-- Two appending writes succeed, fail and leave what one that appends all the data does. -/
  append : ∀ (name : VariableName) (scope : Guid) (attributes : Attributes) (front back : Bytes),
    attributes.isAppend = true →
    let first := (WriteCall.set name scope attributes front).make store
    let second := (WriteCall.set name scope attributes back).make first.2
    let whole := (WriteCall.set name scope attributes (front ++ back)).make store
    first.1 = whole.1 ∧ second.1 = whole.1 ∧ SameVariables second.2 whole.2
  /-- A write that replaces and goes through goes through again, and leaves what it left. -/
  again : ∀ call : WriteCall,
    call.attributes.isAppend = false →
    ¬ call.Deletes →
    (call.make store).1 = .ok () →
    let repeated := call.make (call.make store).2
    repeated.1 = .ok () ∧ SameVariables repeated.2 (call.make store).2

open WriteCall in
/-- The laws hold of every store, whatever it holds and refuses. -/
theorem algebra_make (store : RamStore) :
    WriteAlgebra store where
  commute := fun _ _ hkeys =>
    ⟨answer_behind hkeys, answer_behind hkeys.symm, sameVariables_swap hkeys⟩
  append := by
    intro name scope attributes front back happend first second whole
    obtain ⟨hfirst, hsecond⟩ := effect_append name scope happend front back store.rules
      (store.entries.get? (name, scope))
    refine ⟨?_, make_make_of_effect rfl rfl hsecond⟩
    exact (answer_make _ store).trans (hfirst.trans (answer_make _ store).symm)
  again := by
    intro call hreplaces hkeeps hok repeated
    have hplain : isDeletion call.attributes call.data = false :=
      Bool.eq_false_iff.2 (mt call.deletes_iff.2 hkeeps)
    have heffect := effect_repeated hreplaces hplain ((answer_make call store).symm.trans hok)
    obtain ⟨hanswer, hsame⟩ := make_make_of_effect rfl rfl heffect
    exact ⟨hanswer.trans hok, hsame⟩

end RamStore
end FirmwareVariables
