import FirmwareVariables.Variable.Record

/-!
# Variable stores at run time

What a variable store of the firmware offers: to ask for the attributes of a variable, to
write one, and to delete one. Each call answers and leaves the store in a new state, also
when it fails. Any type with these operations can take restored variables.
-/

namespace FirmwareVariables

/-- Why a store refuses a call. -/
inductive StoreError where
  | notFound
  | invalidParameter
  | writeProtected
  | outOfResources
  | device (text : String)
deriving DecidableEq, Repr

def StoreError.message : StoreError → String
  | notFound => "variable not found"
  | invalidParameter => "invalid parameter"
  | writeProtected => "store is write protected"
  | outOfResources => "store out of resources"
  | device text => s!"device error: {text}"

/-- The operations of a variable store with states in `σ`. -/
class VariableStore (σ : Type) where
  /-- The attributes of a variable, if it exists. -/
  probe : VariableName → Guid → σ → Except StoreError (Option Attributes) × σ
  /-- Writes a variable. -/
  set : VariableName → Guid → Attributes → Bytes → σ → Except StoreError Unit × σ
  /-- Deletes a variable, which is to write it without attributes and data unless the store
  knows another way. -/
  delete : VariableName → Guid → σ → Except StoreError Unit × σ :=
    fun name scope => set name scope Attributes.empty []

end FirmwareVariables
