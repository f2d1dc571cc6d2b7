import FirmwareVariables.Guid.Text

/-!
# Handoff lists

What an earlier boot stage leaves for a later one: blobs under identifiers that tag them. A
list may hold several blobs under one tag; the first of them is the one that is found.
-/

namespace FirmwareVariables

/-- A list of tagged blobs, in the order in which they were handed over. -/
structure HandoffList where
  entries : List (Guid × Bytes)
deriving DecidableEq, Repr

namespace HandoffList

def deviceTreeTag : Guid :=
  ⟨0x6784B889, 0xB13C, 0x4C3B, #v[0xAE, 0x4B, 0x0F, 0x0A, 0x2E, 0x32, 0x0E, 0xA3]⟩

def empty : HandoffList :=
  ⟨[]⟩

def push (list : HandoffList) (tag : Guid) (blob : Bytes) : HandoffList :=
  ⟨list.entries ++ [(tag, blob)]⟩

/-- The list with a device tree and nothing else. -/
def ofDeviceTree (blob : Bytes) : HandoffList :=
  empty.push deviceTreeTag blob

/-- The first blob under a tag. -/
def find? (list : HandoffList) (tag : Guid) : Option Bytes :=
  (list.entries.find? fun entry => entry.1 == tag).map Prod.snd

end HandoffList
end FirmwareVariables
