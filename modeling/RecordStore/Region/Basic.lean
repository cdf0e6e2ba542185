import RecordStore.Bytes.Splice
import RecordStore.Error
import RecordStore.Slot.Codec
import RecordStore.Storage.Basic

/-!
# Regions of slots

The bytes of a storage from the end of the file header to `stop`, cut into pages and filled with slots, none of which
crosses a page.  A slot is read at its offset; whether an offset is the start of a slot is decided by walking the
slots of its page.
-/

namespace RecordStore

open Bytes

/-- Work on the slots of a storage. -/
abbrev SlotM (σ : Type) := ExceptT StoreError (StateM σ)

namespace SlotM

variable {σ α : Type}

def onStorage (act : StorageM σ α) : SlotM σ α := ExceptT.adapt StoreError.io act

/-- Runs `act` and hands its failure on as a value. -/
def attempt (act : SlotM σ α) : SlotM σ (Except StoreError α) := fun storage =>
  match act storage with
  | (result, storage) => (.ok result, storage)

end SlotM

structure Region where
  pageSize : Nat
  stop : Nat

namespace Region

def pageStart (region : Region) (offset : Nat) : Nat := offset / region.pageSize * region.pageSize

def pageEnd (region : Region) (offset : Nat) : Nat := (offset / region.pageSize + 1) * region.pageSize

/-- Whether a slot named `id` may start inside the region. -/
def contains (region : Region) (id : RecordId) : Bool := FileHeader.size ≤ id.offset && id.offset < region.stop

variable {σ : Type} [PagedStorage σ]

/-- The header of the slot at `offset`, which has to end inside its page and inside the region. -/
def slotAt (region : Region) (offset : Nat) : SlotM σ SlotHeader := do
  let pageEnd := region.pageEnd offset
  let raw ← SlotM.onStorage (PagedStorage.read offset (min (pageEnd - offset) SlotHeader.fullSize))
  match SlotHeader.decode offset raw.data.toList with
  | .error fault => throw (.corruption offset fault)
  | .ok header =>
    let slotEnd := offset + header.slotSize
    if pageEnd < slotEnd ∨ region.stop < slotEnd then throw (.corruption offset (.overrun header.slotSize))
    else return header

/-- Whether the slots that follow one another from `position` on come to start at `target`.  The bytes of the page
from `first` on are `page`. -/
def reaches (page : ByteArray) (first target position : Nat) : Except StoreError Bool :=
  if position < target then
    let start := position - first
    match SlotHeader.decode position (page.extract start (start + SlotHeader.fullSize)).data.toList with
    | .error fault => .error (.corruption position fault)
    | .ok header => reaches page first target (position + header.slotSize)
  else .ok (position = target)
termination_by target - position
decreasing_by
  have := header.slotSize_pos
  omega

/-- Whether a slot starts at `offset`, which has to lie inside the region.  No slot crosses a page, so it is enough to
walk the page from its first slot on. -/
def isSlotStart (region : Region) (offset : Nat) : SlotM σ Bool := do
  let first := max (region.pageStart offset) FileHeader.size
  if offset = first then return true
  let stop := min (region.pageEnd offset) region.stop
  let page ← SlotM.onStorage (PagedStorage.read first (stop - first))
  liftExcept (reaches page first offset first)

end Region

end RecordStore
