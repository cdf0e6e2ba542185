import RecordStore.Region.Basic

/-!
# Placement of new slots

A new slot starts where the last one ends if the rest of that page has room for it, else on the next page; padding
then fills the gap.
-/

namespace RecordStore

/-- Where a slot goes; `padding` is the capacity of the padding slot in front of it. -/
structure Placement where
  offset : Nat
  padding : Option Nat
deriving DecidableEq

namespace Region

/-- The place of a slot of `size` bytes behind the slots of the region. -/
def placement (region : Region) (size : Nat) : Placement :=
  let pageEnd := region.pageEnd region.stop
  if pageEnd < region.stop + size then
    { offset := pageEnd, padding := some (pageEnd - region.stop - SlotHeader.paddingSize) }
  else { offset := region.stop, padding := none }

variable {σ : Type} [PagedStorage σ]

def writeHeader (offset : Nat) (header : SlotHeader) : SlotM σ Unit :=
  SlotM.onStorage (PagedStorage.write offset (Bytes.ofList header.encode))

def writeSlot (offset : Nat) (header : SlotHeader) (payload : ByteArray) : SlotM σ Unit :=
  SlotM.onStorage (PagedStorage.write offset (Bytes.ofList header.encode ++ payload))

/-- Writes a new slot behind the region.  Answers its identifier and the end of the region that includes it. -/
def append (region : Region) (header : SlotHeader) (payload : ByteArray) : SlotM σ (RecordId × Nat) := do
  let place := region.placement header.slotSize
  match RecordId.ofOffset? place.offset with
  | none => throw (.full place.offset)
  | some id =>
    match place.padding with
    | some capacity => writeHeader region.stop (.padding capacity)
    | none => pure ()
    let stop := place.offset + header.slotSize
    SlotM.onStorage (PagedStorage.grow stop)
    writeSlot place.offset header payload
    return (id, stop)

end Region

end RecordStore
