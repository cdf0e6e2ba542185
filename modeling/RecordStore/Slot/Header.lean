import RecordStore.RecordId
import RecordStore.Text.Hexadecimal

/-!
# Slot headers

Every slot starts with a header that says what the slot holds and how many bytes it may hold, so that the slots of a
file can be walked front to back without an index.  `Damage` lists the ways in which a chain of slots can be broken.
-/

namespace RecordStore

inductive SlotHeader
  /-- A record.  The origin, if there is one, is the slot the record was first stored in. -/
  | live (capacity length : Nat) (origin : Option RecordId)
  /-- A redirect to the slot where the record lives now. -/
  | moved (capacity : Nat) (target : RecordId)
  /-- A tombstone; `relocated` if the slot was a redirect before. -/
  | deleted (capacity length : Nat) (relocated : Bool)
  /-- Bytes left over at the end of a page. -/
  | padding (capacity : Nat)
deriving DecidableEq

inductive SlotState
  | live
  | moved
  | deleted
  | padding
deriving DecidableEq

def SlotState.name : SlotState → String
  | .live => "actual"
  | .moved => "moved"
  | .deleted => "deleted"
  | .padding => "padding"

namespace SlotHeader

/-- Bytes of every header but that of padding. -/
def fullSize : Nat := 16

def paddingSize : Nat := 8

def state : SlotHeader → SlotState
  | .live .. => .live
  | .moved .. => .moved
  | .deleted .. => .deleted
  | .padding .. => .padding

def capacity : SlotHeader → Nat
  | .live capacity _ _ => capacity
  | .moved capacity _ => capacity
  | .deleted capacity _ _ => capacity
  | .padding capacity => capacity

def redirect? : SlotHeader → Option RecordId
  | .moved _ target => some target
  | _ => none

def headerSize : SlotHeader → Nat
  | .padding _ => paddingSize
  | _ => fullSize

/-- Bytes of a slot with a header of `header` bytes. -/
def sizeFor (header capacity : Nat) : Nat := alignUp (header + capacity)

/-- Bytes of the whole slot, its header included. -/
def slotSize (header : SlotHeader) : Nat := sizeFor header.headerSize header.capacity

theorem paddingSize_le_slotSize (header : SlotHeader) : paddingSize ≤ header.slotSize := by
  have h := le_alignUp (header.headerSize + header.capacity)
  have hsize : paddingSize ≤ header.headerSize := by cases header <;> simp [headerSize, paddingSize, fullSize]
  unfold slotSize sizeFor
  omega

theorem slotSize_pos (header : SlotHeader) : 0 < header.slotSize := by
  have := header.paddingSize_le_slotSize
  unfold paddingSize at this
  omega

end SlotHeader

/-- What is wrong with the slots of a file. -/
inductive Damage
  | headerCut (available : Nat)
  | paddingNotBlank
  | unknownTag (tag : Nat)
  | headerAcrossPages
  | unknownFlags (flags reserved : Nat)
  | strayOrigin
  | lateOrigin (origin : RecordId)
  | nullTarget
  | overfull (capacity length : Nat)
  | overrun (size : Nat)
  | redirectCycle (target : RecordId)
  | tooManyHops (id : RecordId) (limit : Nat)
  | redirectToNoSlot (target : RecordId)
  | redirectToPadding (target : RecordId)
  | notARedirect (state : SlotState)
  | counterTooLow (counter removed : Nat)
  | noIdentifier
deriving DecidableEq

def Damage.message : Damage → String
  | .headerCut available => s!"only {available} bytes left for a record header"
  | .paddingNotBlank => "padding header has non-zero reserved bytes"
  | .unknownTag tag => s!"invalid state tag {tag}"
  | .headerAcrossPages => "record header crosses page boundary"
  | .unknownFlags flags reserved =>
    s!"unexpected flags {Hexadecimal.text 2 flags} / reserved {Hexadecimal.text 4 reserved}"
  | .strayOrigin => "origin set on a non-actual slot"
  | .lateOrigin origin => s!"origin {origin.text} does not precede the slot"
  | .nullTarget => "redirect to record id 0"
  | .overfull capacity length => s!"capacity {capacity} < actual length {length}"
  | .overrun size => s!"slot of {size} bytes overruns its page or the allocated range"
  | .redirectCycle target => s!"redirect cycle back to {target.text}"
  | .tooManyHops id limit => s!"redirect chain from {id.text} exceeds {limit} hops"
  | .redirectToNoSlot target => s!"redirect to {target.text}, which is not a slot"
  | .redirectToPadding target => s!"redirect to padding slot {target.text}"
  | .notARedirect state => s!"expected a redirect, found {state.name} slot"
  | .counterTooLow counter removed => s!"live counter {counter} cannot drop by {removed}"
  | .noIdentifier => "slot outside record id range"

end RecordStore
