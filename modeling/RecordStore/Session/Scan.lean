import RecordStore.Session.Basic

/-!
# Scans

Slots one by one in file order, each in the state it has when the scan comes to it.  A scan covers the slots that
were there when it began, and the store may be changed between its steps.
-/

namespace RecordStore

structure ScannedSlot where
  id : RecordId
  header : SlotHeader
  /-- The payload of a record; nothing for other slots. -/
  payload : Option ByteArray

/-- How far a scan has come, and where it ends. -/
structure Cursor where
  offset : Nat
  stop : Nat

namespace Session

variable {σ : Type}

/-- A scan of all slots there are now. -/
def cursor (session : Session σ) : Cursor := { offset := FileHeader.size, stop := session.counters.size }

variable [PagedStorage σ]

def scanSlot (cursor : Cursor) : SessionM σ ScannedSlot := do
  ensureOpen
  let region : Region := { pageSize := (← get).pageSize, stop := cursor.stop }
  let header ← onSlots (region.slotAt cursor.offset)
  match RecordId.ofOffset? cursor.offset with
  | none => throw (.corruption cursor.offset .noIdentifier)
  | some id =>
    match header with
    | .live _ length _ =>
      let payload ← onSlots (SlotM.onStorage (PagedStorage.read (cursor.offset + SlotHeader.fullSize) length))
      return { id, header, payload := some payload }
    | _ => return { id, header, payload := none }

/-- Runs `visitor` on the slots from the cursor on, until it answers `false` or a slot cannot be read.  The visitor may
use the session; `seen` is what it has gathered so far. -/
def forEachFrom {τ : Type} (cursor : Cursor) (visitor : ScannedSlot → τ → StateM (Session σ) (Bool × τ)) (seen : τ) :
    StateM (Session σ) (Option StoreError × τ) :=
  if cursor.offset < cursor.stop then do
    match ← (scanSlot cursor).run with
    | .error e => return (some e, seen)
    | .ok slot =>
      let (goOn, seen) ← visitor slot seen
      if goOn then forEachFrom { cursor with offset := cursor.offset + slot.header.slotSize } visitor seen
      else return (none, seen)
  else return (none, seen)
termination_by cursor.stop - cursor.offset
decreasing_by
  have := slot.header.slotSize_pos
  omega

/-- Runs `visitor` on every slot; see `forEachFrom`. -/
def forEach {τ : Type} (visitor : ScannedSlot → τ → StateM (Session σ) (Bool × τ)) (seen : τ) :
    StateM (Session σ) (Option StoreError × τ) := do
  forEachFrom (← get).cursor visitor seen

/-- Every slot in file order, and the error that ended the scan, if one did. -/
def records : StateM (Session σ) (Option StoreError × List ScannedSlot) := do
  let (failure, seen) ← forEach (fun slot seen => return (true, slot :: seen)) []
  return (failure, seen.reverse)

/-- The counters as a scan gives them; nothing is changed. -/
def countSlots : SessionM σ Counters := do
  ensureOpen
  onSlots (← get).region.count

end Session

end RecordStore
