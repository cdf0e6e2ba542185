import RecordStore.Region.Placement
import RecordStore.Region.Resolution
import RecordStore.Session.Basic

/-!
# Record operations

Reading, writing, deleting and resolving records by identifier.  A record that outgrows its slot is copied to a new
one and its old slot becomes a redirect, so every identifier the record ever had goes on leading to it.  The new slot
remembers the first slot of the record, its origin: the origin always points at the newest slot and the other
redirects point at the origin, which keeps chains short.
-/

namespace RecordStore.Session

variable {σ : Type} [PagedStorage σ]

def resolveSlot (id : RecordId) : SessionM σ Resolution := do
  let session ← get
  onSlots (session.region.resolve session.maxHops id)

/-- The identifier under which the record `id` lives now. -/
def resolve (id : RecordId) : SessionM σ RecordId := do
  ensureOpen
  let found ← resolveSlot id
  match found.header with
  | .live .. => return found.id
  | _ => throw (.deleted id)

def read (id : RecordId) : SessionM σ ByteArray := do
  ensureOpen
  let found ← resolveSlot id
  match found.header with
  | .live _ length _ =>
    onSlots (SlotM.onStorage (PagedStorage.read (found.id.offset + SlotHeader.fullSize) length))
  | _ => throw (.deleted id)

/-- Stores a new record. -/
def insert (payload : ByteArray) : SessionM σ RecordId := do
  ensureOpen
  let session ← get
  let capacity ← liftExcept (session.capacityFor payload.size (session.policy.initial payload.size))
  let (id, stop) ← onSlots (session.region.append (.live capacity payload.size none) payload)
  let counters := session.counters
  setCounters { counters with
    size := stop
    allocated := counters.allocated + 1
    payload := counters.payload + payload.size
    capacity := counters.capacity + capacity }
  return id

/-- Overwrites the headers of redirect slots as far as that succeeds. -/
def overwriteRedirects (header : Redirect → SlotHeader) : List Redirect → SlotM σ Unit
  | [] => return ()
  | redirect :: rest => do
    let _ ← SlotM.attempt (Region.writeHeader redirect.id.offset (header redirect))
    overwriteRedirects header rest

/-- Points the origin at `target` and the record's other redirects at the origin.  The chain is whole already, so a
write that fails only leaves it longer; but as long as the origin does not lead past `previous`, pointing `previous`
at the origin would close a cycle. -/
def shortenChain (region : Region) (origin : RecordId) (previous : Redirect) (target : RecordId)
    (passed : List Redirect) : SlotM σ Unit := do
  let shortened ← SlotM.attempt do
    let capacity ← match passed.find? (·.id = origin) with
      | some redirect => pure redirect.capacity
      | none => region.redirectCapacity origin
    Region.writeHeader origin.offset (.moved capacity target)
  match shortened with
  | .error _ => return ()
  | .ok () =>
    overwriteRedirects (fun redirect => .moved redirect.capacity origin) (passed.filter (·.id ≠ origin) ++ [previous])

/-- Copies the record found to a new slot that holds `payload` and makes its old slot a redirect.  The copy counts
from the moment the redirect is written. -/
def relocate (found : Resolution) (oldCapacity oldLength : Nat) (origin : Option RecordId) (payload : ByteArray) :
    SessionM σ RecordId := do
  let session ← get
  let previous := found.id
  let first := origin.getD previous
  let capacity ← liftExcept <|
    session.capacityFor payload.size (session.policy.relocated payload.size oldCapacity)
  let counters := session.counters
  let livePayload ← liftExcept (adjust previous.offset counters.payload payload.size oldLength)
  let liveCapacity ← liftExcept (adjust previous.offset counters.capacity capacity oldCapacity)
  let (id, stop) ← onSlots (session.region.append (.live capacity payload.size (some first)) payload)
  -- From here on the copy counts; what fails before leaves the record as it was
  onSlots (Region.writeHeader previous.offset (.moved oldCapacity id))
  setCounters {
    allocated := counters.allocated + 1
    deleted := counters.deleted
    relocated := counters.relocated + 1
    payload := livePayload
    capacity := liveCapacity
    size := stop }
  if first ≠ previous then
    let old : Redirect := { id := previous, capacity := oldCapacity }
    onSlots (shortenChain { session.region with stop } first old id found.passed)
  return id

/-- Replaces the payload of the record `id`, in place if it fits the slot.  Answers the identifier under which the
record lives from now on. -/
def update (id : RecordId) (payload : ByteArray) : SessionM σ RecordId := do
  ensureOpen
  let found ← resolveSlot id
  match found.header with
  | .live capacity length origin =>
    if payload.size ≤ capacity then
      let counters := (← get).counters
      let livePayload ← liftExcept (adjust found.id.offset counters.payload payload.size length)
      onSlots (Region.writeSlot found.id.offset (.live capacity payload.size origin) payload)
      setCounters { counters with payload := livePayload }
      return found.id
    else relocate found capacity length origin payload
  | _ => throw (.deleted id)

/-- The redirects to bury with a record: those passed on the way to it, and its origin if that can be read. -/
def redirectsToBury (region : Region) (origin : Option RecordId) (passed : List Redirect) :
    SlotM σ (List Redirect) := do
  match origin.filter fun origin => !passed.any (·.id = origin) with
  | none => return passed
  | some origin =>
    match ← SlotM.attempt (region.redirectCapacity origin) with
    | .ok capacity => return passed ++ [{ id := origin, capacity }]
    | .error _ => return passed

/-- Deletes the record `id`: its slot becomes a tombstone, and so do its origin and the redirects passed.  A redirect
that is left behind still leads to the tombstone of the record. -/
def delete (id : RecordId) : SessionM σ Unit := do
  ensureOpen
  let found ← resolveSlot id
  match found.header with
  | .live capacity length origin =>
    let session ← get
    let counters := session.counters
    let livePayload ← liftExcept (adjust found.id.offset counters.payload 0 length)
    let liveCapacity ← liftExcept (adjust found.id.offset counters.capacity 0 capacity)
    onSlots (Region.writeHeader found.id.offset (.deleted capacity length false))
    setCounters { counters with
      deleted := counters.deleted + 1
      payload := livePayload
      capacity := liveCapacity }
    onSlots do
      let redirects ← redirectsToBury session.region origin found.passed
      overwriteRedirects (fun redirect => .deleted redirect.capacity 0 true) redirects
  | _ => throw (.deleted id)

end RecordStore.Session
