import RecordStore.CapacityPolicy
import RecordStore.Options
import RecordStore.Region.Census

/-!
# Sessions

A session is a storage in use as a record store: the file header held in memory, with the counters as they are now,
and the rules under which records are written.  The header reaches the storage when the session starts, when it is
flushed and when it is closed.
-/

namespace RecordStore

structure Session (σ : Type) where
  storage : σ
  policy : CapacityPolicy
  maxHops : Nat
  pageSize : Nat
  /-- Whether the session before this one closed the file. -/
  wasClosedProperly : Bool
  header : FileHeader
  closed : Bool

/-- An operation of a session; what it changed before it failed stays changed. -/
abbrev SessionM (σ : Type) := ExceptT StoreError (StateM (Session σ))

namespace Session

variable {σ : Type}

def counters (session : Session σ) : Counters := session.header.counters

/-- The slots that the session's counters speak of. -/
def region (session : Session σ) : Region := { pageSize := session.pageSize, stop := session.header.counters.size }

/-- The longest payload that a record can hold. -/
def maxPayload (session : Session σ) : Nat := min session.policy.limit (session.pageSize - SlotHeader.fullSize)

def onSlots {α : Type} (act : SlotM σ α) : SessionM σ α := fun session =>
  match act session.storage with
  | (result, storage) => (result, { session with storage })

def setCounters (counters : Counters) : SessionM σ Unit :=
  modify fun session => { session with header := { session.header with counters } }

def ensureOpen : SessionM σ Unit := do
  if (← get).closed then throw .closed

/-- `counter + added - removed`; the slot at `offset` is damaged if it claims to hold more than the counter does. -/
def adjust (offset counter added removed : Nat) : Except StoreError Nat :=
  if counter + added ≤ wordMax ∧ removed ≤ counter + added then .ok (counter + added - removed)
  else .error (.corruption offset (.counterTooLow counter removed))

/-- The capacity for a payload of `length` bytes, which the policy chooses and the page limits. -/
def capacityFor (session : Session σ) (length desired : Nat) : Except StoreError Nat :=
  if session.maxPayload < length then .error (.capacity length session.maxPayload)
  else .ok (max length (min desired session.maxPayload))

variable [PagedStorage σ]

def writeHeader : SessionM σ Unit := do
  let session ← get
  onSlots (SlotM.onStorage (PagedStorage.write 0 (Bytes.ofList session.header.encode)))

/-- Writes the header and flushes the storage. -/
def persist : SessionM σ Unit := do
  writeHeader
  onSlots (SlotM.onStorage PagedStorage.flush)

/-- Takes the counters from a scan that also counts what was written after the last flush. -/
def recount : SessionM σ Unit := do
  setCounters (← onSlots (← get).region.recount)

end Session

end RecordStore
