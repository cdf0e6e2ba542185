import RecordStore.Session.Basic
import RecordStore.Storage.Cached

/-!
# Beginning and end of a session

A session begins by reading the file header, or by writing one into an empty file.  The header says from then on that
the file is in use; only `close` says otherwise, so that a session that ended any other way is noticed by the next.
-/

namespace RecordStore.Session

variable {σ : Type} [PagedStorage σ]

/-- Makes an empty storage a store without records. -/
def setUp (pageSize : Nat) : SlotM σ FileHeader := do
  let header := FileHeader.new pageSize
  SlotM.onStorage (PagedStorage.grow pageSize)
  SlotM.onStorage (PagedStorage.write 0 (Bytes.ofList header.encode))
  SlotM.onStorage PagedStorage.flush
  return header

/-- The header to begin with, and whether the last session closed the file.  A storage that was never set up counts
as closed. -/
def loadHeader (pageSize : Nat) : SlotM σ (FileHeader × Bool) := do
  if pageSize < minPageSize ∨ pageSize % alignment ≠ 0 ∨ 1 <<< 32 ≤ pageSize then
    throw (.format (.unsupportedPageSize pageSize))
  let size ← SlotM.onStorage PagedStorage.size
  if size = 0 then return (← setUp pageSize, true)
  if size < FileHeader.size then throw (.format (.tooSmall size))
  let raw ← SlotM.onStorage (PagedStorage.read 0 FileHeader.size)
  match FileHeader.decode raw.data.toList with
  | .error fault => throw (.format fault)
  | .ok none => return (← setUp pageSize, true)
  | .ok (some header) =>
    if header.pageSize ≠ pageSize then throw (.format (.otherPageSize header.pageSize pageSize))
    let stop := header.counters.size
    if stop < FileHeader.size ∨ size < stop ∨ stop % alignment ≠ 0 then throw (.format (.badEnd stop size))
    return (header, header.status = .closed)

/-- Marks the file as in use, after a recount if the last session did not close it and `recover` asks for one. -/
def start (recover : Bool) : SessionM σ Unit := do
  if !(← get).wasClosedProperly && recover then recount
  modify fun session => { session with header := { session.header with status := .opened } }
  persist

/-- Closes a storage that no session came to use, whether that succeeds or not. -/
def release (storage : σ) : σ := ((PagedStorage.close : StorageM σ Unit) storage).2

/-- Opens a session on `storage`, whose page size is the one that counts.  If that fails, the storage is closed and
handed back. -/
def openOn (storage : σ) (policy : CapacityPolicy) (options : Options) : Except (StoreError × σ) (Session σ) :=
  let pageSize := PagedStorage.pageSize storage
  match loadHeader pageSize storage with
  | (.error e, storage) => .error (e, release storage)
  | (.ok (header, wasClosedProperly), storage) =>
    let session : Session σ :=
      { storage, policy, maxHops := options.maxHops, pageSize, wasClosedProperly, header, closed := false }
    match start options.recover session with
    | (.ok (), session) => .ok session
    | (.error e, session) => .error (e, release session.storage)

/-- Writes the counters to the storage and flushes it. -/
def flush : SessionM σ Unit := do
  ensureOpen
  persist

/-- Replaces the counters by those of a scan and flushes.  The scan goes on behind the recorded end over well-formed
slots, which finds the records written after the last flush of a session that was cut off. -/
def recover : SessionM σ Counters := do
  ensureOpen
  recount
  persist
  return (← get).counters

/-- Ends the session: the header says that the file was closed, and the storage is released.  The storage is released
even if the header could not be written.  Closing again does nothing. -/
def close : SessionM σ Unit := do
  if (← get).closed then return ()
  modify fun session => { session with closed := true, header := { session.header with status := .closed } }
  -- Of two failures the first is the one reported
  tryCatch writeHeader fun e => do
    tryCatch (onSlots (SlotM.onStorage PagedStorage.close)) fun _ => pure ()
    throw e
  onSlots (SlotM.onStorage PagedStorage.close)

/-- The storage that a session leaves behind when nobody needs it any more: an open session is closed first. -/
def finish (session : Session σ) : σ := ((close : SessionM σ Unit) session).2.storage

/-- Opens a session on the file under `path`.  If that fails, the file is handed back as far as it could be opened. -/
def openFile (path : String) (entry : Entry) (policy : CapacityPolicy) (options : Options) :
    Except (StoreError × Option CachedFile) (Session CachedFile) :=
  match CachedFile.openOrCreate path entry options.pageSize options.frames with
  | .error e => .error (.io e, none)
  | .ok file =>
    match openOn file policy options with
    | .error (e, file) => .error (e, some file)
    | .ok session => .ok session

end RecordStore.Session
