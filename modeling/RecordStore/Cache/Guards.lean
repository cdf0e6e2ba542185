import RecordStore.Cache.Basic

/-!
# Guards on cached pages

A cache together with the guards held on its pages, each under a name of its holder's choice.  A shared guard only
reads its page; an exclusive guard writes too and is alone on its page.  A request that the holder's own guards
stand against is refused, since nobody else could ever let it through.
-/

namespace RecordStore

inductive GuardMode
  | shared
  | exclusive
deriving DecidableEq

structure Guard where
  page : PageNumber
  frame : FrameIndex
  mode : GuardMode

inductive GuardError
  | storage (cause : StorageError)
  | unknownGuard
  | readOnly
  | wouldBlock
deriving DecidableEq

structure GuardedCache where
  cache : PageCache
  guards : List (String × Guard)

abbrev GuardedM := ExceptT GuardError (StateM GuardedCache)

namespace GuardedCache

def new (cache : PageCache) : GuardedCache := { cache, guards := [] }

def find? (held : GuardedCache) (name : String) : Option Guard := held.guards.lookup name

def onCache {α : Type} (act : CacheM α) : GuardedM α := fun held =>
  match act held.cache with
  | (.ok a, cache) => (.ok a, { held with cache })
  | (.error e, cache) => (.error (.storage e), { held with cache })

def requireGuard (name : String) : GuardedM Guard := do
  match (← get).find? name with
  | some guard => return guard
  | none => throw .unknownGuard

/-- Lets go of the guard called `name`, if there is one. -/
def release (held : GuardedCache) (name : String) : GuardedCache :=
  match held.find? name with
  | none => held
  | some guard =>
    { cache := held.cache.unpin guard.frame (guard.mode = .exclusive)
      guards := held.guards.filter fun entry => entry.1 ≠ name }

def keep (name : String) (guard : Guard) : GuardedM Unit :=
  modify fun held => { held with guards := (name, guard) :: held.guards }

/-- Appends a page and holds it exclusively under `name`. -/
def append (name : String) : GuardedM PageNumber := do
  modify (·.release name)
  let (page, frame) ← onCache PageCache.appendPage
  keep name { page, frame, mode := .exclusive }
  return page

/-- Whether a guard on `page` stands against another guard of mode `mode`. -/
def blocks (held : GuardedCache) (page : PageNumber) (mode : GuardMode) : Bool :=
  held.guards.any fun entry => entry.2.page = page && (mode = .exclusive || entry.2.mode = .exclusive)

/-- Holds `page` under `name` in place of any guard of that name; answers the bytes of the page. -/
def fetch (name : String) (page : PageNumber) (mode : GuardMode) : GuardedM ByteArray := do
  if (← get).blocks page mode then throw .wouldBlock
  modify (·.release name)
  let frame ← onCache (PageCache.pin page)
  keep name { page, frame, mode }
  return (← get).cache.frameData frame

/-- The bytes at `position` that the guard called `name` sees. -/
def bytes (name : String) (position length : Nat) : GuardedM ByteArray := do
  let guard ← requireGuard name
  return ((← get).cache.frameData guard.frame).extract position (position + length)

/-- Overwrites bytes of the page that `name` holds exclusively; data past the end of the page is dropped. -/
def setBytes (name : String) (position : Nat) (data : ByteArray) : GuardedM Unit := do
  let guard ← requireGuard name
  if guard.mode = .shared then throw .readOnly
  modify fun held =>
    { held with cache := held.cache.setBytes guard.frame position (data.extract 0 (held.cache.pageSize - position)) }

def drop (name : String) : GuardedM Unit := do
  let _ ← requireGuard name
  modify (·.release name)

/-- Flushes the cache, which needs every page unlocked for reading. -/
def flush : GuardedM Unit := do
  if (← get).guards.any (·.2.mode = .exclusive) then throw .wouldBlock
  onCache PageCache.flush

end GuardedCache

end RecordStore
