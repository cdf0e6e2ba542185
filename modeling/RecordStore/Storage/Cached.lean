import RecordStore.Cache.Basic

/-!
# Cached files

A page file behind a page cache, addressed by bytes.  An access is cut at page boundaries into spans, and every page
is pinned only while its span is copied.
-/

namespace RecordStore

/-- A piece of a byte range inside one page. -/
structure Span where
  page : PageNumber
  start : Nat
  length : Nat

/-- The piece of `[position, stop)` in the page that holds `position`. -/
def Span.first (pageSize position stop : Nat) : Span :=
  let page := PageNumber.ofOffset position pageSize
  let start := position - page.start pageSize
  { page, start, length := min (pageSize - start) (stop - position) }

private theorem Span.length_first_le (pageSize position stop : Nat) :
    (first pageSize position stop).length ≤ stop - position := Nat.min_le_right _ _

/-- The pieces of `[position, stop)` in order, one for each page touched. -/
def spans (pageSize position stop : Nat) : List Span :=
  if 0 < (Span.first pageSize position stop).length then
    Span.first pageSize position stop :: spans pageSize (position + (Span.first pageSize position stop).length) stop
  else []
termination_by stop - position
decreasing_by
  have := Span.length_first_le pageSize position stop
  omega

structure CachedFile where
  cache : PageCache
  size : Nat
  closed : Bool

namespace CachedFile

abbrev M := StorageM CachedFile

def behind (file : PageFile) (frames : Nat) : CachedFile :=
  { cache := .new file frames frames, size := file.pageCount * file.pageSize, closed := false }

/-- The file under `path` behind `frames` cached pages. -/
def openOrCreate (path : String) (entry : Entry) (pageSize frames : Nat) : Except StorageError CachedFile :=
  return behind (← PageFile.openOrCreate path entry pageSize) frames

def create (path : String) (entry : Entry) (pageSize frames : Nat) : Except StorageError CachedFile :=
  return behind (← PageFile.create path entry pageSize) frames

def pageSize (file : CachedFile) : Nat := file.cache.pageSize

/-- What the file on disk holds; pages changed in the cache only are not in it yet. -/
def onDisk (file : CachedFile) : SparseFile := file.cache.file.content

def setOnDisk (file : CachedFile) (content : SparseFile) : CachedFile :=
  { file with cache := { file.cache with file := { file.cache.file with content } } }

def onCache {α : Type} (act : CacheM α) : M α := fun file =>
  match act file.cache with
  | (result, cache) => (result, { file with cache })

def ensureOpen : M Unit := do
  if (← get).closed then throw .closed

def checkBounds (offset length : Nat) : M Unit := do
  let size := (← get).size
  if size < offset + length then throw (.outOfBounds offset length size)

/-- Copies the spans out of their pages, end to end. -/
def readSpans : List Span → ByteArray → M ByteArray
  | [], bytes => return bytes
  | span :: rest, bytes => do
    let index ← onCache (PageCache.pin span.page)
    let cache := (← get).cache
    let bytes := bytes ++ (cache.frameData index).extract span.start (span.start + span.length)
    modify fun file => { file with cache := file.cache.unpin index false }
    readSpans rest bytes

def read (offset length : Nat) : M ByteArray := do
  ensureOpen
  checkBounds offset length
  readSpans (spans (← get).pageSize offset (offset + length)) ByteArray.empty

/-- Copies `data` from position `done` on into the spans. -/
def writeSpans (data : ByteArray) : List Span → Nat → M Unit
  | [], _ => return ()
  | span :: rest, done => do
    let index ← onCache (PageCache.pin span.page)
    modify fun file =>
      { file with
        cache := (file.cache.setBytes index span.start (data.extract done (done + span.length))).unpin index true }
    writeSpans data rest (done + span.length)

def write (offset : Nat) (data : ByteArray) : M Unit := do
  ensureOpen
  checkBounds offset data.size
  writeSpans data (spans (← get).pageSize offset (offset + data.size)) 0

/-- Appends at most `pages` pages, until the size is at least `target`. -/
def growBy (target : Nat) : (pages : Nat) → M Unit
  | 0 => return ()
  | pages + 1 => do
    let file ← get
    if file.size < target then
      let (page, index) ← onCache PageCache.appendPage
      modify fun file =>
        { file with
          cache := file.cache.unpin index true
          size := page.start file.pageSize + file.pageSize }
      growBy target pages

def grow (target : Nat) : M Unit := do
  ensureOpen
  growBy target (target / (← get).pageSize + 1)

def flush : M Unit := do
  ensureOpen
  onCache PageCache.flush

def close : M Unit := do
  if (← get).closed then return ()
  modify fun file => { file with closed := true }
  onCache PageCache.flush

instance : PagedStorage CachedFile where
  pageSize := pageSize
  read := read
  write := write
  size := do
    ensureOpen
    return (← get).size
  grow := grow
  flush := flush
  close := close

end CachedFile

end RecordStore
