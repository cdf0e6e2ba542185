import RecordStore.Cache.EvictionQueue
import RecordStore.Page.File
import RecordStore.Storage.Basic

/-!
# Page cache

A bounded set of frames in front of a page file.  A page in use is pinned in its frame; a frame nobody uses waits in
the eviction queue until a page without a frame needs it.  Changed pages reach the file when their frame is evicted
or the cache is flushed.
-/

namespace RecordStore

open Bytes

structure Frame where
  page : Option PageNumber
  data : ByteArray
  pins : Nat
  dirty : Bool

def Frame.blank (pageSize : Nat) : Frame := { page := none, data := zeros pageSize, pins := 0, dirty := false }

structure PageCache where
  file : PageFile
  maxFrames : Nat
  frames : Array Frame
  /-- The frame of every resident page. -/
  table : Std.TreeMap PageNumber FrameIndex
  queue : EvictionQueue

abbrev CacheM := StorageM PageCache

namespace PageCache

/-- A cache of at least one frame; `queueCapacity` bounds how many of them may wait for eviction. -/
def new (file : PageFile) (maxFrames queueCapacity : Nat) : PageCache :=
  { file, maxFrames := max maxFrames 1, frames := #[], table := ∅, queue := .empty queueCapacity }

def pageSize (cache : PageCache) : Nat := cache.file.pageSize

def modifyFrame (cache : PageCache) (index : FrameIndex) (f : Frame → Frame) : PageCache :=
  { cache with frames := cache.frames.modify index f }

/-- The bytes in a frame; empty for an index that is no frame of this cache. -/
def frameData (cache : PageCache) (index : FrameIndex) : ByteArray :=
  match cache.frames[index]? with
  | some frame => frame.data
  | none => ByteArray.empty

/-- Writes a changed page to the file and marks its frame clean. -/
def writeBack (index : FrameIndex) : CacheM Unit := do
  let cache ← get
  match cache.frames[index]? with
  | some { page := some page, data, dirty := true, .. } =>
    let file ← liftExcept (cache.file.writePage page data)
    set ({ cache with file }.modifyFrame index fun frame => { frame with dirty := false })
  | _ => pure ()

/-- Empties a frame that was taken and not filled, and lets it wait for eviction again. -/
def releaseFrame (cache : PageCache) (index : FrameIndex) : PageCache :=
  { cache.modifyFrame index fun _ => .blank cache.pageSize with queue := cache.queue.join index }

/-- The frame that has waited longest, emptied; frames pinned meanwhile are passed over.  `waiting` is the number
of frames in the queue. -/
def evict : (waiting : Nat) → CacheM FrameIndex
  | 0 => do throw (.cacheFull (← get).maxFrames)
  | waiting + 1 => do
    let cache ← get
    match cache.queue.victim? with
    | none => throw (.cacheFull cache.maxFrames)
    | some (index, queue) =>
      set { cache with queue }
      -- Pinned again since it was released
      if (cache.frames[index]?.elim 0 (·.pins)) > 0 then evict waiting
      else
        tryCatch (writeBack index) fun e => do
          modify fun cache => { cache with queue := cache.queue.join index }
          throw e
        modify fun cache =>
          let table := match cache.frames[index]?.bind (·.page) with
            | some page => cache.table.erase page
            | none => cache.table
          { cache with table }.modifyFrame index fun _ => .blank cache.pageSize
        return index

/-- An empty frame: a new one while the cache may grow, else an evicted one. -/
def acquireFrame : CacheM FrameIndex := do
  let cache ← get
  if cache.frames.size < cache.maxFrames then
    set { cache with frames := cache.frames.push (.blank cache.pageSize) }
    return cache.frames.size
  else evict cache.queue.count

/-- Puts `page` into the frame `index`, pinned once. -/
def occupy (cache : PageCache) (index : FrameIndex) (page : PageNumber) (data : ByteArray) (dirty : Bool) : PageCache :=
  { cache.modifyFrame index fun _ => { page := some page, data, pins := 1, dirty } with
    table := cache.table.insert page index
    queue := cache.queue.leave index }

/-- Pins `page`, reading it from the file unless a frame holds it already. -/
def pin (page : PageNumber) : CacheM FrameIndex := do
  let cache ← get
  match cache.table[page]? with
  | some index =>
    set { cache.modifyFrame index fun frame => { frame with pins := frame.pins + 1 } with
          queue := cache.queue.leave index }
    return index
  | none =>
    let index ← acquireFrame
    let cache ← get
    match cache.file.readPage page cache.pageSize with
    | .ok data =>
      set (cache.occupy index page data false)
      return index
    | .error e =>
      set (cache.releaseFrame index)
      throw e

/-- Takes one pin off a frame; a page that was written to is marked as changed. -/
def unpin (cache : PageCache) (index : FrameIndex) (written : Bool) : PageCache :=
  let last := cache.frames[index]?.any (·.pins = 1)
  let cache := cache.modifyFrame index fun frame =>
    { frame with pins := frame.pins - 1, dirty := frame.dirty || written }
  if last then { cache with queue := cache.queue.join index } else cache

/-- Appends a zeroed page to the file and pins it. -/
def appendPage : CacheM (PageNumber × FrameIndex) := do
  let index ← acquireFrame
  let cache ← get
  let (page, file) := cache.file.allocatePage
  set ({ cache with file }.occupy index page (zeros cache.pageSize) true)
  return (page, index)

def setBytes (cache : PageCache) (index : FrameIndex) (position : Nat) (data : ByteArray) : PageCache :=
  cache.modifyFrame index fun frame => { frame with data := splice frame.data position data }

/-- Writes the changed pages in the given frames back, one after the other. -/
def writeBackAll : List FrameIndex → CacheM Unit
  | [] => return ()
  | index :: rest => do
    writeBack index
    writeBackAll rest

/-- Writes every changed page back, in the order of the frames. -/
def flush : CacheM Unit := do writeBackAll (List.range (← get).frames.size)

end PageCache

end RecordStore
