import Std.Data.TreeMap.Basic

/-!
# Eviction queue

The frames that may be evicted, least recently released first.  Every frame that joins gets the next tick; the
frame under the smallest tick leaves first.  `order` is the queue itself: joining appends to it, leaving erases
from it, and the victim is its head.
-/

namespace RecordStore

/-- The place of a frame in its cache. -/
abbrev FrameIndex := Nat

structure EvictionQueue where
  capacity : Nat
  nextTick : Nat
  frameAt : Std.TreeMap Nat FrameIndex
  tickOf : Std.TreeMap FrameIndex Nat

namespace EvictionQueue

def empty (capacity : Nat) : EvictionQueue := { capacity, nextTick := 0, frameAt := ∅, tickOf := ∅ }

def count (queue : EvictionQueue) : Nat := queue.tickOf.size

/-- The frames in the order in which they will leave. -/
def order (queue : EvictionQueue) : List FrameIndex := queue.frameAt.toList.map (·.2)

/-- Lets `frame` join.  A frame that waits already keeps its place, and a full queue takes no one. -/
def join (queue : EvictionQueue) (frame : FrameIndex) : EvictionQueue :=
  if queue.tickOf.contains frame || queue.capacity ≤ queue.count then queue
  else
    { queue with
      nextTick := queue.nextTick + 1
      frameAt := queue.frameAt.insert queue.nextTick frame
      tickOf := queue.tickOf.insert frame queue.nextTick }

/-- Takes `frame` out wherever it waits. -/
def leave (queue : EvictionQueue) (frame : FrameIndex) : EvictionQueue :=
  match queue.tickOf[frame]? with
  | none => queue
  | some tick => { queue with frameAt := queue.frameAt.erase tick, tickOf := queue.tickOf.erase frame }

/-- Takes out the frame that has waited longest. -/
def victim? (queue : EvictionQueue) : Option (FrameIndex × EvictionQueue) :=
  match queue.frameAt.toList with
  | [] => none
  | (tick, frame) :: _ =>
    some (frame, { queue with frameAt := queue.frameAt.erase tick, tickOf := queue.tickOf.erase frame })

end EvictionQueue

end RecordStore
