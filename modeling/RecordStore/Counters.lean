import RecordStore.Slot.Header

/-!
# Counters

The running totals of a store.  Every change keeps them up to date one by one, and `account` adds them up again from
the slot headers of a scan.
-/

namespace RecordStore

structure Counters where
  /-- Slots ever allocated, the targets of relocations included and padding not. -/
  allocated : Nat
  deleted : Nat
  relocated : Nat
  /-- Payload bytes of the live records. -/
  payload : Nat
  /-- Bytes reserved for the live records. -/
  capacity : Nat
  /-- The offset just past the last slot. -/
  size : Nat
deriving DecidableEq

namespace Counters

def zero : Counters := { allocated := 0, deleted := 0, relocated := 0, payload := 0, capacity := 0, size := 0 }

def liveRecords (counters : Counters) : Nat := counters.allocated - counters.deleted - counters.relocated

/-- Adds one slot to the totals; the size is none of its business. -/
def account (counters : Counters) : SlotHeader → Counters
  | .live capacity length _ =>
    { counters with
      allocated := counters.allocated + 1
      payload := counters.payload + length
      capacity := counters.capacity + capacity }
  | .moved .. =>
    { counters with allocated := counters.allocated + 1, relocated := counters.relocated + 1 }
  | .deleted _ _ true =>
    { counters with allocated := counters.allocated + 1, relocated := counters.relocated + 1 }
  | .deleted _ _ false =>
    { counters with allocated := counters.allocated + 1, deleted := counters.deleted + 1 }
  | .padding _ => counters

def text (counters : Counters) : String :=
  s!"{counters.allocated} records allocated, {counters.deleted} deleted, {counters.relocated} relocated, " ++
  s!"{counters.liveRecords} live\n" ++
  s!"{counters.payload} bytes live payload, {counters.capacity} bytes live capacity, {counters.size} bytes total"

end Counters

end RecordStore
