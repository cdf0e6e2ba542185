import Mathlib.Algebra.BigOperators.Group.List.Basic
import Mathlib.Algebra.Ring.Nat
import RecordStore.Region.Census

/-!
# Counters as sums

Counters add up field by field, so that a census is a sum over slots and does not depend on their order.  Every slot
has its share (`SlotHeader.share`), and counting slots adds their shares (`Census.counters_count`).
-/

namespace RecordStore

namespace Counters

@[ext] theorem ext_fields {a b : Counters} (allocated : a.allocated = b.allocated) (deleted : a.deleted = b.deleted)
    (relocated : a.relocated = b.relocated) (payload : a.payload = b.payload) (capacity : a.capacity = b.capacity)
    (size : a.size = b.size) : a = b := by
  cases a
  cases b
  simp_all

instance : Zero Counters := ⟨zero⟩

instance : Add Counters where
  add a b := {
    allocated := a.allocated + b.allocated
    deleted := a.deleted + b.deleted
    relocated := a.relocated + b.relocated
    payload := a.payload + b.payload
    capacity := a.capacity + b.capacity
    size := a.size + b.size }

@[simp] theorem allocated_zero : (0 : Counters).allocated = 0 := rfl
@[simp] theorem deleted_zero : (0 : Counters).deleted = 0 := rfl
@[simp] theorem relocated_zero : (0 : Counters).relocated = 0 := rfl
@[simp] theorem payload_zero : (0 : Counters).payload = 0 := rfl
@[simp] theorem capacity_zero : (0 : Counters).capacity = 0 := rfl
@[simp] theorem size_zero : (0 : Counters).size = 0 := rfl

@[simp] theorem allocated_add (a b : Counters) : (a + b).allocated = a.allocated + b.allocated := rfl
@[simp] theorem deleted_add (a b : Counters) : (a + b).deleted = a.deleted + b.deleted := rfl
@[simp] theorem relocated_add (a b : Counters) : (a + b).relocated = a.relocated + b.relocated := rfl
@[simp] theorem payload_add (a b : Counters) : (a + b).payload = a.payload + b.payload := rfl
@[simp] theorem capacity_add (a b : Counters) : (a + b).capacity = a.capacity + b.capacity := rfl
@[simp] theorem size_add (a b : Counters) : (a + b).size = a.size + b.size := rfl

instance : AddCommMonoid Counters where
  add_assoc a b c := by ext <;> simp [Nat.add_assoc]
  zero_add a := by ext <;> simp
  add_zero a := by ext <;> simp
  add_comm a b := by ext <;> simp [Nat.add_comm]
  nsmul := nsmulRec

end Counters

namespace SlotHeader

/-- What one slot adds to the counters. -/
def share (header : SlotHeader) : Counters := Counters.zero.account header

@[simp] theorem size_share (header : SlotHeader) : header.share.size = 0 := by
  rcases header with _ | _ | ⟨_, _, _ | _⟩ | _ <;> rfl

@[simp] theorem share_padding (capacity : Nat) : (padding capacity).share = 0 := rfl

end SlotHeader

theorem Counters.account_eq_add (counters : Counters) (header : SlotHeader) :
    counters.account header = counters + header.share := by
  rcases header with _ | _ | ⟨_, _, _ | _⟩ | _ <;> ext <;> simp [account, SlotHeader.share, zero]

namespace Census

/-- Counting slots one after another adds up their shares and moves on by their sizes. -/
theorem counters_foldl_count (headers : List SlotHeader) (census : Census) :
    (headers.foldl count census).counters =
      { census.counters + (headers.map SlotHeader.share).sum with
        size := census.offset + (headers.map SlotHeader.slotSize).sum } := by
  induction headers generalizing census with
  | nil => ext <;> simp [offset]
  | cons header headers ih =>
    rw [List.foldl_cons, ih]
    ext <;> simp [count, offset, Counters.account_eq_add, Nat.add_assoc]

end Census

end RecordStore
