/-!
# Capacity policies

How many bytes to reserve for a record.  Every slot keeps the capacity it was given, so a file written under one
policy can be used under another.  The arithmetic is that of 64-bit words that stop at their maximum.
-/

namespace RecordStore

/-- The greatest 64-bit word. -/
def wordMax : Nat := (1 <<< 64) - 1

def saturatingAdd (a b : Nat) : Nat := min (a + b) wordMax

def saturatingMul (a b : Nat) : Nat := min (a * b) wordMax

structure CapacityPolicy where
  /-- The largest capacity the policy ever gives out. -/
  limit : Nat
  /-- The capacity for a new record of so many bytes. -/
  initial : Nat → Nat
  /-- The capacity for a record that outgrew its slot: payload bytes, then the capacity of the slot. -/
  relocated : Nat → Nat → Nat

namespace CapacityPolicy

/-- Reserves the payload and nothing more. -/
def exact (limit : Nat) : CapacityPolicy :=
  { limit, initial := fun length => length, relocated := fun length _ => length }

def percentInitial (floor percent limit length : Nat) : Nat :=
  min (max (saturatingAdd length (saturatingMul length percent / 100)) floor) limit

/-- Reserves `percent` on top of the payload and at least `floor` bytes.  A record that outgrew its slot gets at least
its old capacity with `percent` on top, since it is likely to go on growing. -/
def percent (floor percent limit : Nat) : CapacityPolicy :=
  { limit
    initial := percentInitial floor percent limit
    relocated := fun length current =>
      let grown := saturatingAdd current (saturatingMul current percent / 100)
      min (max (percentInitial floor percent limit length) grown) limit }

/-- The least power of two that is at least `n`, or the greatest word if no word is one. -/
def nextPowerOfTwo (n : Nat) : Nat :=
  let power := if n ≤ 1 then 1 else 1 <<< ((n - 1).log2 + 1)
  if power ≤ wordMax then power else wordMax

def bucketFor (smallest limit length : Nat) : Nat := min (nextPowerOfTwo (max length smallest)) limit

/-- Rounds up to powers of two, from the bucket that holds `smallest` bytes on; a bucket holds at least one byte. -/
def buckets (smallest limit : Nat) : CapacityPolicy :=
  { limit
    initial := bucketFor (max smallest 1) limit
    relocated := fun length _ => bucketFor (max smallest 1) limit length }

/-- Asks for `value` bytes whatever the payload is. -/
def constant (value limit : Nat) : CapacityPolicy :=
  { limit, initial := fun _ => value, relocated := fun _ _ => value }

def exactDefault : CapacityPolicy := exact wordMax

def percentDefault : CapacityPolicy := percent 64 30 wordMax

def bucketsDefault : CapacityPolicy := buckets 32 wordMax

end CapacityPolicy

end RecordStore
