import RecordStore.Region.Basic

/-!
# Resolution of identifiers

From an identifier redirects are followed until they end in a record or its tombstone.  The chain may not return to a
slot, may not be longer than the limit, and may not leave the slots of the region.
-/

namespace RecordStore

/-- A redirect slot and its capacity. -/
structure Redirect where
  id : RecordId
  capacity : Nat
deriving DecidableEq

/-- The slot in which a chain of redirects ends, and the redirects passed on the way, first to last. -/
structure Resolution where
  id : RecordId
  header : SlotHeader
  passed : List Redirect

namespace Region

variable {σ : Type} [PagedStorage σ]

/-- Whether `id` names a slot of the region. -/
def isSlot (region : Region) (id : RecordId) : SlotM σ Bool := do
  if region.contains id then region.isSlotStart id.offset else return false

/-- Follows redirects from the slot `current`, whose header is `header`, on behalf of `id`. -/
def follow (region : Region) (maxHops : Nat) (id current : RecordId) (header : SlotHeader)
    (passed : List Redirect) : SlotM σ Resolution :=
  match header with
  | .live .. => return { id := current, header, passed }
  | .deleted .. => return { id := current, header, passed }
  | .padding _ =>
    match passed.getLast? with
    | none => throw (.notFound id)
    | some redirect => throw (.corruption redirect.id.offset (.redirectToPadding current))
  | .moved capacity target =>
    let passed' := passed ++ [{ id := current, capacity }]
    -- The slot itself is among those passed, so a redirect to itself is a cycle too
    if passed'.any (·.id = target) then throw (.corruption current.offset (.redirectCycle target))
    else if passed.length < maxHops then do
      if ← region.isSlot target then
        let next ← region.slotAt target.offset
        region.follow maxHops id target next passed'
      else throw (.corruption current.offset (.redirectToNoSlot target))
    else throw (.corruption id.offset (.tooManyHops id maxHops))
termination_by maxHops - passed.length
decreasing_by
  simp only [List.length_append, List.length_cons, List.length_nil]
  omega

/-- The slot that `id` leads to. -/
def resolve (region : Region) (maxHops : Nat) (id : RecordId) : SlotM σ Resolution := do
  if ← region.isSlot id then
    let header ← region.slotAt id.offset
    region.follow maxHops id id header []
  else throw (.notFound id)

/-- The capacity of the redirect slot `id`. -/
def redirectCapacity (region : Region) (id : RecordId) : SlotM σ Nat := do
  match ← region.slotAt id.offset with
  | .moved capacity _ => return capacity
  | header => throw (.corruption id.offset (.notARedirect header.state))

end Region

end RecordStore
