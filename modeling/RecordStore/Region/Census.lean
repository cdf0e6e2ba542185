import RecordStore.Region.Basic

/-!
# Census of the slots

Walking the slots from the first one on and adding them up.  Behind the recorded end the walk goes on as long as it
meets well-formed slots; it stops at a relocated copy that no redirect leads to, which a relocation left behind
before it took effect.
-/

namespace RecordStore

structure Census where
  /-- The totals; the size is the offset reached. -/
  counters : Counters
  /-- The slots that redirects seen so far lead to. -/
  targets : List RecordId

namespace Census

def start : Census := { counters := { Counters.zero with size := FileHeader.size }, targets := [] }

def offset (census : Census) : Nat := census.counters.size

/-- Counts the slot at the offset reached and steps over it. -/
def count (census : Census) (header : SlotHeader) : Census :=
  { counters := { census.counters.account header with size := census.offset + header.slotSize }
    targets := header.redirect?.toList ++ census.targets }

/-- Whether the slot at the offset reached is a relocated copy that nothing leads to. -/
def isOrphan (census : Census) : SlotHeader → Bool
  | .live _ _ (some _) =>
    match RecordId.ofOffset? census.offset with
    | some id => !census.targets.contains id
    | none => true
  | _ => false

private theorem offset_count (census : Census) (header : SlotHeader) :
    (census.count header).offset = census.offset + header.slotSize := rfl

end Census

namespace Region

variable {σ : Type} [PagedStorage σ]

/-- Counts every slot from the offset reached to the end of the region. -/
def takeCensus (region : Region) (census : Census) : SlotM σ Census :=
  if census.offset < region.stop then do
    let header ← region.slotAt census.offset
    region.takeCensus (census.count header)
  else return census
termination_by region.stop - census.offset
decreasing_by
  have := header.slotSize_pos
  rw [Census.offset_count]
  omega

/-- Counts the well-formed slots from the offset reached on, up to the first orphan or broken slot. -/
def extendCensus (region : Region) (census : Census) : SlotM σ Census :=
  if census.offset < region.stop then do
    match ← SlotM.attempt (region.slotAt census.offset) with
    -- Zeros or a torn slot: the end of what was written
    | .error (.corruption ..) => return census
    | .error e => throw e
    | .ok header =>
      if census.isOrphan header then return census
      else region.extendCensus (census.count header)
  else return census
termination_by region.stop - census.offset
decreasing_by
  have := header.slotSize_pos
  rw [Census.offset_count]
  omega

/-- The counters as a scan of the region gives them. -/
def count (region : Region) : SlotM σ Counters := return (← region.takeCensus .start).counters

/-- The counters as a scan gives them that goes on behind the region as far as there are slots. -/
def recount (region : Region) : SlotM σ Counters := do
  let census ← region.takeCensus .start
  let size ← SlotM.onStorage PagedStorage.size
  return (← { region with stop := size }.extendCensus census).counters

end Region

end RecordStore
