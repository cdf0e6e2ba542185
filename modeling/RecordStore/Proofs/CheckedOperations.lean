import Mathlib.Tactic.SplitIfs
import RecordStore.Proofs.Store
import RecordStore.Session.Lifecycle
import RecordStore.Session.Records
import RecordStore.Session.Scan

/-!
# Checked operations

The operations of a session once more, written out with the checks that machine words and arrays ask for: a difference
may not be negative, a sum of offsets has to fit a word of 64 bits and what goes into a header one of 32, a slice has
to lie in its array, the bounds of a clamp have to be in order, and an access has to lie inside the storage.  Work that
fails such a check stops with a `RangeFault`, which nothing catches; everything else is as it is without the checks.
-/

namespace RecordStore

inductive RangeFault
  | negative (minuend subtrahend : Nat)
  | tooWide (value bits : Nat)
  | slice (start stop length : Nat)
  | clamp (low high : Nat)
  | access (offset length size : Nat)

/-- Why checked work stops. -/
inductive Halt
  | fault (fault : RangeFault)
  | error (e : StoreError)

abbrev CheckedM (s : Type) := ExceptT Halt (StateM s)

namespace CheckedM

variable {s α : Type}

/-- Work in which there is nothing to check. -/
def unchecked (act : ExceptT StoreError (StateM s) α) : CheckedM s α := ExceptT.adapt Halt.error act

def check (result : Except RangeFault α) : CheckedM s α := liftExcept (result.mapError Halt.fault)

def fail (e : StoreError) : CheckedM s α := throw (.error e)

/-- Runs `act` and hands its failure on as a value, but not a failed check. -/
def attempt (act : CheckedM s α) : CheckedM s (Except StoreError α) := fun state =>
  match act state with
  | (.ok a, state) => (.ok (.ok a), state)
  | (.error (.error e), state) => (.ok (.error e), state)
  | (.error (.fault fault), state) => (.error (.fault fault), state)

theorem unchecked_apply (act : ExceptT StoreError (StateM s) α) (state : s) :
    unchecked act state = ((act state).1.mapError Halt.error, (act state).2) := rfl

theorem check_ok_bind {β : Type} (a : α) (next : α → CheckedM s β) : (check (.ok a) >>= next) = next a :=
  pure_bind a next

end CheckedM

open CheckedM

/-! ### Checks -/

namespace RangeFault

def subtract (minuend subtrahend : Nat) : Except RangeFault Nat :=
  if subtrahend ≤ minuend then .ok (minuend - subtrahend) else .error (.negative minuend subtrahend)

/-- `value` in a word of so many bits. -/
def narrow (value bits : Nat) : Except RangeFault Nat :=
  if value < 2 ^ bits then .ok value else .error (.tooWide value bits)

/-- Whether the places from `start` to `stop` are places of an array. -/
def within (start stop length : Nat) : Except RangeFault Unit :=
  if start ≤ stop ∧ stop ≤ length then .ok () else .error (.slice start stop length)

/-- The number from `low` to `high` that is next to `value`. -/
def clampTo (value low high : Nat) : Except RangeFault Nat :=
  if low ≤ high then .ok (max low (min value high)) else .error (.clamp low high)

theorem subtract_of_le {minuend subtrahend : Nat} (h : subtrahend ≤ minuend) :
    subtract minuend subtrahend = .ok (minuend - subtrahend) := if_pos h

theorem narrow_of_lt {value bits : Nat} (h : value < 2 ^ bits) : narrow value bits = .ok value := if_pos h

theorem within_of_le {start stop length : Nat} (hstart : start ≤ stop) (hstop : stop ≤ length) :
    within start stop length = .ok () := if_pos ⟨hstart, hstop⟩

theorem clampTo_of_le {value low high : Nat} (h : low ≤ high) :
    clampTo value low high = .ok (max low (min value high)) := if_pos h

def byteOf (bytes : List UInt8) (position : Nat) : Except RangeFault UInt8 := do
  within position (position + 1) bytes.length
  return bytes.getD position 0

def wordOf (bytes : List UInt8) (position width : Nat) : Except RangeFault Nat := do
  within position (position + width) bytes.length
  return FileHeader.word bytes position width

theorem byteOf_of_lt {bytes : List UInt8} {position : Nat} (h : position < bytes.length) :
    byteOf bytes position = .ok (bytes.getD position 0) := by
  rw [byteOf, within_of_le (Nat.le_add_right _ _) h]
  rfl

theorem wordOf_of_le {bytes : List UInt8} {position width : Nat} (h : position + width ≤ bytes.length) :
    wordOf bytes position width = .ok (FileHeader.word bytes position width) := by
  rw [wordOf, within_of_le (Nat.le_add_right _ _) h]
  rfl

end RangeFault

open RangeFault

/-! ### Headers -/

def SlotHeader.decodeChecked (offset : Nat) (bytes : List UInt8) : Except RangeFault (Except Damage SlotHeader) := do
  if bytes.length < paddingSize then return .error (.headerCut bytes.length)
  else
    let tag ← byteOf bytes 0
    let capacity ← wordOf bytes 4 4
    if tag = paddingTag then
      within 1 4 bytes.length
      return if ((bytes.drop 1).take 3).all (· = 0) then .ok (.padding capacity) else .error .paddingNotBlank
    else if tag ≠ liveTag ∧ tag ≠ movedTag ∧ tag ≠ deletedTag then return .error (.unknownTag tag.toNat)
    else if bytes.length < fullSize then return .error .headerAcrossPages
    else
      let flags ← byteOf bytes 1
      let reserved ← wordOf bytes 2 2
      let word ← wordOf bytes 8 4
      let origin ← wordOf bytes 12 4
      return ofWords offset tag flags reserved capacity word origin

/-- A header is looked at only as far as there are bytes of it. -/
theorem SlotHeader.decodeChecked_eq (offset : Nat) (bytes : List UInt8) :
    decodeChecked offset bytes = .ok (decode offset bytes) := by
  rcases bytes with _ | ⟨tag, _ | ⟨flags, _ | ⟨r₀, _ | ⟨r₁, _ | ⟨c₀, _ | ⟨c₁, _ | ⟨c₂, _ | ⟨c₃, rest⟩⟩⟩⟩⟩⟩⟩⟩
  -- too short for any header
  iterate 8 rfl
  · have hlength : (tag :: flags :: r₀ :: r₁ :: c₀ :: c₁ :: c₂ :: c₃ :: rest).length = rest.length + 8 := rfl
    unfold decodeChecked decode
    rw [if_neg (by rw [hlength, paddingSize]; omega), byteOf_of_lt (by omega), wordOf_of_le (by omega),
      within_of_le (by omega) (by omega)]
    dsimp only [Bind.bind, Except.bind, Pure.pure, Except.pure]
    change (if tag = paddingTag then _ else if tag ≠ liveTag ∧ tag ≠ movedTag ∧ tag ≠ deletedTag then _ else _) =
      Except.ok (if tag = paddingTag then _ else if tag ≠ liveTag ∧ tag ≠ movedTag ∧ tag ≠ deletedTag then _ else _)
    by_cases hpadding : tag = paddingTag
    · rw [if_pos hpadding, if_pos hpadding]
      have hblank : (((tag :: flags :: r₀ :: r₁ :: c₀ :: c₁ :: c₂ :: c₃ :: rest).drop 1).take 3).all (· = 0) = true ↔
          flags = 0 ∧ r₀ = 0 ∧ r₁ = 0 := by simp
      simp only [hblank]
      rfl
    · rw [if_neg hpadding, if_neg hpadding]
      by_cases htag : tag ≠ liveTag ∧ tag ≠ movedTag ∧ tag ≠ deletedTag
      · rw [if_pos htag, if_pos htag]
        rfl
      · rw [if_neg htag, if_neg htag]
        rcases rest with _ | ⟨w₀, _ | ⟨w₁, _ | ⟨w₂, _ | ⟨w₃, _ | ⟨o₀, _ | ⟨o₁, _ | ⟨o₂, _ | ⟨o₃, more⟩⟩⟩⟩⟩⟩⟩⟩
        -- long enough for padding only
        iterate 8 rfl
        · have hlong := hlength.trans (congrArg (· + 8) (rfl : _ = more.length + 8))
          rw [if_neg (by rw [hlong, fullSize]; omega), byteOf_of_lt (by omega), wordOf_of_le (by omega),
            wordOf_of_le (by omega), wordOf_of_le (by omega)]
          rfl

def FileHeader.decodeChecked (bytes : List UInt8) : Except RangeFault (Except FormatFault (Option FileHeader)) := do
  if bytes.length < size then return .error (.headerCut bytes.length)
  else
    within 0 size bytes.length
    if (bytes.take size).all (· = 0) then return .ok none
    else
      let magic' ← wordOf bytes 0 4
      if magic' ≠ magic then return .error (.badMagic magic')
      else
        let version ← wordOf bytes 4 4
        if version ≠ currentVersion then return .error (.unknownVersion version)
        else
          let pageSize ← wordOf bytes 8 4
          let code ← wordOf bytes 12 4
          match FileStatus.ofCode? code with
          | none => return .error (.unknownStatus code)
          | some status =>
            let stop ← wordOf bytes 16 8
            let allocated ← wordOf bytes 24 8
            let deleted ← wordOf bytes 32 8
            let relocated ← wordOf bytes 40 8
            let payload ← wordOf bytes 48 8
            let capacity ← wordOf bytes 56 8
            let counters : Counters := { size := stop, allocated, deleted, relocated, payload, capacity }
            return .ok (some { version, pageSize, status, counters })

theorem FileHeader.decodeChecked_eq (bytes : List UInt8) : decodeChecked bytes = .ok (decode bytes) := by
  unfold decodeChecked decode
  by_cases hshort : bytes.length < size
  · rw [if_pos hshort, if_pos hshort]
    rfl
  have hword : ∀ position width, position + width ≤ 64 → wordOf bytes position width = .ok (word bytes position width) :=
    fun position width h => wordOf_of_le (Nat.le_trans h (Nat.not_lt.1 hshort))
  rw [if_neg hshort, if_neg hshort, within_of_le (Nat.zero_le _) (Nat.not_lt.1 hshort), hword 0 4 (by decide),
    hword 4 4 (by decide), hword 8 4 (by decide), hword 12 4 (by decide), hword 16 8 (by decide), hword 24 8 (by decide),
    hword 32 8 (by decide), hword 40 8 (by decide), hword 48 8 (by decide), hword 56 8 (by decide)]
  dsimp only [Bind.bind, Except.bind, Pure.pure, Except.pure]
  split_ifs
  · rfl
  · rfl
  · rfl
  · rfl
  · cases FileStatus.ofCode? (word bytes 12 4) <;> rfl

/-! ### Calls of the storage -/

namespace CheckedRegion

variable {σ : Type} [PagedStorage σ] (extent : σ → Nat)

/-- Whether the storage is as large as an access supposes. -/
def access (offset length : Nat) : CheckedM σ Unit := do
  let size := extent (← get)
  if size < offset + length then throw (.fault (.access offset length size))

def readBytes (offset length : Nat) : CheckedM σ ByteArray := do
  access extent offset length
  unchecked (SlotM.onStorage (PagedStorage.read offset length))

def writeBytes (offset : Nat) (data : ByteArray) : CheckedM σ Unit := do
  access extent offset data.size
  unchecked (SlotM.onStorage (PagedStorage.write offset data))

/-! ### Slots -/

def pageEnd (region : Region) (offset : Nat) : Except RangeFault Nat :=
  narrow ((offset / region.pageSize + 1) * region.pageSize) 64

def slotAt (region : Region) (offset : Nat) : CheckedM σ SlotHeader := do
  let pageEnd ← check (pageEnd region offset)
  let room ← check (subtract pageEnd offset)
  let raw ← readBytes extent offset (min room SlotHeader.fullSize)
  match ← check (SlotHeader.decodeChecked offset raw.data.toList) with
  | .error fault => fail (.corruption offset fault)
  | .ok header =>
    let slotEnd ← check (narrow (offset + header.slotSize) 64)
    if pageEnd < slotEnd ∨ region.stop < slotEnd then fail (.corruption offset (.overrun header.slotSize))
    else return header

def reaches (page : ByteArray) (first target position : Nat) : Except RangeFault (Except StoreError Bool) :=
  if position < target then do
    let start ← subtract position first
    let stop := min (start + SlotHeader.fullSize) page.size
    within start stop page.size
    match ← SlotHeader.decodeChecked position (page.extract start stop).data.toList with
    | .error fault => return .error (.corruption position fault)
    | .ok header =>
      let _ ← narrow (position + header.slotSize) 64
      reaches page first target (position + header.slotSize)
  else return .ok (position = target)
termination_by target - position
decreasing_by
  have := header.slotSize_pos
  omega

def isSlotStart (region : Region) (offset : Nat) : CheckedM σ Bool := do
  let first := max (region.pageStart offset) FileHeader.size
  if offset = first then return true
  else
    let pageEnd ← check (pageEnd region offset)
    let length ← check (subtract (min pageEnd region.stop) first)
    let page ← readBytes extent first length
    unchecked (liftExcept (← check (reaches page first offset first)))

def isSlot (region : Region) (id : RecordId) : CheckedM σ Bool := do
  if region.contains id then isSlotStart extent region id.offset else return false

def follow (region : Region) (maxHops : Nat) (id current : RecordId) (header : SlotHeader) (passed : List Redirect) :
    CheckedM σ Resolution :=
  match header with
  | .live .. => return { id := current, header, passed }
  | .deleted .. => return { id := current, header, passed }
  | .padding _ =>
    match passed.getLast? with
    | none => fail (.notFound id)
    | some redirect => fail (.corruption redirect.id.offset (.redirectToPadding current))
  | .moved capacity target =>
    let passed' := passed ++ [{ id := current, capacity }]
    if passed'.any (·.id = target) then fail (.corruption current.offset (.redirectCycle target))
    else if passed.length < maxHops then do
      if ← isSlot extent region target then
        let next ← slotAt extent region target.offset
        follow region maxHops id target next passed'
      else fail (.corruption current.offset (.redirectToNoSlot target))
    else fail (.corruption id.offset (.tooManyHops id maxHops))
termination_by maxHops - passed.length
decreasing_by
  simp only [List.length_append, List.length_cons, List.length_nil]
  omega

def resolve (region : Region) (maxHops : Nat) (id : RecordId) : CheckedM σ Resolution := do
  if ← isSlot extent region id then
    let header ← slotAt extent region id.offset
    follow extent region maxHops id id header []
  else fail (.notFound id)

def redirectCapacity (region : Region) (id : RecordId) : CheckedM σ Nat := do
  match ← slotAt extent region id.offset with
  | .moved capacity _ => return capacity
  | header => fail (.corruption id.offset (.notARedirect header.state))

/-! ### Scans -/

def takeCensus (region : Region) (census : Census) : CheckedM σ Census :=
  if census.offset < region.stop then do
    let header ← slotAt extent region census.offset
    takeCensus region (census.count header)
  else return census
termination_by region.stop - census.offset
decreasing_by
  have := header.slotSize_pos
  change region.stop - (census.offset + header.slotSize) < region.stop - census.offset
  omega

def extendCensus (region : Region) (census : Census) : CheckedM σ Census :=
  if census.offset < region.stop then do
    match ← attempt (slotAt extent region census.offset) with
    | .error (.corruption ..) => return census
    | .error e => fail e
    | .ok header =>
      if census.isOrphan header then return census
      else extendCensus region (census.count header)
  else return census
termination_by region.stop - census.offset
decreasing_by
  have := header.slotSize_pos
  change region.stop - (census.offset + header.slotSize) < region.stop - census.offset
  omega

def count (region : Region) : CheckedM σ Counters := return (← takeCensus extent region .start).counters

def recount (region : Region) : CheckedM σ Counters := do
  let census ← takeCensus extent region .start
  let size ← unchecked (SlotM.onStorage PagedStorage.size)
  return (← extendCensus extent { region with stop := size } census).counters

/-! ### New slots -/

def placement (region : Region) (size : Nat) : Except RangeFault Placement := do
  let pageEnd ← pageEnd region region.stop
  let slotEnd ← narrow (region.stop + size) 64
  if pageEnd < slotEnd then
    let remaining ← subtract pageEnd region.stop
    let capacity ← subtract remaining SlotHeader.paddingSize
    return { offset := pageEnd, padding := some (← narrow capacity 32) }
  else return { offset := region.stop, padding := none }

def writeHeader (offset : Nat) (header : SlotHeader) : CheckedM σ Unit :=
  writeBytes extent offset (Bytes.ofList header.encode)

def writeSlot (offset : Nat) (header : SlotHeader) (payload : ByteArray) : CheckedM σ Unit :=
  writeBytes extent offset (Bytes.ofList header.encode ++ payload)

def append (region : Region) (header : SlotHeader) (payload : ByteArray) : CheckedM σ (RecordId × Nat) := do
  let place ← check (placement region header.slotSize)
  match RecordId.ofOffset? place.offset with
  | none => fail (.full place.offset)
  | some id =>
    match place.padding with
    | some capacity => writeHeader extent region.stop (.padding capacity)
    | none => pure ()
    let stop ← check (narrow (place.offset + header.slotSize) 64)
    unchecked (SlotM.onStorage (PagedStorage.grow stop))
    writeSlot extent place.offset header payload
    return (id, stop)

def overwriteRedirects (header : Redirect → SlotHeader) : List Redirect → CheckedM σ Unit
  | [] => return ()
  | redirect :: rest => do
    let _ ← attempt (writeHeader extent redirect.id.offset (header redirect))
    overwriteRedirects header rest

def shortenChain (region : Region) (origin : RecordId) (previous : Redirect) (target : RecordId)
    (passed : List Redirect) : CheckedM σ Unit := do
  let shortened ← attempt do
    let capacity ← match passed.find? (·.id = origin) with
      | some redirect => pure redirect.capacity
      | none => redirectCapacity extent region origin
    writeHeader extent origin.offset (.moved capacity target)
  match shortened with
  | .error _ => return ()
  | .ok () =>
    overwriteRedirects extent (fun redirect => .moved redirect.capacity origin)
      (passed.filter (·.id ≠ origin) ++ [previous])

def redirectsToBury (region : Region) (origin : Option RecordId) (passed : List Redirect) :
    CheckedM σ (List Redirect) := do
  match origin.filter fun origin => !passed.any (·.id = origin) with
  | none => return passed
  | some origin =>
    match ← attempt (redirectCapacity extent region origin) with
    | .ok capacity => return passed ++ [{ id := origin, capacity }]
    | .error _ => return passed

end CheckedRegion

/-! ### Sessions -/

namespace CheckedSession

variable {σ : Type}

def onSlots {α : Type} (act : CheckedM σ α) : CheckedM (Session σ) α := fun session =>
  match act session.storage with
  | (result, storage) => (result, { session with storage })

def maxPayload (session : Session σ) : Except RangeFault Nat := do
  return min session.policy.limit (← subtract session.pageSize SlotHeader.fullSize)

def capacityFor (session : Session σ) (length desired : Nat) : Except RangeFault (Except StoreError Nat) := do
  let limit ← maxPayload session
  if limit < length then return .error (.capacity length limit)
  else return .ok (← narrow (← clampTo desired length limit) 32)

variable [PagedStorage σ] (extent : σ → Nat)

def resolveSlot (id : RecordId) : CheckedM (Session σ) Resolution := do
  let session ← get
  onSlots (CheckedRegion.resolve extent session.region session.maxHops id)

def resolve (id : RecordId) : CheckedM (Session σ) RecordId := do
  unchecked Session.ensureOpen
  let found ← resolveSlot extent id
  match found.header with
  | .live .. => return found.id
  | _ => fail (.deleted id)

def read (id : RecordId) : CheckedM (Session σ) ByteArray := do
  unchecked Session.ensureOpen
  let found ← resolveSlot extent id
  match found.header with
  | .live _ length _ =>
    let start ← check (narrow (found.id.offset + SlotHeader.fullSize) 64)
    onSlots (CheckedRegion.readBytes extent start length)
  | _ => fail (.deleted id)

def insert (payload : ByteArray) : CheckedM (Session σ) RecordId := do
  unchecked Session.ensureOpen
  let session ← get
  let capacity ← unchecked (liftExcept (← check (capacityFor session payload.size (session.policy.initial payload.size))))
  let length ← check (narrow payload.size 32)
  let (id, stop) ← onSlots (CheckedRegion.append extent session.region (.live capacity length none) payload)
  let counters := session.counters
  unchecked <| Session.setCounters { counters with
    size := stop
    allocated := counters.allocated + 1
    payload := counters.payload + payload.size
    capacity := counters.capacity + capacity }
  return id

def relocate (found : Resolution) (oldCapacity oldLength : Nat) (origin : Option RecordId) (payload : ByteArray) :
    CheckedM (Session σ) RecordId := do
  let session ← get
  let previous := found.id
  let first := origin.getD previous
  let capacity ← unchecked (liftExcept
    (← check (capacityFor session payload.size (session.policy.relocated payload.size oldCapacity))))
  let counters := session.counters
  let livePayload ← unchecked (liftExcept (Session.adjust previous.offset counters.payload payload.size oldLength))
  let liveCapacity ← unchecked (liftExcept (Session.adjust previous.offset counters.capacity capacity oldCapacity))
  let length ← check (narrow payload.size 32)
  let (id, stop) ← onSlots (CheckedRegion.append extent session.region (.live capacity length (some first)) payload)
  onSlots (CheckedRegion.writeHeader extent previous.offset (.moved oldCapacity id))
  unchecked <| Session.setCounters {
    allocated := counters.allocated + 1
    deleted := counters.deleted
    relocated := counters.relocated + 1
    payload := livePayload
    capacity := liveCapacity
    size := stop }
  if first ≠ previous then
    let old : Redirect := { id := previous, capacity := oldCapacity }
    onSlots (CheckedRegion.shortenChain extent { session.region with stop } first old id found.passed)
  return id

def update (id : RecordId) (payload : ByteArray) : CheckedM (Session σ) RecordId := do
  unchecked Session.ensureOpen
  let found ← resolveSlot extent id
  match found.header with
  | .live capacity length origin =>
    if payload.size ≤ capacity then
      let counters := (← get).counters
      let livePayload ← unchecked (liftExcept (Session.adjust found.id.offset counters.payload payload.size length))
      let length' ← check (narrow payload.size 32)
      onSlots (CheckedRegion.writeSlot extent found.id.offset (.live capacity length' origin) payload)
      unchecked (Session.setCounters { counters with payload := livePayload })
      return found.id
    else relocate extent found capacity length origin payload
  | _ => fail (.deleted id)

def delete (id : RecordId) : CheckedM (Session σ) Unit := do
  unchecked Session.ensureOpen
  let found ← resolveSlot extent id
  match found.header with
  | .live capacity length origin =>
    let session ← get
    let counters := session.counters
    let livePayload ← unchecked (liftExcept (Session.adjust found.id.offset counters.payload 0 length))
    let liveCapacity ← unchecked (liftExcept (Session.adjust found.id.offset counters.capacity 0 capacity))
    onSlots (CheckedRegion.writeHeader extent found.id.offset (.deleted capacity length false))
    unchecked <| Session.setCounters { counters with
      deleted := counters.deleted + 1
      payload := livePayload
      capacity := liveCapacity }
    onSlots do
      let redirects ← CheckedRegion.redirectsToBury extent session.region origin found.passed
      CheckedRegion.overwriteRedirects extent (fun redirect => .deleted redirect.capacity 0 true) redirects
  | _ => fail (.deleted id)

/-! ### Headers and scans -/

def writeHeader : CheckedM (Session σ) Unit := do
  let session ← get
  onSlots (CheckedRegion.writeBytes extent 0 (Bytes.ofList session.header.encode))

def persist : CheckedM (Session σ) Unit := do
  writeHeader extent
  onSlots (unchecked (SlotM.onStorage PagedStorage.flush))

def flush : CheckedM (Session σ) Unit := do
  unchecked Session.ensureOpen
  persist extent

def recount : CheckedM (Session σ) Unit := do
  unchecked (Session.setCounters (← onSlots (CheckedRegion.recount extent (← get).region)))

def recover : CheckedM (Session σ) Counters := do
  unchecked Session.ensureOpen
  recount extent
  persist extent
  return (← get).counters

def countSlots : CheckedM (Session σ) Counters := do
  unchecked Session.ensureOpen
  onSlots (CheckedRegion.count extent (← get).region)

def scanSlot (cursor : Cursor) : CheckedM (Session σ) ScannedSlot := do
  unchecked Session.ensureOpen
  let region : Region := { pageSize := (← get).pageSize, stop := cursor.stop }
  let header ← onSlots (CheckedRegion.slotAt extent region cursor.offset)
  match RecordId.ofOffset? cursor.offset with
  | none => fail (.corruption cursor.offset .noIdentifier)
  | some id =>
    match header with
    | .live _ length _ =>
      let start ← check (narrow (cursor.offset + SlotHeader.fullSize) 64)
      let payload ← onSlots (CheckedRegion.readBytes extent start length)
      return { id, header, payload := some payload }
    | _ => return { id, header, payload := none }

def forEachFrom {τ : Type} (cursor : Cursor) (visitor : ScannedSlot → τ → StateM (Session σ) (Bool × τ)) (seen : τ) :
    CheckedM (Session σ) (Option StoreError × τ) :=
  if cursor.offset < cursor.stop then do
    match ← attempt (scanSlot extent cursor) with
    | .error e => return (some e, seen)
    | .ok slot =>
      let (goOn, seen) ← visitor slot seen
      if goOn then forEachFrom { cursor with offset := cursor.offset + slot.header.slotSize } visitor seen
      else return (none, seen)
  else return (none, seen)
termination_by cursor.stop - cursor.offset
decreasing_by
  have := slot.header.slotSize_pos
  omega

def perform : Request → CheckedM (Session σ) Reply
  | .insert payload => return .id (← insert extent payload)
  | .update id payload => return .id (← update extent id payload)
  | .delete id => do
    delete extent id
    return .done
  | .read id => return .payload (← read extent id)
  | .resolve id => return .id (← resolve extent id)
  | .flush => do
    flush extent
    return .done

/-! ### Opening -/

def setUp (pageSize : Nat) : CheckedM σ FileHeader := do
  let header := FileHeader.new (← check (narrow pageSize 32))
  unchecked (SlotM.onStorage (PagedStorage.grow pageSize))
  CheckedRegion.writeBytes extent 0 (Bytes.ofList header.encode)
  unchecked (SlotM.onStorage PagedStorage.flush)
  return header

def loadHeader (pageSize : Nat) : CheckedM σ (FileHeader × Bool) := do
  if pageSize < minPageSize ∨ pageSize % alignment ≠ 0 ∨ 1 <<< 32 ≤ pageSize then
    fail (.format (.unsupportedPageSize pageSize))
  let size ← unchecked (SlotM.onStorage PagedStorage.size)
  if size = 0 then return (← setUp extent pageSize, true)
  if size < FileHeader.size then fail (.format (.tooSmall size))
  let raw ← CheckedRegion.readBytes extent 0 FileHeader.size
  match ← check (FileHeader.decodeChecked raw.data.toList) with
  | .error fault => fail (.format fault)
  | .ok none => return (← setUp extent pageSize, true)
  | .ok (some header) =>
    if header.pageSize ≠ pageSize then fail (.format (.otherPageSize header.pageSize pageSize))
    let stop := header.counters.size
    if stop < FileHeader.size ∨ size < stop ∨ stop % alignment ≠ 0 then fail (.format (.badEnd stop size))
    return (header, header.status = .closed)

def start (recover : Bool) : CheckedM (Session σ) Unit := do
  if !(← get).wasClosedProperly && recover then recount extent
  modify fun session => { session with header := { session.header with status := .opened } }
  persist extent

def openOn (storage : σ) (policy : CapacityPolicy) (options : Options) :
    Except RangeFault (Except (StoreError × σ) (Session σ)) :=
  let pageSize := PagedStorage.pageSize storage
  match loadHeader extent pageSize storage with
  | (.error (.fault fault), _) => .error fault
  | (.error (.error e), storage) => .ok (.error (e, Session.release storage))
  | (.ok (header, wasClosedProperly), storage) =>
    let session : Session σ :=
      { storage, policy, maxHops := options.maxHops, pageSize, wasClosedProperly, header, closed := false }
    match start extent options.recover session with
    | (.ok (), session) => .ok (.ok session)
    | (.error (.error e), session) => .ok (.error (e, Session.release session.storage))
    | (.error (.fault fault), _) => .error fault

end CheckedSession

end RecordStore
