import RecordStore.Proofs.Atomicity
import RecordStore.Proofs.SafeRegions

/-!
# Checked requests

In a session whose region lies in its storage every check of a request holds, whatever stands in the region: what is
read of a slot is looked for only where the slot was found to be, and what is written goes where there is room for it
(`perform_agrees`).  A request fails for a damaged slot, for a call that fails, or for what it asks.
-/

namespace RecordStore

open Bytes CheckedM RangeFault StorageView CheckedRegion

variable {σ α β : Type} [PagedStorage σ]

namespace Request

/-- The identifier that a request is about. -/
def subject? : Request → Option RecordId
  | .update id _ | .delete id | .read id | .resolve id => some id
  | .insert _ | .flush => none

/-- The payload that a request brings. -/
def payload? : Request → Option ByteArray
  | .insert payload | .update _ payload => some payload
  | .delete _ | .read _ | .resolve _ | .flush => none

/-- What a request may be refused with for what it asks.  The identifier is not that of a slot, or the record is gone;
the payload is too long, or there is no room for it. -/
inductive Refused (region : Region) (img : Image) (request : Request) : StoreError → Prop
  | notFound {id : RecordId} (hid : request.subject? = some id) (hslot : ¬region.HasSlot img id) :
      Refused region img request (.notFound id)
  | deleted {id : RecordId} (hid : request.subject? = some id) : Refused region img request (.deleted id)
  | capacity {payload : ByteArray} (hpayload : request.payload? = some payload) (length limit : Nat) :
      Refused region img request (.capacity length limit)
  | full {payload : ByteArray} (hpayload : request.payload? = some payload) (offset : Nat) :
      Refused region img request (.full offset)

end Request

namespace Session

variable {contract : StorageContract σ} {may : StoreError → Prop} {session : Session σ}

/-! ### Putting work together -/

/-- Work on the session agrees with its checked form. -/
abbrev AgreesIn (contract : StorageContract σ) (may : StoreError → Prop) (checked : CheckedM (Session σ) α)
    (act : SessionM σ α) (session : Session σ) : Prop := Agrees contract Session.storage may checked act session

namespace AgreesIn

theorem onSlots {checked : CheckedM σ α} {act : SlotM σ α} (h : AgreesOn contract may checked act session.storage) :
    AgreesIn contract may (CheckedSession.onSlots checked) (Session.onSlots act) session := by
  refine ⟨?_, h.tells, h.usable, h.grows⟩
  have hsame := h.same
  unfold CheckedSession.onSlots
  rw [hsame]
  rfl

theorem ensureOpen (hopened : session.closed = false) {checked : CheckedM (Session σ) α} {act : SessionM σ α}
    (h : AgreesIn contract may checked act session) :
    AgreesIn contract may (do unchecked Session.ensureOpen; checked) (do Session.ensureOpen; act) session := by
  have hchecked : (do unchecked Session.ensureOpen; checked) session = checked session := by
    rw [bind_apply, unchecked_apply, ensureOpen_apply hopened]
    rfl
  refine ⟨?_, ?_, ?_, ?_⟩
  · rw [hchecked, unchecked_apply, ensureOpen_bind hopened]
    exact h.same
  · rw [ensureOpen_bind hopened]
    exact h.tells
  · rw [ensureOpen_bind hopened]
    exact h.usable
  · rw [ensureOpen_bind hopened]
    exact h.grows

/-- An operation whose answer is put another way. -/
theorem answering {checked : CheckedM (Session σ) α} {act : SessionM σ α} (f : α → β)
    (h : AgreesIn contract may checked act session) :
    AgreesIn contract may (checked >>= fun a => pure (f a)) (act >>= fun a => pure (f a)) session :=
  Agrees.step h fun a _ _ husable _ => Agrees.pure husable (f a)

theorem setCounters (husable : contract.Usable session.storage) (counters : Counters) :
    AgreesIn contract may (unchecked (Session.setCounters counters)) (Session.setCounters counters) session :=
  ⟨rfl, by rintro _ ⟨⟩, husable, Nat.le_refl _⟩

end AgreesIn

omit [PagedStorage σ] in
/-- What work on slots that has ended has done to the session. -/
theorem eq_of_onSlots {act : SlotM σ α} {after : Session σ} {a : α} (h : onSlots act session = (.ok a, after)) :
    act session.storage = (.ok a, after.storage) ∧ after = { session with storage := after.storage } := by
  unfold onSlots at h
  rcases hact : act session.storage with ⟨result, storage⟩
  rw [hact] at h
  cases h
  exact ⟨rfl, rfl⟩

/-- The session is sound, and of a size that leaves room for sums of offsets. -/
structure Ready (contract : StorageContract σ) (session : Session σ) : Prop where
  usable : contract.Usable session.storage
  sound : (session.seen contract.toStorageView).Sound
  stop : session.counters.size < 2 ^ 63

theorem Ready.opened (h : Ready contract session) : session.closed = false := h.sound.opened

theorem Ready.fits (h : Ready contract session) : session.region.Fits (contract.image session.storage) := h.sound.fits

theorem Ready.supported (h : Ready contract session) : SupportedPageSize session.pageSize := by
  have hpageSize : session.pageSize = (contract.image session.storage).pageSize := h.fits.pageSize
  rw [hpageSize]
  exact h.fits.supported

/-- What any operation may fail with: a slot is damaged, or a call of the storage fails. -/
inductive Spoilt (contract : StorageContract σ) : StoreError → Prop
  | corruption (offset : Nat) (damage : Damage) : Spoilt contract (.corruption offset damage)
  | io (hfallible : contract.fallible) (cause : StorageError) : Spoilt contract (.io cause)

theorem bears_of_spoilt (h : ∀ e, Spoilt contract e → may e) : Bears contract may :=
  ⟨fun hfallible cause => h _ (.io hfallible cause), fun offset damage => h _ (.corruption offset damage)⟩

/-! ### Looking up -/

/-- What work on the record with an identifier may end with besides. -/
structure BearsRecord (region : Region) (img : Image) (id : RecordId) (may : StoreError → Prop) : Prop where
  notFound : ¬region.HasSlot img id → may (.notFound id)
  deleted : may (.deleted id)

/-- What is found lies in the region, and nothing has changed. -/
private theorem resolveSlot_agrees (h : Ready contract session) (hmay : Bears contract may) {id : RecordId}
    (hrecord : BearsRecord session.region (contract.image session.storage) id may)
    {next' : Resolution → CheckedM (Session σ) α} {next : Resolution → SessionM σ α}
    (hnext : ∀ found storage, Ready contract { session with storage } → found.Inside session.counters.size →
      AgreesIn contract may (next' found) (next found) { session with storage }) :
    AgreesIn contract may (do
      let found ← CheckedSession.resolveSlot contract.extent id
      next' found) (do
      let found ← resolveSlot id
      next found) session := by
  have hresolve : AgreesIn contract may (CheckedSession.resolveSlot contract.extent id) (resolveSlot id) session :=
    Agrees.get_bind (AgreesIn.onSlots (resolve_agrees h.usable rfl h.fits h.stop hmay session.maxHops hrecord.notFound))
  refine Agrees.step hresolve fun found after hfound husable _ => ?_
  obtain ⟨hact, hafter⟩ :=
    eq_of_onSlots (show onSlots (session.region.resolve session.maxHops id) session = _ from hfound)
  obtain ⟨-, himage, hinside⟩ :=
    (Region.resolve_repeats h.fits h.fits (fun _ _ _ => rfl) session.maxHops id).of_ok h.usable rfl hact
  rw [hafter]
  refine hnext found after.storage ⟨husable, ⟨h.opened, ?_⟩, h.stop⟩ hinside
  change session.region.Fits (contract.image after.storage)
  rw [himage]
  exact h.fits

section

variable (h : Ready contract session) (hmay : Bears contract may) {id : RecordId}
  (hrecord : BearsRecord session.region (contract.image session.storage) id may)
include h hmay hrecord

private theorem locate_agrees :
    AgreesIn contract may (CheckedSession.resolve contract.extent id) (resolve id) session := by
  refine AgreesIn.ensureOpen h.opened ?_
  refine resolveSlot_agrees h hmay hrecord fun found storage h' _ => ?_
  cases found.header with
  | live capacity length origin => exact Agrees.pure h'.usable found.id
  | moved capacity target => exact Agrees.fail h'.usable hrecord.deleted
  | deleted capacity length relocated => exact Agrees.fail h'.usable hrecord.deleted
  | padding capacity => exact Agrees.fail h'.usable hrecord.deleted

private theorem read_agrees : AgreesIn contract may (CheckedSession.read contract.extent id) (read id) session := by
  refine AgreesIn.ensureOpen h.opened ?_
  refine resolveSlot_agrees h hmay hrecord fun found storage h' hinside => ?_
  cases hheader : found.header with
  | live capacity length origin =>
    have hroom := hinside.room hheader
    have hvalid := hinside.valid
    rw [hheader] at hvalid
    have hlength : length ≤ capacity := hvalid.2.1
    have hstop := h.stop
    have hbound : session.counters.size ≤ (contract.image storage).size := h'.fits.bound
    dsimp only
    rw [narrow_of_lt (by omega), check_ok_bind]
    have hread : found.id.offset + SlotHeader.fullSize + length ≤ (contract.image storage).size := by omega
    exact AgreesIn.onSlots (readBytes_agrees h'.usable hread hmay.io)
  | moved capacity target => exact Agrees.fail h'.usable hrecord.deleted
  | deleted capacity length relocated => exact Agrees.fail h'.usable hrecord.deleted
  | padding capacity => exact Agrees.fail h'.usable hrecord.deleted

end

/-! ### Writing -/

/-- What work that needs room may end with. -/
structure BearsWriting (contract : StorageContract σ) (may : StoreError → Prop) : Prop extends Bears contract may where
  full : ∀ offset, may (.full offset)
  capacity : ∀ length limit, may (.capacity length limit)

omit [PagedStorage σ] in
private theorem capacityFor_eq (hsupported : SupportedPageSize session.pageSize) (length desired : Nat) :
    CheckedSession.capacityFor session length desired = .ok (session.capacityFor length desired) := by
  have hlow := hsupported.header_le
  have hfits := hsupported.fits
  have hmax : session.maxPayload ≤ session.pageSize - SlotHeader.fullSize := Nat.min_le_right _ _
  have hlimit : CheckedSession.maxPayload session = .ok session.maxPayload := by
    rw [CheckedSession.maxPayload, subtract_of_le (Nat.le_trans (by decide) hlow)]
    rfl
  rw [CheckedSession.capacityFor, hlimit, capacityFor]
  dsimp only [Bind.bind, Except.bind]
  by_cases hlong : session.maxPayload < length
  · rw [if_pos hlong, if_pos hlong]
    rfl
  · rw [if_neg hlong, if_neg hlong, clampTo_of_le (Nat.not_lt.1 hlong)]
    dsimp only
    rw [narrow_of_lt (by omega)]
    rfl

omit [PagedStorage σ] in
private theorem capacityFor_eq_error {length desired : Nat} {e : StoreError}
    (h : session.capacityFor length desired = .error e) : ∃ length limit, e = .capacity length limit := by
  unfold capacityFor at h
  split at h
  · cases h
    exact ⟨_, _, rfl⟩
  · cases h

/-- Choosing the capacity for a payload, which then has a length of 32 bits. -/
private theorem choose_agrees (h : Ready contract session) (hmay : BearsWriting contract may) {length desired : Nat}
    {next' : Nat → CheckedM (Session σ) α} {next : Nat → SessionM σ α}
    (hnext : ∀ capacity, session.capacityFor length desired = .ok capacity →
      AgreesIn contract may (next' capacity) (next capacity) session) :
    AgreesIn contract may (do
      let capacity ← unchecked (liftExcept (← check (CheckedSession.capacityFor session length desired)))
      next' capacity) (do
      let capacity ← liftExcept (session.capacityFor length desired)
      next capacity) session := by
  rw [capacityFor_eq h.supported, check_ok_bind]
  refine Agrees.ofExcept_bind h.usable (fun e he => ?_) hnext
  obtain ⟨_, _, rfl⟩ := capacityFor_eq_error he
  exact hmay.capacity _ _

/-- Appending a slot for a capacity that was given out. -/
private theorem append_agreesIn (h : Ready contract session) (hmay : BearsWriting contract may) {payload : ByteArray}
    {desired capacity : Nat} (hcapacity : session.capacityFor payload.size desired = .ok capacity)
    (origin : Option RecordId)
    {next' : RecordId × Nat → CheckedM (Session σ) α} {next : RecordId × Nat → SessionM σ α}
    (hnext : ∀ id stop storage, contract.Usable storage → session.counters.size ≤ stop → stop < 2 ^ 63 →
      ({ session.region with stop } : Region).Fits (contract.image storage) →
      AgreesIn contract may (next' (id, stop)) (next (id, stop)) { session with storage }) :
    AgreesIn contract may (do
      let length ← check (narrow payload.size 32)
      let placed ← CheckedSession.onSlots
        (CheckedRegion.append contract.extent session.region (.live capacity length origin) payload)
      next' placed) (do
      let placed ← onSlots (session.region.append (.live capacity payload.size origin) payload)
      next placed) session := by
  have hsupported := h.supported
  have hfits := hsupported.fits
  obtain ⟨hle, hfit⟩ := capacityFor_eq_ok hcapacity
  obtain ⟨hsize, hpayload⟩ := slotSize_le_pageSize hsupported hcapacity origin
  have hpageSize : session.pageSize = (contract.image session.storage).pageSize := h.fits.pageSize
  rw [hpageSize] at hsize
  rw [narrow_of_lt (by omega), check_ok_bind]
  refine Agrees.step (AgreesIn.onSlots (append_agrees h.usable rfl h.fits h.stop hmay.io hmay.full hsize hpayload))
    fun placed after hplaced husable' _ => ?_
  obtain ⟨id, stop⟩ := placed
  obtain ⟨hact, hafter⟩ := eq_of_onSlots hplaced
  obtain ⟨-, happended⟩ := (Region.append_runs_raw contract h.fits hsize hpayload).of_ok h.usable rfl hact
  obtain ⟨hlow, rfl, -⟩ := happended.placed id stop rfl
  rw [hafter]
  have hlt := id.offset_lt
  refine hnext id _ after.storage husable' (Nat.le_trans hlow (Nat.le_add_right _ _)) ?_ (happended.fits h.fits)
  omega

private theorem insert_agrees (h : Ready contract session) (hmay : BearsWriting contract may) (payload : ByteArray) :
    AgreesIn contract may (CheckedSession.insert contract.extent payload) (insert payload) session := by
  refine AgreesIn.ensureOpen h.opened ?_
  refine Agrees.get_bind ?_
  refine choose_agrees h hmay fun capacity hcapacity => ?_
  refine append_agreesIn h hmay hcapacity none fun id stop storage husable' _ _ _ => ?_
  exact (AgreesIn.setCounters husable' _).step fun _ _ _ husable'' _ => Agrees.pure husable'' id

private theorem adjust_eq_error {offset counter added removed : Nat} {e : StoreError}
    (h : adjust offset counter added removed = .error e) : ∃ damage, e = .corruption offset damage := by
  unfold adjust at h
  split at h
  · cases h
  · cases h
    exact ⟨_, rfl⟩

/-- A counter that is brought up to date. -/
private theorem adjust_agrees (husable : contract.Usable session.storage) (hmay : Bears contract may)
    {offset counter added removed : Nat} {next' : Nat → CheckedM (Session σ) α} {next : Nat → SessionM σ α}
    (hnext : ∀ value, AgreesIn contract may (next' value) (next value) session) :
    AgreesIn contract may (do
      let value ← unchecked (liftExcept (adjust offset counter added removed))
      next' value) (do
      let value ← liftExcept (adjust offset counter added removed)
      next value) session := by
  refine Agrees.ofExcept_bind husable (fun e he => ?_) fun value _ => hnext value
  obtain ⟨_, rfl⟩ := adjust_eq_error he
  exact hmay.corruption _ _

/-- The commit of a move and what comes after it. -/
private theorem commit_agrees (husable : contract.Usable session.storage) {region : Region}
    (hfits : region.Fits (contract.image session.storage)) (hstop : region.stop < 2 ^ 63) (hmay : Bears contract may)
    {previous first : RecordId} (hprevious : previous.offset + SlotHeader.fullSize ≤ region.stop)
    (hfirst : first.offset < region.stop) {passed : List Redirect}
    (hpassed : ∀ redirect ∈ passed, redirect.id.offset + SlotHeader.fullSize ≤ region.stop) (capacity : Nat)
    (counters : Counters) (id : RecordId) :
    AgreesIn contract may (do
      CheckedSession.onSlots (CheckedRegion.writeHeader contract.extent previous.offset (.moved capacity id))
      unchecked (Session.setCounters counters)
      if first ≠ previous then
        let old : Redirect := { id := previous, capacity }
        CheckedSession.onSlots (CheckedRegion.shortenChain contract.extent region first old id passed)
      return id) (do
      onSlots (Region.writeHeader previous.offset (.moved capacity id))
      setCounters counters
      if first ≠ previous then
        let old : Redirect := { id := previous, capacity }
        onSlots (shortenChain region first old id passed)
      return id) session := by
  have hroom : previous.offset + SlotHeader.fullSize ≤ contract.extent session.storage :=
    Nat.le_trans hprevious (stop_le_extent rfl hfits)
  refine Agrees.step (AgreesIn.onSlots (writeHeader_agrees husable _ hroom hmay.io))
    fun _ after hwritten husable' _ => ?_
  have hfits' := fits_of_writeHeader husable hroom hfits (eq_of_onSlots hwritten).1
  refine Agrees.step (AgreesIn.setCounters husable' counters) fun _ last hlast husable'' _ => ?_
  obtain rfl : { after with header := { after.header with counters } } = last := congrArg Prod.snd hlast
  -- a record that moves for the first time has no chain to shorten
  by_cases hsame : first = previous
  · rw [if_neg (not_not.2 hsame), if_neg (not_not.2 hsame)]
    exact Agrees.pure husable'' id
  · rw [if_pos hsame, if_pos hsame]
    refine Agrees.step (AgreesIn.onSlots (shortenChain_agrees husable'' rfl hfits' hstop hfirst hprevious id hpassed))
      fun _ _ _ husable _ => Agrees.pure husable id

private theorem relocate_agrees (h : Ready contract session) (hmay : BearsWriting contract may) {found : Resolution}
    (hinside : found.Inside session.counters.size) {capacity length : Nat} {origin : Option RecordId}
    (hheader : found.header = .live capacity length origin) (payload : ByteArray) :
    AgreesIn contract may (CheckedSession.relocate contract.extent found capacity length origin payload)
      (relocate found capacity length origin payload) session := by
  have hprevious : found.id.offset + SlotHeader.fullSize ≤ session.counters.size :=
    Nat.le_trans (Nat.le_add_right _ _) (hinside.room hheader)
  have hfirst := hinside.first_lt hheader
  refine Agrees.get_bind ?_
  refine choose_agrees h hmay fun capacity' hcapacity => ?_
  refine adjust_agrees h.usable hmay.toBears fun livePayload => ?_
  refine adjust_agrees h.usable hmay.toBears fun liveCapacity => ?_
  refine append_agreesIn h hmay hcapacity _ fun id stop storage husable' hle hstop' hfits => ?_
  -- the region has grown, and the slots of the record still lie in it
  exact commit_agrees husable' hfits hstop' hmay.toBears (Nat.le_trans hprevious hle) (Nat.lt_of_lt_of_le hfirst hle)
    (fun redirect hredirect => Nat.le_trans (hinside.passed redirect hredirect).2 hle) capacity _ id

/-- A payload that fits goes where the record is found to have room. -/
private theorem overwrite_agrees (h : Ready contract session) (hmay : Bears contract may) {found : Resolution}
    (hinside : found.Inside session.counters.size) {capacity length : Nat} {origin : Option RecordId}
    (hheader : found.header = .live capacity length origin) {payload : ByteArray} (hfit : payload.size ≤ capacity)
    {next' : CheckedM (Session σ) α} {next : SessionM σ α}
    (hnext : ∀ after, contract.Usable after.storage → AgreesIn contract may next' next after) :
    AgreesIn contract may (do
      let length' ← check (narrow payload.size 32)
      CheckedSession.onSlots
        (CheckedRegion.writeSlot contract.extent found.id.offset (.live capacity length' origin) payload)
      next') (do
      onSlots (Region.writeSlot found.id.offset (.live capacity payload.size origin) payload)
      next) session := by
  have hslot := hinside.slot
  have hvalid := hinside.valid
  rw [hheader] at hslot hvalid
  have hcapacity : capacity < 2 ^ 32 := hvalid.1
  have hsize : SlotHeader.fullSize + capacity ≤ _ := (SlotHeader.live capacity payload.size origin).size_le_slotSize
  have hroom : found.id.offset + (SlotHeader.live capacity payload.size origin).slotSize ≤
      contract.extent session.storage := Nat.le_trans hslot (stop_le_extent rfl h.fits)
  have hpayload : (SlotHeader.live capacity payload.size origin).headerSize + payload.size ≤
      (SlotHeader.live capacity payload.size origin).slotSize := Nat.le_trans (Nat.add_le_add_left hfit _) hsize
  rw [narrow_of_lt (by omega), check_ok_bind]
  exact Agrees.step (AgreesIn.onSlots (writeSlot_agrees h.usable hpayload hroom hmay.io))
    fun _ after _ husable _ => hnext after husable

private theorem update_agrees (h : Ready contract session) (hmay : BearsWriting contract may) {id : RecordId}
    (hrecord : BearsRecord session.region (contract.image session.storage) id may) (payload : ByteArray) :
    AgreesIn contract may (CheckedSession.update contract.extent id payload) (update id payload) session := by
  refine AgreesIn.ensureOpen h.opened ?_
  refine resolveSlot_agrees h hmay.toBears hrecord fun found storage h' hinside => ?_
  cases hheader : found.header with
  | live capacity length origin =>
    dsimp only
    by_cases hfit : payload.size ≤ capacity
    · rw [if_pos hfit, if_pos hfit]
      refine Agrees.get_bind (adjust_agrees h'.usable hmay.toBears fun livePayload => ?_)
      refine overwrite_agrees h' hmay.toBears hinside hheader hfit fun after husable' => ?_
      exact (AgreesIn.setCounters husable' _).step fun _ _ _ husable _ => Agrees.pure husable found.id
    · rw [if_neg hfit, if_neg hfit]
      exact relocate_agrees h' hmay hinside hheader payload
  | moved capacity target => exact Agrees.fail h'.usable hrecord.deleted
  | deleted capacity length relocated => exact Agrees.fail h'.usable hrecord.deleted
  | padding capacity => exact Agrees.fail h'.usable hrecord.deleted

private theorem delete_agrees (h : Ready contract session) (hmay : Bears contract may) {id : RecordId}
    (hrecord : BearsRecord session.region (contract.image session.storage) id may) :
    AgreesIn contract may (CheckedSession.delete contract.extent id) (delete id) session := by
  refine AgreesIn.ensureOpen h.opened ?_
  refine resolveSlot_agrees h hmay hrecord fun found storage h' hinside => ?_
  cases hheader : found.header with
  | live capacity length origin =>
    dsimp only
    refine Agrees.get_bind ?_
    refine adjust_agrees h'.usable hmay fun livePayload => adjust_agrees h'.usable hmay fun liveCapacity => ?_
    have hpast : found.id.offset + SlotHeader.fullSize ≤ session.counters.size :=
      Nat.le_trans (Nat.le_add_right _ _) (hinside.room hheader)
    have hroom : found.id.offset + SlotHeader.fullSize ≤ contract.extent storage :=
      Nat.le_trans hpast (stop_le_extent rfl h'.fits)
    refine Agrees.step (AgreesIn.onSlots (writeHeader_agrees h'.usable _ hroom hmay.io))
      fun _ after hwritten husable' _ => ?_
    have hfits' := fits_of_writeHeader h'.usable hroom h'.fits (eq_of_onSlots hwritten).1
    refine Agrees.step (AgreesIn.setCounters husable' _) fun _ last hlast husable'' _ => ?_
    obtain rfl := congrArg Prod.snd hlast
    -- the record is deleted, whatever becomes of its redirects
    exact AgreesIn.onSlots (bury_agrees husable'' rfl hfits' h.stop (hinside.origin_lt hheader)
      (fun redirect hredirect => (hinside.passed redirect hredirect).2) _)
  | moved capacity target => exact Agrees.fail h'.usable hrecord.deleted
  | deleted capacity length relocated => exact Agrees.fail h'.usable hrecord.deleted
  | padding capacity => exact Agrees.fail h'.usable hrecord.deleted

/-! ### Requests -/

/-- The file header is written in front of the slots. -/
theorem persist_agrees (husable : contract.Usable session.storage)
    (hsize : FileHeader.size ≤ contract.extent session.storage) (hio : contract.fallible → ∀ cause, may (.io cause)) :
    AgreesIn contract may (CheckedSession.persist contract.extent) persist session := by
  have hwrite : AgreesIn contract may (CheckedSession.writeHeader contract.extent) writeHeader session := by
    refine Agrees.get_bind (AgreesIn.onSlots (writeBytes_agrees husable ?_ hio))
    rw [size_ofList, FileHeader.length_encode, Nat.zero_add]
    exact hsize
  exact hwrite.step fun _ _ _ husable' _ => AgreesIn.onSlots (flush_agrees husable' hio)

theorem size_le_extent (hsound : (session.seen contract.toStorageView).Sound) :
    FileHeader.size ≤ contract.extent session.storage := Nat.le_trans hsound.fits.start hsound.fits.bound

/-- Every check of a request holds. -/
theorem perform_agrees (h : Ready contract session) (request : Request) :
    AgreesIn contract
      (fun e => Spoilt contract e ∨ request.Refused session.region (contract.image session.storage) e)
      (CheckedSession.perform contract.extent request) (perform request) session := by
  have hmay : Bears contract fun e =>
      Spoilt contract e ∨ request.Refused session.region (contract.image session.storage) e :=
    bears_of_spoilt fun _ => .inl
  have hwriting : ∀ {payload : ByteArray}, request.payload? = some payload → BearsWriting contract fun e =>
      Spoilt contract e ∨ request.Refused session.region (contract.image session.storage) e := fun hpayload =>
    ⟨hmay, fun _ => .inr (.full hpayload _), fun _ _ => .inr (.capacity hpayload _ _)⟩
  have hrecord : ∀ {id : RecordId}, request.subject? = some id →
      BearsRecord session.region (contract.image session.storage) id fun e =>
        Spoilt contract e ∨ request.Refused session.region (contract.image session.storage) e := fun hid =>
    ⟨fun hslot => .inr (.notFound hid hslot), .inr (.deleted hid)⟩
  cases request with
  | insert payload => exact .answering Reply.id (insert_agrees h (hwriting rfl) payload)
  | update id payload => exact .answering Reply.id (update_agrees h (hwriting rfl) (hrecord rfl) payload)
  | delete id => exact .answering (fun _ => Reply.done) (delete_agrees h hmay (hrecord rfl))
  | read id => exact .answering Reply.payload (read_agrees h hmay (hrecord rfl))
  | resolve id => exact .answering Reply.id (locate_agrees h hmay (hrecord rfl))
  | flush =>
    exact .answering (fun _ => Reply.done) (AgreesIn.ensureOpen h.opened
      (persist_agrees h.usable (size_le_extent h.sound) hmay.io))

end Session

end RecordStore
