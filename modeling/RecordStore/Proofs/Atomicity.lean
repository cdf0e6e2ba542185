import RecordStore.Proofs.RawRegions
import RecordStore.Proofs.Requests

/-!
# Requests on any bytes

What a session does on a storage of any bytes, of which it only knows that its region lies in there (`Session.Sound`).
From that alone a request that fails has no effect that counts (`Session.Atomic`): all it may have written is padding
or a copy behind the region, and even that only if a call failed.  Once a move or a deletion is committed, nothing
fails any more: what follows rewrites redirects as far as it can.
-/

namespace RecordStore

open Bytes StorageView

variable {σ α β : Type} [PagedStorage σ] {contract : StorageContract σ}

/-- In front of `start`, which lies in the file header, nothing is taken for a redirect. -/
structure Image.RedirectsFrom (img : Image) (start : Nat) : Prop where
  le : start ≤ FileHeader.size
  byte : ∀ id : RecordId, img.byte id.offset = SlotHeader.movedTag → start ≤ id.offset

namespace Image.RedirectsFrom

variable {img : Image} {start : Nat}

theorem zero (img : Image) : img.RedirectsFrom 0 := ⟨Nat.zero_le _, fun _ _ => Nat.zero_le _⟩

theorem of_agreeOn (h : img.RedirectsFrom start) {img' : Image} (hfront : img.AgreeOn img' 0 start) :
    img'.RedirectsFrom start := by
  refine ⟨h.le, fun id hid => Nat.not_lt.1 fun hlt => ?_⟩
  rw [hfront _ (Nat.zero_le _) hlt] at hid
  exact absurd (h.byte id hid) (Nat.not_le.2 hlt)

/-- The redirects passed on the way to a record are slots. -/
theorem passed (h : img.RedirectsFrom start) {redirects : List Redirect} {stop : Nat}
    (hredirects : ∀ redirect ∈ redirects, FileHeader.size ≤ redirect.id.offset ∧
      redirect.id.offset + SlotHeader.fullSize ≤ stop) :
    ∀ redirect ∈ redirects, start ≤ redirect.id.offset ∧ redirect.id.offset + SlotHeader.fullSize ≤ stop :=
  fun redirect hredirect => ⟨Nat.le_trans h.le (hredirects redirect hredirect).1, (hredirects redirect hredirect).2⟩

end Image.RedirectsFrom

/-! ### Redirects -/

namespace Session

variable {region : Region} {img : Image} {start : Nat}

private theorem writeHeader_runs_raw (contract : StorageContract σ) {offset stop : Nat} (header : SlotHeader)
    (hstart : start ≤ offset) (h : offset + SlotHeader.fullSize ≤ stop) (hstop : stop ≤ img.size) :
    contract.Runs (Region.writeHeader offset header) img fun _ after => img.ChangedWithin after start stop := by
  have hsize : offset + (ofList header.encode).size ≤ stop := by
    rw [size_ofList, SlotHeader.length_encode_header]
    exact Nat.le_trans (Nat.add_le_add_left header.headerSize_le _) h
  unfold Region.writeHeader
  exact contract.write_runs (Nat.le_trans hsize hstop) (.write img hstart hsize) fun _ _ => .refl ..

private theorem overwriteRedirects_runs_raw (contract : StorageContract σ) (header : Redirect → SlotHeader)
    {redirects : List Redirect} {stop : Nat}
    (h : ∀ redirect ∈ redirects, start ≤ redirect.id.offset ∧ redirect.id.offset + SlotHeader.fullSize ≤ stop)
    (hstop : stop ≤ img.size) :
    contract.Runs (overwriteRedirects header redirects) img fun result after =>
      result = .ok () ∧ img.ChangedWithin after start stop := by
  induction redirects generalizing img with
  | nil => exact Runs.pure ⟨rfl, .refl ..⟩
  | cons redirect rest ih =>
    obtain ⟨hlow, hhigh⟩ := h redirect List.mem_cons_self
    have hwrite := writeHeader_runs_raw contract (header redirect) hlow hhigh hstop
    unfold overwriteRedirects
    refine Runs.step (Runs.attempt (hwrite.mono ?_))
    intro _ after hchanged
    have hrest := ih (fun other hother => h other (List.mem_cons_of_mem _ hother)) (Nat.le_trans hstop hchanged.size)
    refine hrest.mono ?_
    rintro _ last ⟨rfl, hchanged'⟩
    exact ⟨rfl, hchanged.trans hchanged'⟩

private theorem shortenChain_runs_raw (contract : StorageContract σ) (h : region.Fits img)
    (hfrom : img.RedirectsFrom start) {origin : RecordId} (horigin : origin.offset < region.stop) {previous : Redirect}
    (hprevious : start ≤ previous.id.offset ∧ previous.id.offset + SlotHeader.fullSize ≤ region.stop)
    (target : RecordId) {passed : List Redirect}
    (hpassed : ∀ redirect ∈ passed, start ≤ redirect.id.offset ∧
      redirect.id.offset + SlotHeader.fullSize ≤ region.stop) :
    contract.Runs (shortenChain region origin previous target passed) img fun result after =>
      result = .ok () ∧ img.ChangedWithin after start region.stop := by
  have hredirects : ∀ redirect ∈ passed.filter (·.id ≠ origin) ++ [previous],
      start ≤ redirect.id.offset ∧ redirect.id.offset + SlotHeader.fullSize ≤ region.stop := by
    intro redirect hredirect
    rcases List.mem_append.1 hredirect with hredirect | hredirect
    · exact hpassed redirect (List.mem_of_mem_filter hredirect)
    · rw [List.mem_singleton.1 hredirect]
      exact hprevious
  have hothers : ∀ after, img.ChangedWithin after start region.stop →
      contract.Runs (overwriteRedirects (fun redirect => .moved redirect.capacity origin)
        (passed.filter (·.id ≠ origin) ++ [previous])) after fun result last =>
          result = .ok () ∧ img.ChangedWithin last start region.stop := by
    intro after hchanged
    refine (overwriteRedirects_runs_raw contract _ hredirects (Nat.le_trans h.bound hchanged.size)).mono ?_
    rintro _ last ⟨rfl, hchanged'⟩
    exact ⟨rfl, hchanged.trans hchanged'⟩
  unfold shortenChain
  refine Runs.step (Runs.attempt ?_)
  -- the capacity of the origin is read, unless the origin was passed on the way
  cases hfind : passed.find? (·.id = origin) with
  | none =>
    refine Runs.step ?_
    refine (Region.redirectCapacity_repeats h h (fun _ _ _ => rfl) horigin).runs contract
      (fun capacity horigin => ?_) fun e => Runs.pure ⟨rfl, .refl ..⟩
    refine (writeHeader_runs_raw contract _ (hfrom.byte origin horigin.2) horigin.1 h.bound).mono ?_
    rintro (e | ⟨⟩) after hchanged
    · exact Runs.pure ⟨rfl, hchanged⟩
    · exact hothers after hchanged
  | some redirect =>
    have hid : redirect.id = origin := by simpa using List.find?_some hfind
    have horigin := hpassed redirect (List.mem_of_find?_eq_some hfind)
    rw [hid] at horigin
    refine Runs.step (Runs.pure ((writeHeader_runs_raw contract _ horigin.1 horigin.2 h.bound).mono ?_))
    rintro (e | ⟨⟩) after hchanged
    · exact Runs.pure ⟨rfl, hchanged⟩
    · exact hothers after hchanged

private theorem redirectsToBury_runs_raw (contract : StorageContract σ) (h : region.Fits img)
    (hfrom : img.RedirectsFrom start) {origin : Option RecordId} (horigin : ∀ id ∈ origin, id.offset < region.stop)
    {passed : List Redirect}
    (hpassed : ∀ redirect ∈ passed, start ≤ redirect.id.offset ∧
      redirect.id.offset + SlotHeader.fullSize ≤ region.stop) :
    contract.Runs (redirectsToBury region origin passed) img fun result after => after = img ∧
      ∃ redirects, result = .ok redirects ∧ ∀ redirect ∈ redirects,
        start ≤ redirect.id.offset ∧ redirect.id.offset + SlotHeader.fullSize ≤ region.stop := by
  unfold redirectsToBury
  cases hfilter : origin.filter fun origin => !passed.any (·.id = origin) with
  | none => exact Runs.pure ⟨rfl, passed, rfl, hpassed⟩
  | some id =>
    have hid : id.offset < region.stop := horigin id ((Option.filter_eq_some_iff.1 hfilter).1)
    refine Runs.step (Runs.attempt ?_)
    refine (Region.redirectCapacity_repeats h h (fun _ _ _ => rfl) hid).runs contract (fun capacity hroom => ?_)
      fun e => Runs.pure ⟨rfl, passed, rfl, hpassed⟩
    refine Runs.pure ⟨rfl, _, rfl, fun redirect hredirect => ?_⟩
    rcases List.mem_append.1 hredirect with hredirect | hredirect
    · exact hpassed redirect hredirect
    · rw [List.mem_singleton.1 hredirect]
      exact ⟨hfrom.byte id hroom.2, hroom.1⟩

private theorem bury_runs_raw (contract : StorageContract σ) (h : region.Fits img) (hfrom : img.RedirectsFrom start)
    {origin : Option RecordId} (horigin : ∀ id ∈ origin, id.offset < region.stop) {passed : List Redirect}
    (hpassed : ∀ redirect ∈ passed, start ≤ redirect.id.offset ∧
      redirect.id.offset + SlotHeader.fullSize ≤ region.stop) :
    contract.Runs (do
      let redirects ← redirectsToBury region origin passed
      overwriteRedirects (fun redirect => .deleted redirect.capacity 0 true) redirects) img fun result after =>
        result = .ok () ∧ img.ChangedWithin after start region.stop := by
  refine Runs.step ((redirectsToBury_runs_raw contract h hfrom horigin hpassed).mono ?_)
  rintro _ _ ⟨rfl, redirects, rfl, hredirects⟩
  exact overwriteRedirects_runs_raw contract _ hredirects h.bound

end Session

/-! ### Requests -/

namespace Session

/-- The session is open, and its region lies in its storage. -/
structure Sound (session : Session Image) : Prop where
  opened : session.closed = false
  fits : session.region.Fits session.storage

/-- Nothing has changed in front of `start`, and of the file header in memory only the counters have. -/
structure Amends (start : Nat) (session after : Session Image) : Prop where
  header : ∃ counters, after.header = { session.header with counters }
  size : session.storage.size ≤ after.storage.size
  front : session.storage.AgreeOn after.storage 0 start

/-- How a request ends: it is done, or it fails and leaves everything as it was but for bytes behind the region, which
have changed only if a call failed. -/
inductive Atomic (start : Nat) (session : Session Image) : Except StoreError α → Session Image → Prop
  | done {a : α} {after : Session Image} (h : after.Sound) (hamends : Amends start session after) :
      Atomic start session (.ok a) after
  | undone {e : StoreError} {img : Image} (hchanged : session.storage.ChangedWithin img session.counters.size reach)
      (huntouched : (∀ cause, e ≠ .io cause) → img = session.storage) :
      Atomic start session (.error e) { session with storage := img }

variable {session : Session Image} {start : Nat}

theorem Sound.of_changedWithin (h : session.Sound) {img : Image} {start stop : Nat}
    (hchanged : session.storage.ChangedWithin img start stop) : ({ session with storage := img } : Session Image).Sound :=
  ⟨h.opened, h.fits.of_changedWithin hchanged⟩

theorem Sound.start_le (h : session.Sound) (hfrom : session.storage.RedirectsFrom start) :
    start ≤ session.counters.size := Nat.le_trans hfrom.le h.fits.start

namespace Atomic

theorem refused (start : Nat) (session : Session Image) (e : StoreError) : Atomic (α := α) start session (.error e) session :=
  .undone (.refl ..) fun _ => rfl

theorem map {result : Except StoreError α} {after : Session Image} (h : Atomic start session result after) (f : α → β) :
    Atomic start session (result.map f) after := by
  cases h with
  | done h hamends => exact .done h hamends
  | undone hchanged huntouched => exact .undone hchanged huntouched

theorem sound {result : Except StoreError α} {after : Session Image} (h : Atomic start session result after)
    (hsound : session.Sound) : after.Sound := by
  cases h with
  | done h => exact h
  | undone hchanged => exact hsound.of_changedWithin hchanged

theorem size_le {result : Except StoreError α} {after : Session Image} (h : Atomic start session result after) :
    session.storage.size ≤ after.storage.size := by
  cases h with
  | done _ hamends => exact hamends.size
  | undone hchanged => exact hchanged.size

end Atomic

omit [PagedStorage σ] in
theorem slotSize_le_pageSize {actual : Session σ} (hsupported : SupportedPageSize actual.pageSize)
    {length desired capacity : Nat} (h : actual.capacityFor length desired = .ok capacity) (origin : Option RecordId) :
    (SlotHeader.live capacity length origin).slotSize ≤ actual.pageSize ∧
      (SlotHeader.live capacity length origin).headerSize + length ≤
        (SlotHeader.live capacity length origin).slotSize := by
  obtain ⟨hle, hfit⟩ := capacityFor_eq_ok h
  have hlow : SlotHeader.fullSize ≤ actual.pageSize := Nat.le_trans (by decide) hsupported.large
  have hsize : (SlotHeader.live capacity length origin).headerSize + capacity ≤ _ :=
    (SlotHeader.live capacity length origin).size_le_slotSize
  refine ⟨alignUp_le ?_ hsupported.aligned, by omega⟩
  change SlotHeader.fullSize + capacity ≤ actual.pageSize
  omega

/-- Appending a slot for a capacity that was given out. -/
private theorem append_performs (actual : Session σ) (h : (actual.seen contract.toStorageView).Sound)
    {payload : ByteArray} {desired capacity : Nat} (hcapacity : actual.capacityFor payload.size desired = .ok capacity)
    (origin : Option RecordId) {next : RecordId × Nat → SessionM σ α}
    (hnext : ∀ id stop img, (actual.seen contract.toStorageView).storage.ChangedWithin img actual.counters.size reach →
      actual.counters.size ≤ stop → ({ actual.region with stop } : Region).Fits img →
      Performs contract.toStorageView (next (id, stop)) { actual.seen contract.toStorageView with storage := img }
        (Atomic start (actual.seen contract.toStorageView))) :
    Performs contract.toStorageView
      (onSlots (actual.region.append (.live capacity payload.size origin) payload) >>= next)
      (actual.seen contract.toStorageView) (Atomic start (actual.seen contract.toStorageView)) := by
  have hpageSize : actual.pageSize = (contract.image actual.storage).pageSize := h.fits.pageSize
  have hsupported : SupportedPageSize actual.pageSize := by
    rw [hpageSize]
    exact h.fits.supported
  obtain ⟨hsize, hpayload⟩ := slotSize_le_pageSize hsupported hcapacity origin
  rw [hpageSize] at hsize
  refine Performs.step (Performs.onSlots ((Region.append_runs_raw contract h.fits hsize hpayload).mono ?_))
  rintro (e | ⟨id, stop⟩) img happended
  · refine .undone happended.changed fun hio => ?_
    rcases happended.failed e rfl with ⟨cause, rfl⟩ | hsame
    · exact absurd rfl (hio cause)
    · exact hsame
  · obtain ⟨hlow, rfl, -⟩ := happended.placed id stop rfl
    exact hnext id _ img happended.changed (Nat.le_trans hlow (Nat.le_add_right _ _)) (happended.fits h.fits)

theorem insert_atomic (h : session.Sound) (hfrom : session.storage.RedirectsFrom start) (payload : ByteArray) :
    Performs contract.toStorageView (insert payload) session (Atomic start session) := by
  unfold insert
  refine Performs.step (Performs.ensureOpen h.opened ?_)
  refine Performs.get_bind fun actual hactual => ?_
  subst hactual
  refine Performs.step (Performs.ofExcept ?_)
  cases hcapacity : actual.capacityFor payload.size (actual.policy.initial payload.size) with
  | error e => exact .refused ..
  | ok capacity =>
    refine append_performs actual h hcapacity none fun id stop img hchanged _ hfits => ?_
    exact Performs.step (Performs.setCounters (Performs.pure (.done ⟨h.opened, hfits⟩
      ⟨⟨_, rfl⟩, hchanged.size, hchanged.agreeOn (h.start_le hfrom)⟩)))

/-- The commit of a move and what comes after it, where nothing fails any more. -/
private theorem commit_atomic (h : session.Sound) (hfrom : session.storage.RedirectsFrom start)
    {previous first : RecordId}
    (hprevious : start ≤ previous.offset ∧ previous.offset + SlotHeader.fullSize ≤ session.counters.size)
    (hfirst : first.offset < session.counters.size) {passed : List Redirect}
    (hpassed : ∀ redirect ∈ passed, start ≤ redirect.id.offset ∧
      redirect.id.offset + SlotHeader.fullSize ≤ session.counters.size) {img : Image}
    (hchanged : session.storage.ChangedWithin img session.counters.size reach) {region : Region}
    (hfits : region.Fits img) (hstop : session.counters.size ≤ region.stop) {counters : Counters}
    (hcounters : ({ pageSize := session.pageSize, stop := counters.size } : Region) = region) (capacity : Nat)
    (id : RecordId) :
    Performs contract.toStorageView (do
      onSlots (Region.writeHeader previous.offset (.moved capacity id))
      setCounters counters
      if first ≠ previous then
        let old : Redirect := { id := previous, capacity }
        onSlots (shortenChain region first old id passed)
      return id) { session with storage := img } (Atomic start session) := by
  have hsize : (ofList (SlotHeader.moved capacity id).encode).size = SlotHeader.fullSize := by
    rw [size_ofList, SlotHeader.length_encode_header]
    rfl
  have hbound : previous.offset + (ofList (SlotHeader.moved capacity id).encode).size ≤ region.stop := by omega
  refine Performs.step (Performs.onSlots (contract.write_runs (Nat.le_trans hbound hfits.bound) ?_ fun _ cause =>
    .undone hchanged fun hio => absurd rfl (hio cause)))
  have hwritten : img.ChangedWithin _ start region.stop := .write img hprevious.1 hbound
  have hfits' := hfits.of_changedWithin hwritten
  have hfront : session.storage.AgreeOn img 0 start := hchanged.agreeOn (h.start_le hfrom)
  have hfrom' := hfrom.of_agreeOn (hfront.trans (hwritten.agreeOn (Nat.le_refl _)))
  refine Performs.step (Performs.setCounters ?_)
  -- a record that moves for the first time has no chain to shorten
  by_cases hsame : first = previous
  · rw [if_neg (not_not.2 hsame)]
    subst hcounters
    exact Performs.pure (.done ⟨h.opened, hfits'⟩
      ⟨⟨_, rfl⟩, hchanged.size, hfront.trans (hwritten.agreeOn (Nat.le_refl _))⟩)
  · rw [if_pos hsame]
    have hpassed' : ∀ redirect ∈ passed, start ≤ redirect.id.offset ∧
        redirect.id.offset + SlotHeader.fullSize ≤ region.stop := fun redirect hredirect =>
      ⟨(hpassed redirect hredirect).1, Nat.le_trans (hpassed redirect hredirect).2 hstop⟩
    have hold : start ≤ ({ id := previous, capacity } : Redirect).id.offset ∧ _ ≤ region.stop :=
      ⟨hprevious.1, Nat.le_trans hprevious.2 hstop⟩
    have hshorten := shortenChain_runs_raw contract hfits' hfrom' (Nat.lt_of_lt_of_le hfirst hstop) hold id hpassed'
    refine Performs.step (Performs.onSlots (hshorten.mono ?_))
    rintro _ last ⟨rfl, hlast⟩
    subst hcounters
    exact Performs.pure (.done ⟨h.opened, hfits'.of_changedWithin hlast⟩
      ⟨⟨_, rfl⟩, Nat.le_trans hchanged.size hlast.size, hfront.trans ((hwritten.trans hlast).agreeOn (Nat.le_refl _))⟩)

private theorem relocate_atomic (h : session.Sound) (hfrom : session.storage.RedirectsFrom start)
    {found : Resolution} (hfound : found.Inside session.counters.size)
    {capacity length : Nat} {origin : Option RecordId} (hheader : found.header = .live capacity length origin)
    (payload : ByteArray) :
    Performs contract.toStorageView (relocate found capacity length origin payload) session (Atomic start session) := by
  have hprevious : found.id.offset + SlotHeader.fullSize ≤ session.counters.size :=
    Nat.le_trans (Nat.le_add_right _ _) (hfound.room hheader)
  have hfirst := hfound.first_lt hheader
  unfold relocate
  refine Performs.get_bind fun actual hactual => ?_
  subst hactual
  refine Performs.step (Performs.ofExcept ?_)
  cases hcapacity : actual.capacityFor payload.size (actual.policy.relocated payload.size capacity) with
  | error e => exact .refused ..
  | ok capacity' =>
    refine Performs.step (Performs.ofExcept ?_)
    cases adjust found.id.offset actual.counters.payload payload.size length with
    | error e => exact .refused ..
    | ok livePayload =>
      refine Performs.step (Performs.ofExcept ?_)
      cases adjust found.id.offset actual.counters.capacity capacity' capacity with
      | error e => exact .refused ..
      | ok liveCapacity =>
        refine append_performs actual h hcapacity _ fun id stop img hchanged hstop hfits => ?_
        exact commit_atomic h hfrom ⟨Nat.le_trans hfrom.le hfound.low, hprevious⟩ hfirst (hfrom.passed hfound.passed)
          hchanged hfits hstop rfl capacity id

/-- What is found of a record in a sound session lies in its region. -/
private theorem resolveSlot_bind_atomic (h : session.Sound) (id : RecordId) {next : Resolution → SessionM σ α}
    (hnext : ∀ found : Resolution, found.Inside session.counters.size →
      Performs contract.toStorageView (next found) session (Atomic start session)) :
    Performs contract.toStorageView (resolveSlot id >>= next) session (Atomic start session) := by
  refine Performs.step ?_
  unfold resolveSlot
  refine Performs.get_bind fun actual hactual => ?_
  subst hactual
  have hresolve := Region.resolve_repeats h.fits h.fits (fun _ _ _ => rfl) actual.maxHops id
  exact Performs.onSlots (hresolve.runs contract hnext fun e => .refused ..)

theorem update_atomic (h : session.Sound) (hfrom : session.storage.RedirectsFrom start) (id : RecordId)
    (payload : ByteArray) :
    Performs contract.toStorageView (update id payload) session (Atomic start session) := by
  unfold update
  refine Performs.step (Performs.ensureOpen h.opened ?_)
  refine resolveSlot_bind_atomic h id fun found hfound => ?_
  cases hheader : found.header with
  | live capacity length origin =>
    by_cases hfit : payload.size ≤ capacity
    · -- in place
      dsimp only
      rw [if_pos hfit]
      refine Performs.get_bind fun actual hactual => ?_
      subst hactual
      refine Performs.step (Performs.ofExcept ?_)
      cases adjust found.id.offset actual.counters.payload payload.size length with
      | error e => exact .refused ..
      | ok livePayload =>
        have hbytes : found.id.offset +
            (ofList (SlotHeader.live capacity payload.size origin).encode ++ payload).size ≤ actual.counters.size := by
          have hroom : _ ≤ actual.counters.size := hfound.room hheader
          rw [ByteArray.size_append, size_ofList, SlotHeader.length_encode_header]
          change found.id.offset + (SlotHeader.fullSize + payload.size) ≤ _
          omega
        refine Performs.step (Performs.onSlots (contract.write_runs (Nat.le_trans hbytes h.fits.bound) ?_
          fun _ cause => .refused ..))
        have hwritten : (contract.image actual.storage).ChangedWithin _ start actual.counters.size :=
          .write _ (Nat.le_trans hfrom.le hfound.low) hbytes
        have hsound := h.of_changedWithin hwritten
        exact Performs.step (Performs.setCounters (Performs.pure (.done ⟨hsound.opened, hsound.fits⟩
          ⟨⟨_, rfl⟩, hwritten.size, hwritten.agreeOn (Nat.le_refl _)⟩)))
    · dsimp only
      rw [if_neg hfit]
      exact relocate_atomic h hfrom hfound hheader payload
  | moved capacity target => exact Performs.throw (.refused ..)
  | deleted capacity length relocated => exact Performs.throw (.refused ..)
  | padding capacity => exact Performs.throw (.refused ..)

theorem delete_atomic (h : session.Sound) (hfrom : session.storage.RedirectsFrom start) (id : RecordId) :
    Performs contract.toStorageView (delete id) session (Atomic start session) := by
  unfold delete
  refine Performs.step (Performs.ensureOpen h.opened ?_)
  refine resolveSlot_bind_atomic h id fun found hfound => ?_
  cases hheader : found.header with
  | live capacity length origin =>
    dsimp only
    refine Performs.get_bind fun actual hactual => ?_
    subst hactual
    refine Performs.step (Performs.ofExcept ?_)
    cases adjust found.id.offset actual.counters.payload 0 length with
    | error e => exact .refused ..
    | ok livePayload =>
      refine Performs.step (Performs.ofExcept ?_)
      cases adjust found.id.offset actual.counters.capacity 0 capacity with
      | error e => exact .refused ..
      | ok liveCapacity =>
        have hroom : _ ≤ actual.counters.size := hfound.room hheader
        have hbytes : found.id.offset + (ofList (SlotHeader.deleted capacity length false).encode).size ≤
            actual.counters.size := by
          rw [size_ofList, SlotHeader.length_encode_header]
          change found.id.offset + SlotHeader.fullSize ≤ _
          omega
        refine Performs.step (Performs.onSlots (contract.write_runs (Nat.le_trans hbytes h.fits.bound) ?_
          fun _ cause => .refused ..))
        refine Performs.step (Performs.setCounters ?_)
        have hwritten : (contract.image actual.storage).ChangedWithin _ start actual.counters.size :=
          .write _ (Nat.le_trans hfrom.le hfound.low) hbytes
        have hsound := h.of_changedWithin hwritten
        have hfrom' := hfrom.of_agreeOn (hwritten.agreeOn (Nat.le_refl _))
        -- the record is deleted, whatever becomes of its redirects
        have horigin : ∀ first ∈ origin, first.offset < actual.counters.size := hfound.origin_lt hheader
        refine Performs.onSlots
          ((bury_runs_raw contract hsound.fits hfrom' horigin (hfrom.passed hfound.passed)).mono ?_)
        rintro _ last ⟨rfl, hlast⟩
        exact .done ⟨h.opened, hsound.fits.of_changedWithin hlast⟩
          ⟨⟨_, rfl⟩, hlast.size, (hwritten.trans hlast).agreeOn (Nat.le_refl _)⟩
  | moved capacity target => exact Performs.throw (.refused ..)
  | deleted capacity length relocated => exact Performs.throw (.refused ..)
  | padding capacity => exact Performs.throw (.refused ..)

omit [PagedStorage σ] in
theorem onSlots_bind (act : SlotM σ α) (next : α → SlotM σ β) :
    onSlots (act >>= next) = (onSlots act >>= fun a => onSlots (next a)) := by
  funext session
  rw [bind_apply]
  unfold onSlots
  rw [bind_apply]
  rcases act session.storage with ⟨e | a, storage⟩ <;> rfl

private theorem resolveSlot_apply (id : RecordId) (session : Session σ) :
    resolveSlot id session = onSlots (session.region.resolve session.maxHops id) session := rfl

theorem read_apply {session : Session σ} (hopened : session.closed = false) (id : RecordId) :
    read id session = onSlots (session.region.lookUp session.maxHops id) session := by
  unfold read Region.lookUp
  rw [ensureOpen_bind hopened, onSlots_bind, bind_apply, bind_apply, resolveSlot_apply]
  rcases onSlots (session.region.resolve session.maxHops id) session with ⟨e | ⟨at', header, passed⟩, after⟩
  · rfl
  · cases header <;> rfl

theorem resolve_apply {session : Session σ} (hopened : session.closed = false) (id : RecordId) :
    resolve id session = onSlots (session.region.locate session.maxHops id) session := by
  unfold resolve Region.locate
  rw [ensureOpen_bind hopened, onSlots_bind, bind_apply, bind_apply, resolveSlot_apply]
  rcases onSlots (session.region.resolve session.maxHops id) session with ⟨e | ⟨at', header, passed⟩, after⟩
  · rfl
  · cases header <;> rfl

/-- Work that only reads is done or fails, and changes nothing in either case. -/
private theorem atomic_of_repeats {act : SessionM σ α} (h : session.Sound)
    {work : ∀ (σ : Type) [PagedStorage σ], SlotM σ α}
    (hact : ∀ actual : Session σ, actual.seen contract.toStorageView = session → act actual = onSlots (work σ) actual)
    (hwork : Repeats work session.storage session.storage fun _ => True) :
    Performs contract.toStorageView act session (Atomic start session) := by
  intro actual husable hactual
  rw [hact actual hactual]
  exact Performs.onSlots (hwork.runs contract (fun a _ => .done h ⟨⟨_, rfl⟩, Nat.le_refl _, fun _ _ _ => rfl⟩) fun e => .refused ..)
    actual husable hactual

/-- Every request but a flush, which writes the file header, is done or leaves no trace. -/
theorem perform_atomic_from (h : session.Sound) (hfrom : session.storage.RedirectsFrom start) {request : Request}
    (hflush : request ≠ .flush) :
    Performs contract.toStorageView (perform request) session (Atomic start session) := by
  have hanswer : ∀ {α : Type} {act : SessionM σ α} (f : α → Reply),
      Performs contract.toStorageView act session (Atomic start session) →
        Performs contract.toStorageView (act >>= fun a => pure (f a)) session (Atomic start session) :=
    fun f hact => .answering f (hact.mono fun _ _ hatomic => hatomic.map f)
  have hsame : session.storage.AgreeOn session.storage 0 session.region.stop := fun _ _ _ => rfl
  cases request with
  | insert payload => exact hanswer Reply.id (insert_atomic h hfrom payload)
  | update id payload => exact hanswer Reply.id (update_atomic h hfrom id payload)
  | delete id => exact hanswer (fun _ => Reply.done) (delete_atomic h hfrom id)
  | read id =>
    refine hanswer Reply.payload (atomic_of_repeats h (fun actual hactual => ?_)
      (Region.lookUp_repeats h.fits h.fits hsame session.maxHops id))
    subst hactual
    exact read_apply (show actual.closed = false from h.opened) id
  | resolve id =>
    refine hanswer Reply.id (atomic_of_repeats h (fun actual hactual => ?_)
      (Region.locate_repeats h.fits h.fits hsame session.maxHops id))
    subst hactual
    exact resolve_apply (show actual.closed = false from h.opened) id
  | flush => exact absurd rfl hflush

theorem perform_atomic (h : session.Sound) {request : Request} (hflush : request ≠ .flush) :
    Performs contract.toStorageView (perform request) session (Atomic 0 session) :=
  perform_atomic_from h (.zero _) hflush

end Session

end RecordStore
