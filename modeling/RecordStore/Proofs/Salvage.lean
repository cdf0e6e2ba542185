import RecordStore.Proofs.Opening
import RecordStore.Proofs.Patchwork
import RecordStore.Session.Scan

/-!
# Sessions on what was salvaged

A session that was opened on slots that make up no store as a whole, since their pages are from different moments.  It
can walk them all the same (`Session.Walks`): what it reads under an identifier depends on the slots on the way alone
(`Layout.Shows`), and new records go behind all slots, so they change nothing in front of them
(`Walks.insert_performs`).  A recount finds such slots in a patched file (`openOn_patched`).
-/

namespace RecordStore

open Bytes StorageView

namespace Layout

variable {layout layout' layout'' : Layout} {id last : RecordId} {hops : Nat} {payload : Option ByteArray}

/-- At most `hops` redirects lead from `id` to the slot `last`, which holds `payload`, or is a tombstone if it is
nothing. -/
inductive Shows (layout : Layout) : Nat → RecordId → RecordId → Option ByteArray → Prop
  | live {hops : Nat} {id : RecordId} {capacity : Nat} {origin : Option RecordId} {payload : ByteArray}
      (hid : id ∈ layout.ids) (h : layout.slot id = { header := .live capacity payload.size origin, payload }) :
      Shows layout hops id id (some payload)
  | deleted {hops : Nat} {id : RecordId} {capacity length : Nat} {relocated : Bool} (hid : id ∈ layout.ids)
      (h : layout.header id = .deleted capacity length relocated) : Shows layout hops id id none
  | hop {hops : Nat} {id target last : RecordId} {capacity : Nat} {payload : Option ByteArray} (hid : id ∈ layout.ids)
      (h : layout.header id = .moved capacity target) (hrest : Shows layout hops target last payload) :
      Shows layout (hops + 1) id last payload

/-- The other layout has the same slots and perhaps more. -/
structure Extends (layout layout' : Layout) : Prop where
  ids : layout.ids ⊆ layout'.ids
  slot : ∀ id ∈ layout.ids, layout'.slot id = layout.slot id

theorem Extends.refl (layout : Layout) : layout.Extends layout := ⟨List.Subset.refl _, fun _ _ => rfl⟩

theorem Extends.trans (h : layout.Extends layout') (h' : layout'.Extends layout'') : layout.Extends layout'' :=
  ⟨List.Subset.trans h.ids h'.ids, fun id hid => (h'.slot id (h.ids hid)).trans (h.slot id hid)⟩

theorem Extends.header (h : layout.Extends layout') (hid : id ∈ layout.ids) : layout'.header id = layout.header id :=
  congrArg Slot.header (h.slot id hid)

/-- A slot that is appended, perhaps behind padding, leaves the others as they are. -/
theorem Padded.extends_push {base : Layout} {img : Image} {stop : Nat} {slot : Slot}
    (h : layout.Padded stop base id.offset) (htracks : layout.Tracks img stop) : layout.Extends (base.push id slot) :=
  ⟨List.Subset.trans h.ids_subset (List.subset_append_left _ _), fun _ hother => h.slot_push_eq htracks h.stop_le hother⟩

theorem Shows.extend (h : layout.Shows hops id last payload) (hextends : layout.Extends layout') :
    layout'.Shows hops id last payload := by
  induction h with
  | live hid h => exact .live (hextends.ids hid) ((hextends.slot _ hid).trans h)
  | deleted hid h => exact .deleted (hextends.ids hid) ((hextends.header hid).trans h)
  | hop hid h _ ih => exact .hop (hextends.ids hid) ((hextends.header hid).trans h) ih

theorem Shows.mono (h : layout.Shows hops id last payload) {more : Nat} (hle : hops ≤ more) :
    layout.Shows more id last payload := by
  induction h generalizing more with
  | live hid h => exact .live hid h
  | deleted hid h => exact .deleted hid h
  | hop hid h _ ih =>
    obtain ⟨more, rfl⟩ : ∃ n, more = n + 1 := ⟨more - 1, by omega⟩
    exact .hop hid h (ih (by omega))

/-- The chain of redirects, and the slot at its end. -/
theorem Shows.leads (h : layout.Shows hops id last payload) : ∃ passed, layout.Leads id passed last ∧
    passed.length ≤ hops ∧ (∀ redirect ∈ passed, redirect.id ∈ layout.ids) ∧ last ∈ layout.ids ∧
    ((∃ bytes capacity origin, payload = some bytes ∧
        layout.slot last = { header := .live capacity bytes.size origin, payload := bytes }) ∨
      ∃ capacity length relocated, payload = none ∧ layout.header last = .deleted capacity length relocated) := by
  induction h with
  | @live hops id capacity origin payload hid h =>
    refine ⟨[], .here ?_, Nat.zero_le _, by simp, hid, .inl ⟨_, _, _, rfl, h⟩⟩
    rw [header, h]
    rfl
  | @deleted hops id capacity length relocated hid h =>
    refine ⟨[], .here ?_, Nat.zero_le _, by simp, hid, .inr ⟨_, _, _, rfl, h⟩⟩
    rw [h]
    rfl
  | hop hid h _ ih =>
    obtain ⟨passed, hleads, hlength, hpassed, hlast⟩ := ih
    refine ⟨_, .hop h hleads, Nat.succ_le_succ hlength, fun redirect hredirect => ?_, hlast⟩
    rcases List.mem_cons.1 hredirect with rfl | hredirect
    · exact hid
    · exact hpassed redirect hredirect

/-- The slots show the record under each of its identifiers, with a payload as `fate` says, and in its latest slot
unless it was deleted.  No other slot of it is live. -/
structure Retains (layout : Layout) (record : StoredRecord) (fate : Option ByteArray → Prop) : Prop where
  shows : ∀ id ∈ record.ids, ∃ payload last, fate payload ∧ (payload ≠ none → last = record.latest) ∧
    layout.Shows 2 id last payload
  latest : ∀ id ∈ record.ids, ∀ capacity length origin, layout.header id = .live capacity length origin →
    id = record.latest ∧ origin = record.former.getLast?

/-- The slot `id` is not there, or it shows the record that has no slot besides, with a payload as `fate` says. -/
def ShowsAlone (layout : Layout) (id : RecordId) (fate : Option ByteArray → Prop) : Prop :=
  id ∈ layout.ids → (layout.header id).state ≠ .padding →
    (∃ payload, fate payload ∧ layout.Shows 0 id id payload) ∧
      ∀ capacity length origin, layout.header id = .live capacity length origin → origin = none

/-- What a scan lists for a slot. -/
def scanned (layout : Layout) (id : RecordId) : ScannedSlot :=
  { id
    header := layout.header id
    payload := match layout.header id with
      | .live .. => some (layout.slot id).payload
      | _ => none }

theorem Shows.slot_last {bytes : ByteArray} (h : layout.Shows hops id last (some bytes)) :
    ∃ capacity origin, layout.slot last = { header := .live capacity bytes.size origin, payload := bytes } := by
  obtain ⟨-, -, -, -, -, ⟨_, capacity, origin, ⟨⟩, hslot⟩ | ⟨-, -, -, hnone, -⟩⟩ := h.leads
  · exact ⟨capacity, origin, hslot⟩
  · cases hnone

/-- What is shown is the payload that a scan lists. -/
theorem Shows.payload_scanned {bytes : ByteArray} (h : layout.Shows hops id last (some bytes)) :
    (layout.scanned last).payload = some bytes := by
  obtain ⟨capacity, origin, hslot⟩ := h.slot_last
  simp [scanned, header, hslot]

end Layout

namespace Patchwork

variable {disk : Image} {header : FileHeader} {known : RecordId → Prop} {layouts : Nat → Layout} {ids : List RecordId}
  {fate : Option ByteArray → Prop}

/-- At every page's moment there was a record with these identifiers and a payload as `fate` says. -/
def Kept (layouts : Nat → Layout) (ids : List RecordId) (fate : Option ByteArray → Prop) : Prop :=
  ∀ page : Nat, ∃ record : StoredRecord, record.ids = ids ∧ (layouts page).Stores record ∧ (layouts page).Tidy record ∧
    fate record.payload ∧ ids ⊆ (layouts page).ids

/-- What is found at one slot of such a record: its payload at some moment, or the redirect that was there at all. -/
private theorem Found.shows_or_moved {layout : Layout} {stop : Nat} (h : Found disk header known layouts layout stop)
    {record : StoredRecord} (hkept : Kept layouts record.ids fate)
    (hrecorded : ∀ id ∈ record.ids, id.offset < header.counters.size) {id : RecordId} (hid : id ∈ record.ids) :
    id ∈ layout.ids ∧
      ((∃ payload, fate payload ∧ (payload ≠ none → id = record.latest) ∧ layout.Shows 0 id id payload) ∨
        id ≠ record.latest ∧ ∃ capacity,
          layout.header id = .moved capacity (if id = record.first then record.latest else record.first)) := by
  -- the page of the slot shows the record as it was at one moment
  obtain ⟨other, hids, hstores, htidy, hfate, hsubset⟩ := hkept (id.offset / disk.pageSize)
  obtain ⟨hlatest, hformer⟩ := List.cons.inj hids
  have hfirst : other.first = record.first := by
    unfold StoredRecord.first
    rw [hlatest, hformer]
  have hmem := h.complete id (hsubset hid) (hrecorded id hid)
  have hslot := h.slot id
  have hheader := h.header_eq id
  refine ⟨hmem, ?_⟩
  rw [← hids] at hid
  rcases List.mem_cons.1 hid with heq | hid'
  · cases hpayload : other.payload with
    | some payload =>
      have hlive := hstores.live payload hpayload
      rw [← heq, ← hslot] at hlive
      exact .inl ⟨some payload, hpayload ▸ hfate, fun _ => heq.trans hlatest, .live hmem hlive⟩
    | none =>
      obtain ⟨length, hdead⟩ := hstores.dead hpayload
      rw [← heq, ← hheader] at hdead
      exact .inl ⟨none, hpayload ▸ hfate, fun hne => absurd rfl hne, .deleted hmem hdead⟩
  · rcases hstores.former id hid' with ⟨capacity, target, hmoved⟩ | ⟨hpayload, capacity, length, hdead⟩
    · have htarget := htidy id hid' capacity target hmoved
      rw [hlatest, hfirst] at htarget
      exact .inr ⟨fun heq => hstores.latest_ne hid' (hlatest.trans heq.symm), capacity,
        by rw [hheader, hmoved, htarget]⟩
    · rw [← hheader] at hdead
      exact .inl ⟨none, hpayload ▸ hfate, fun hne => absurd rfl hne, .deleted hmem hdead⟩

/-- A record that every moment has is found through each of its identifiers, as it was at one of these moments. -/
theorem Found.retains {layout : Layout} {stop : Nat} (h : Found disk header known layouts layout stop)
    {record : StoredRecord} (hkept : Kept layouts record.ids fate)
    (hrecorded : ∀ id ∈ record.ids, id.offset < header.counters.size) : layout.Retains record fate where
  shows id hid := by
    -- from the latest slot to the first one, and from there to all others
    have hlatest : ∃ payload, fate payload ∧ layout.Shows 0 record.latest record.latest payload := by
      obtain ⟨-, ⟨payload, hfate, -, hshows⟩ | ⟨hne, -⟩⟩ :=
        h.shows_or_moved hkept hrecorded (show record.latest ∈ record.ids from List.mem_cons_self)
      · exact ⟨payload, hfate, hshows⟩
      · exact absurd rfl hne
    have hfirst : ∃ payload last, fate payload ∧ (payload ≠ none → last = record.latest) ∧
        layout.Shows 1 record.first last payload := by
      obtain ⟨hmem, ⟨payload, hfate, hlast, hshows⟩ | ⟨-, capacity, hmoved⟩⟩ :=
        h.shows_or_moved hkept hrecorded record.first_mem
      · exact ⟨payload, _, hfate, hlast, hshows.mono (Nat.zero_le _)⟩
      · obtain ⟨payload, hfate, hshows⟩ := hlatest
        rw [if_pos rfl] at hmoved
        exact ⟨payload, _, hfate, fun _ => rfl, .hop hmem hmoved hshows⟩
    obtain ⟨hmem, ⟨payload, hfate, hlast, hshows⟩ | ⟨-, capacity, hmoved⟩⟩ := h.shows_or_moved hkept hrecorded hid
    · exact ⟨payload, _, hfate, hlast, hshows.mono (Nat.zero_le _)⟩
    · obtain ⟨payload, last, hfate, hlast, hshows⟩ := hfirst
      by_cases heq : id = record.first
      · rw [heq]
        exact ⟨payload, last, hfate, hlast, hshows.mono (by omega)⟩
      · rw [if_neg heq] at hmoved
        exact ⟨payload, last, hfate, hlast, .hop hmem hmoved hshows⟩
  latest id hid capacity length origin hlive := by
    obtain ⟨other, hids, hstores, -⟩ := hkept (id.offset / disk.pageSize)
    obtain ⟨hlatest, hformer⟩ := List.cons.inj hids
    rw [h.header_eq] at hlive
    rw [← hids] at hid
    rw [← hlatest, ← hformer]
    obtain ⟨heq, -, horigin⟩ := hstores.eq_latest_of_live hid hlive
    exact ⟨heq, horigin⟩

end Patchwork

namespace Session

variable {σ : Type} [PagedStorage σ] {contract : StorageContract σ} {session : Session Image} {layout : Layout}
  {id : RecordId}

/-- The session is open and its region is that of the layout. -/
structure Walks (session : Session Image) (layout : Layout) : Prop where
  opened : session.closed = false
  pageSize : session.pageSize = session.storage.pageSize
  supported : SupportedPageSize session.storage.pageSize
  tracks : layout.Tracks session.storage session.counters.size

theorem Serves.walks {session : Session Image} {store : Store} (h : session.Serves layout store) :
    session.Walks layout where
  opened := h.opened
  pageSize := h.pageSize.symm.trans h.keeps.pageSize_eq.symm
  supported := by
    rw [h.keeps.pageSize_eq]
    exact h.keeps.supported
  tracks := by
    rw [h.counters_eq]
    exact h.keeps.tracks

namespace Walks

variable (h : session.Walks layout)

include h

theorem region_seen {actual : Session σ} (hactual : actual.seen contract.toStorageView = session) :
    actual.region = { pageSize := session.storage.pageSize, stop := session.counters.size } := by
  rw [← h.pageSize, ← hactual]
  rfl

/-- What names no slot, or padding, is not found. -/
theorem resolve_performs_notFound (hid : id ∈ layout.ids → (layout.header id).state = .padding) :
    Performs contract.toStorageView (resolve id) session fun result _ =>
      result = .error (.notFound id) ∨ contract.fallible ∧ ∃ cause, result = .error (.io cause) := by
  refine contract.performs_of_wellFormed fun hwf => ?_
  unfold resolve
  refine Performs.step (Performs.ensureOpen h.opened ?_)
  refine Performs.step ?_
  unfold resolveSlot
  refine Performs.get_bind fun actual hactual => Performs.onSlots ?_
  rw [h.region_seen hactual]
  have hresolve : contract.Answers _ _ _ := Region.resolve_answers_notFound hwf h.tracks actual.maxHops hid
  refine hresolve.mono ?_
  rintro result _ ⟨rfl, rfl | ⟨hfallible, cause, rfl⟩⟩
  · exact .inl rfl
  · exact .inr ⟨hfallible, cause, rfl⟩

/-- The slot at the end of the redirects, and what is made of it. -/
private theorem resolveSlot_bind_performs {hops : Nat} {last : RecordId} {payload : Option ByteArray}
    (hshows : layout.Shows hops id last payload) (hhops : hops ≤ session.maxHops) {α : Type}
    {next : Resolution → SessionM σ α} {post : Except StoreError α → Session Image → Prop}
    (hlive : ∀ bytes capacity origin passed, payload = some bytes → last ∈ layout.ids →
      layout.slot last = { header := .live capacity bytes.size origin, payload := bytes } →
      Performs contract.toStorageView (next { id := last, header := .live capacity bytes.size origin, passed }) session
        post)
    (hdeleted : ∀ capacity length relocated passed, payload = none →
      Performs contract.toStorageView (next { id := last, header := .deleted capacity length relocated, passed })
        session post)
    (hio : contract.fallible → ∀ cause, post (.error (.io cause)) session) :
    Performs contract.toStorageView (do ensureOpen; let found ← resolveSlot id; next found) session post := by
  refine contract.performs_of_wellFormed fun hwf => ?_
  obtain ⟨passed, hleads, hlength, hpassed, hlast, hend⟩ := hshows.leads
  have hstate : (layout.header last).state ≠ .padding := by
    rcases hend with ⟨bytes, capacity, origin, -, hslot⟩ | ⟨capacity, length, relocated, -, hheader⟩
    · simp [Layout.header, hslot, SlotHeader.state]
    · simp [hheader, SlotHeader.state]
  refine Performs.step (Performs.ensureOpen h.opened ?_)
  refine Performs.step ?_
  unfold resolveSlot
  refine Performs.get_bind fun actual hactual => Performs.onSlots ?_
  have hmaxHops : actual.maxHops = session.maxHops := by
    rw [← hactual]
    rfl
  rw [h.region_seen hactual]
  have hresolve : contract.Answers _ _ _ :=
    Region.resolve_answers hwf h.tracks actual.maxHops hleads hpassed hlast hstate
  refine hresolve.mono ?_
  rw [if_pos (by omega)]
  rintro result _ ⟨rfl, rfl | ⟨hfallible, cause, rfl⟩⟩
  · dsimp only
    rcases hend with ⟨bytes, capacity, origin, hpayload, hslot⟩ | ⟨capacity, length, relocated, hpayload, hheader⟩
    · rw [show layout.header last = .live capacity bytes.size origin from congrArg Slot.header hslot]
      exact hlive bytes capacity origin passed hpayload hlast hslot
    · rw [hheader]
      exact hdeleted capacity length relocated passed hpayload
  · exact hio hfallible cause

/-- A read gives what the slots on the way show. -/
theorem read_performs {hops : Nat} {last : RecordId} {payload : Option ByteArray}
    (hshows : layout.Shows hops id last payload) (hhops : hops ≤ session.maxHops) :
    Performs contract.toStorageView (read id) session fun result session' =>
      session' = session ∧ (result = payload.elim (.error (.deleted id)) .ok ∨
        contract.fallible ∧ ∃ cause, result = .error (.io cause)) := by
  unfold read
  refine h.resolveSlot_bind_performs hshows hhops (fun bytes capacity origin passed hbytes hlast hslot => ?_)
    (fun capacity length relocated passed hnone => ?_) fun hfallible cause => ⟨rfl, .inr ⟨hfallible, cause, rfl⟩⟩
  · rw [hbytes]
    have hheader : layout.header last = .live capacity bytes.size origin := congrArg Slot.header hslot
    have hpayload := h.tracks.read_payload hlast
    rw [hheader, hslot] at hpayload
    have hend := h.tracks.tiles.end_le hlast
    have hbytes := h.tracks.bytes_end_le hlast
    have hbound := h.tracks.bound
    rw [hslot, Slot.size_bytes] at hbytes
    change last.offset + (SlotHeader.fullSize + bytes.size) ≤ _ at hbytes
    refine Performs.onSlots ?_
    have hread : contract.Answers _ session.storage _ :=
      contract.read_answers (show last.offset + SlotHeader.fullSize + bytes.size ≤ session.storage.size by omega)
    refine hread.mono ?_
    rintro result _ ⟨rfl, rfl | ⟨hfallible, cause, rfl⟩⟩
    · exact ⟨rfl, .inl (congrArg Except.ok hpayload)⟩
    · exact ⟨rfl, .inr ⟨hfallible, cause, rfl⟩⟩
  · rw [hnone]
    exact Performs.throw ⟨rfl, .inl rfl⟩

/-- What resolves is the slot at the end. -/
theorem resolve_performs {hops : Nat} {last : RecordId} {payload : Option ByteArray}
    (hshows : layout.Shows hops id last payload) (hhops : hops ≤ session.maxHops) :
    Performs contract.toStorageView (resolve id) session fun result session' =>
      session' = session ∧ (result = payload.elim (.error (.deleted id)) (fun _ => .ok last) ∨
        contract.fallible ∧ ∃ cause, result = .error (.io cause)) := by
  unfold resolve
  refine h.resolveSlot_bind_performs hshows hhops (fun bytes capacity origin passed hbytes _ _ => ?_)
    (fun capacity length relocated passed hnone => ?_) fun hfallible cause => ⟨rfl, .inr ⟨hfallible, cause, rfl⟩⟩
  · rw [hbytes]
    exact Performs.pure ⟨rfl, .inl rfl⟩
  · rw [hnone]
    exact Performs.throw ⟨rfl, .inl rfl⟩

/-- The session on a changed image, with other counters. -/
theorem on {img : Image} {start stop : Nat} (hchanged : session.storage.ChangedWithin img start stop)
    {layout' : Layout} {counters : Counters} (htracks : layout'.Tracks img counters.size) :
    Walks { session with storage := img, header := { session.header with counters } } layout' :=
  ⟨h.opened, h.pageSize.trans hchanged.pageSize.symm, hchanged.pageSize.symm ▸ h.supported, htracks⟩

/-- A new slot goes behind all others, for a capacity that was given out. -/
theorem append_runs {actual : Session σ}
    (hactual : actual.seen contract.toStorageView = session) {payload : ByteArray} {desired capacity : Nat}
    (hcapacity : actual.capacityFor payload.size desired = .ok capacity) {origin : Option RecordId}
    (horigin : ∀ first ∈ origin, first ∈ layout.ids) {post : Except StoreError (RecordId × Nat) → Image → Prop}
    (hok : ∀ id base after, layout.Padded session.counters.size base id.offset →
      (base.push id { header := .live capacity payload.size origin, payload }).Tracks after
        (id.offset + (SlotHeader.live capacity payload.size origin).slotSize) →
      session.storage.ChangedWithin after session.counters.size
        (id.offset + (SlotHeader.live capacity payload.size origin).slotSize) →
      post (.ok (id, id.offset + (SlotHeader.live capacity payload.size origin).slotSize)) after)
    (herror : ∀ e after, layout.Tracks after session.counters.size →
      session.storage.ChangedWithin after session.counters.size
        (endOfPage session.storage.pageSize session.counters.size) → post (.error e) after) :
    contract.Runs (actual.region.append (.live capacity payload.size origin) payload) session.storage post := by
  refine contract.runs_of_wellFormed fun hwf => ?_
  have hlarge := h.supported.large
  have hfits := h.supported.fits
  obtain ⟨hle, hfit⟩ := capacityFor_eq_ok hcapacity
  have hpageSize : actual.pageSize = session.storage.pageSize := by
    rw [← h.pageSize, ← hactual]
    rfl
  rw [hpageSize] at hfit
  unfold SlotHeader.fullSize minPageSize at *
  have hsize : (SlotHeader.live capacity payload.size origin).slotSize ≤ session.storage.pageSize := by
    apply alignUp_le _ h.supported.aligned
    change SlotHeader.fullSize + capacity ≤ session.storage.pageSize
    unfold SlotHeader.fullSize
    omega
  rw [h.region_seen hactual]
  cases hid : RecordId.ofOffset?
      (Region.placement { pageSize := session.storage.pageSize, stop := session.counters.size }
        (SlotHeader.live capacity payload.size origin).slotSize).offset with
  | none =>
    refine (Region.append_answers_full hid).mono ?_
    rintro result _ ⟨rfl, rfl | ⟨-, cause, rfl⟩⟩
    · exact herror _ _ h.tracks (.refl ..)
    · exact herror _ _ h.tracks (.refl ..)
  | some id =>
    -- the new slot lies behind all others, its origin among them
    have hbehind : session.counters.size ≤ id.offset := by
      rw [RecordId.offset_of_ofOffset? hid]
      unfold Region.placement
      dsimp only
      split
      · exact Nat.le_of_lt (lt_endOfPage h.supported.pos _)
      · exact Nat.le_refl _
    have hvalid : (Slot.mk (.live capacity payload.size origin) payload).Valid id.offset :=
      ⟨⟨by omega, hle, fun first hfirst => Nat.lt_of_lt_of_le (h.tracks.offset_lt (horigin first hfirst)) hbehind⟩, rfl⟩
    exact Region.append_runs hwf h.supported h.tracks hid hvalid hsize
      (fun base after hpadded _ hpush hchanged => hok id base after hpadded hpush hchanged)
      fun _ after cause htracks hchanged _ => herror _ after htracks hchanged

/-- A new record goes behind all slots. -/
theorem insert_performs (payload : ByteArray) : Performs contract.toStorageView (insert payload) session
    fun _ session' => ∃ layout', session'.Walks layout' ∧ layout.Extends layout' ∧
      session'.maxHops = session.maxHops := by
  unfold insert
  refine Performs.step (Performs.ensureOpen h.opened ?_)
  refine Performs.get_bind fun actual hactual => ?_
  refine Performs.step (Performs.ofExcept ?_)
  cases hcapacity : actual.capacityFor payload.size (actual.policy.initial payload.size) with
  | error e => exact ⟨layout, h, .refl layout, rfl⟩
  | ok capacity =>
    refine Performs.step (Performs.onSlots (h.append_runs hactual hcapacity (by simp)
      (fun id base after hpadded hpush hchanged => ?_) fun _ after htracks hchanged => ?_))
    · refine Performs.step (Performs.setCounters (Performs.pure ?_))
      exact ⟨_, h.on hchanged hpush, hpadded.extends_push h.tracks, rfl⟩
    · exact ⟨layout, h.on hchanged htracks, .refl layout, rfl⟩

/-- A step of a scan comes to the slot that starts there, if the scan covers that slot. -/
theorem scanSlot_performs {cursor : Cursor} (hid : id ∈ layout.ids) (hoffset : cursor.offset = id.offset)
    (hend : cursor.offset + layout.size id ≤ cursor.stop) :
    Performs contract.toStorageView (scanSlot cursor) session fun result session' =>
      session' = session ∧ (result = .ok (layout.scanned id) ∨
        contract.fallible ∧ ∃ cause, result = .error (.io cause)) := by
  refine contract.performs_of_wellFormed fun hwf => ?_
  have hpage : ∀ {actual : Session σ}, actual.seen contract.toStorageView = session →
      actual.pageSize = session.storage.pageSize := fun hactual => by
    rw [← h.pageSize, ← hactual]
    rfl
  unfold scanSlot
  refine Performs.step (Performs.ensureOpen h.opened ?_)
  refine Performs.get_bind fun actual hactual => Performs.step (Performs.onSlots ?_)
  have hslot : contract.Answers (Region.slotAt { pageSize := actual.pageSize, stop := cursor.stop } cursor.offset)
      session.storage (.ok (layout.header id)) := by
    rw [hoffset] at hend ⊢
    rw [hpage hactual]
    exact Region.slotAt_answers hwf h.tracks hid rfl hend
  refine hslot.mono ?_
  rintro result _ ⟨rfl, rfl | ⟨hfallible, cause, rfl⟩⟩
  · dsimp only
    rw [hoffset, RecordId.ofOffset?_offset]
    unfold Layout.scanned
    cases hheader : layout.header id with
    | live capacity length origin =>
      -- the payload lies inside the slot, so it can be read in whole
      have hpayload := h.tracks.read_payload hid
      rw [hheader] at hpayload
      have hlength := (h.tracks.valid id hid).size_payload
      have hend := h.tracks.tiles.end_le hid
      have hbytes := h.tracks.bytes_end_le hid
      have hbound := h.tracks.bound
      change _ = (layout.header id).payloadLength at hlength
      rw [hheader] at hlength
      rw [Slot.size_bytes, hlength] at hbytes
      change id.offset + ((layout.header id).headerSize + length) ≤ _ at hbytes
      rw [hheader] at hbytes
      change id.offset + (SlotHeader.fullSize + length) ≤ _ at hbytes
      refine Performs.step (Performs.onSlots ?_)
      have hread : contract.Answers _ session.storage _ :=
        contract.read_answers (show id.offset + SlotHeader.fullSize + length ≤ session.storage.size by omega)
      refine hread.mono ?_
      rintro result _ ⟨rfl, rfl | ⟨hfallible, cause, rfl⟩⟩
      · refine Performs.pure ⟨rfl, .inl ?_⟩
        rw [← hpayload]
        rfl
      · exact ⟨rfl, .inr ⟨hfallible, cause, rfl⟩⟩
    | moved capacity target => exact Performs.pure ⟨rfl, .inl rfl⟩
    | deleted capacity length relocated => exact Performs.pure ⟨rfl, .inl rfl⟩
    | padding capacity => exact Performs.pure ⟨rfl, .inl rfl⟩
  · exact ⟨rfl, .inr ⟨hfallible, cause, rfl⟩⟩

end Walks

/-- One step of a scan. -/
theorem forEachFrom_of_lt {τ : Type} (visitor : ScannedSlot → τ → StateM (Session σ) (Bool × τ)) {cursor : Cursor}
    (hlt : cursor.offset < cursor.stop) (seen : τ) (actual : Session σ) :
    forEachFrom cursor visitor seen actual =
      match scanSlot cursor actual with
      | (.error e, after) => ((some e, seen), after)
      | (.ok slot, after) =>
        match visitor slot seen after with
        | ((true, seen), after) =>
          forEachFrom { cursor with offset := cursor.offset + slot.header.slotSize } visitor seen after
        | ((false, seen), after) => ((none, seen), after) := by
  rw [forEachFrom, if_pos hlt]
  change StateT.bind (m := Id) _ _ actual = _
  unfold StateT.bind
  have hrun : (ExceptT.run (scanSlot cursor) : StateM (Session σ) _) actual = scanSlot cursor actual := rfl
  rw [hrun]
  rcases scanSlot cursor actual with ⟨e | slot, after⟩
  · rfl
  · change StateT.bind (m := Id) _ _ after = _
    unfold StateT.bind
    dsimp only
    rcases visitor slot seen after with ⟨⟨_ | _, seen⟩, after⟩ <;> rfl

namespace Walks

variable {actual : Session σ}

/-- A scan lists the slots from the cursor on, unless a call fails. -/
private theorem forEachFrom_collects (husable : contract.Usable actual.storage)
    (h : (actual.seen contract.toStorageView).Walks layout) {ids : List RecordId} (hids : ∀ id ∈ ids, id ∈ layout.ids)
    {pageSize : Nat} {cursor : Cursor} (hstop : cursor.stop = actual.counters.size)
    (htiles : layout.Tiles pageSize cursor.offset ids cursor.stop) (seen : List ScannedSlot) :
    let found := (forEachFrom cursor (fun slot seen => return (true, slot :: seen)) seen actual).1
    found = (none, (ids.map layout.scanned).reverse ++ seen) ∨
      contract.fallible ∧ ∃ cause, found.1 = some (.io cause) := by
  induction ids generalizing cursor actual seen with
  | nil =>
    have hend : cursor.offset = cursor.stop := htiles
    rw [forEachFrom, if_neg (by omega)]
    exact .inl rfl
  | cons id ids ih =>
    have hlt : cursor.offset < cursor.stop := htiles.lt
    obtain ⟨hoffset, -, htiles⟩ := htiles
    have hperforms : Performs contract.toStorageView (scanSlot cursor) _ _ :=
      h.scanSlot_performs (hids id List.mem_cons_self) hoffset.symm htiles.le
    obtain ⟨husable', hsame, hresult⟩ := hperforms actual husable rfl
    rw [forEachFrom_of_lt _ hlt]
    rcases hscan : scanSlot cursor actual with ⟨result, after⟩
    rw [hscan] at husable' hsame hresult
    rcases hresult with hresult | ⟨hfallible, cause, hresult⟩
    · obtain rfl : result = .ok (layout.scanned id) := hresult
      have hcounters : after.counters = actual.counters := congrArg (fun s => s.header.counters) hsame
      rw [← hsame] at h
      let next : Cursor := { cursor with offset := cursor.offset + layout.size id }
      have hnext : next.stop = after.counters.size := hstop.trans (congrArg Counters.size hcounters.symm)
      have hrest := ih husable' h (fun other hother => hids other (List.mem_cons_of_mem _ hother)) hnext htiles
        (layout.scanned id :: seen)
      rw [List.map_cons, List.reverse_cons, List.append_assoc]
      exact hrest
    · obtain rfl : result = .error (.io cause) := hresult
      exact .inr ⟨hfallible, cause, rfl⟩

/-- A scan leaves the session as it is if its visitor does. -/
theorem forEachFrom_stays {τ : Type} {visitor : ScannedSlot → τ → StateM (Session σ) (Bool × τ)}
    (hvisitor : ∀ slot seen actual, (visitor slot seen actual).2 = actual) (husable : contract.Usable actual.storage)
    (h : (actual.seen contract.toStorageView).Walks layout) {ids : List RecordId} (hids : ∀ id ∈ ids, id ∈ layout.ids)
    {pageSize : Nat} {cursor : Cursor} (hstop : cursor.stop = actual.counters.size)
    (htiles : layout.Tiles pageSize cursor.offset ids cursor.stop) (seen : τ) :
    contract.Usable (forEachFrom cursor visitor seen actual).2.storage ∧
      (forEachFrom cursor visitor seen actual).2.seen contract.toStorageView =
        actual.seen contract.toStorageView := by
  -- along the slots that are left to scan
  induction ids generalizing cursor actual seen with
  | nil =>
    have hend : cursor.offset = cursor.stop := htiles
    rw [forEachFrom, if_neg (by omega)]
    exact ⟨husable, rfl⟩
  | cons id ids ih =>
    have hlt : cursor.offset < cursor.stop := htiles.lt
    obtain ⟨hoffset, -, htiles⟩ := htiles
    have hperforms : Performs contract.toStorageView (scanSlot cursor) _ _ :=
      h.scanSlot_performs (hids id List.mem_cons_self) hoffset.symm htiles.le
    obtain ⟨husable', hsame, hresult⟩ := hperforms actual husable rfl
    rw [forEachFrom_of_lt _ hlt]
    rcases hscan : scanSlot cursor actual with ⟨e | slot, after⟩
    · rw [hscan] at husable' hsame
      exact ⟨husable', hsame⟩
    · rw [hscan] at husable' hsame hresult
      obtain rfl : slot = layout.scanned id := by
        rcases hresult with hresult | ⟨-, cause, hresult⟩ <;> cases hresult
        rfl
      dsimp only
      have hstays := hvisitor (layout.scanned id) seen after
      generalize visitor (layout.scanned id) seen after = visited at hstays ⊢
      obtain ⟨⟨_ | _, seen'⟩, after'⟩ := visited
      · obtain rfl : after' = after := hstays
        exact ⟨husable', hsame⟩
      · obtain rfl : after' = after := hstays
        have hcounters : after'.counters = actual.counters := congrArg (fun s => s.header.counters) hsame
        let next : Cursor := { cursor with offset := cursor.offset + layout.size id }
        have hnext : next.stop = after'.counters.size := hstop.trans (congrArg Counters.size hcounters.symm)
        rw [← hsame] at h ⊢
        exact ih husable' h (fun other hother => hids other (List.mem_cons_of_mem _ hother)) hnext htiles seen'

/-- A scan lists all slots, in file order, unless a call fails. -/
theorem records_answers (husable : contract.Usable actual.storage)
    (h : (actual.seen contract.toStorageView).Walks layout) :
    (records actual).1 = (none, layout.ids.map layout.scanned) ∨
      contract.fallible ∧ ∃ cause, (records actual).1.1 = some (.io cause) := by
  have htiles : layout.Tiles _ actual.cursor.offset layout.ids actual.cursor.stop := h.tracks.tiles
  have hcollects := forEachFrom_collects husable h (fun id hid => hid) rfl htiles []
  have hrecords : (records actual).1 =
      (let found := (forEachFrom actual.cursor (fun slot seen => return (true, slot :: seen)) [] actual).1
      (found.1, found.2.reverse)) := rfl
  rw [hrecords]
  rcases hcollects with hfound | ⟨hfallible, cause, hfound⟩
  · exact .inl (by simp [hfound])
  · exact .inr ⟨hfallible, cause, hfound⟩

theorem records_eq (hreliable : ¬contract.fallible) (husable : contract.Usable actual.storage)
    (h : (actual.seen contract.toStorageView).Walks layout) :
    (records actual).1 = (none, layout.ids.map layout.scanned) :=
  (h.records_answers husable).resolve_right fun hfailed => hreliable hfailed.1

end Walks

/-- Starting on a file that was cut off: a recount of what is found, and the header that says so. -/
theorem start_performs_counted {counters : Counters} (hclosed : session.wasClosedProperly = false)
    (hsize : FileHeader.size ≤ session.storage.size)
    (hrecount : contract.Answers session.region.recount session.storage (.ok counters))
    {post : Except StoreError Unit → Session Image → Prop}
    (hok : ∀ header, header = { session.header with status := .opened, counters } →
      post (.ok ()) { session with storage := session.storage.write 0 (ofList header.encode), header })
    (hio : contract.fallible → ∀ session' cause, post (.error (.io cause)) session') :
    Performs contract.toStorageView (start true) session post := by
  unfold start
  refine Performs.get_bind fun actual hactual => ?_
  have hactual' : actual.wasClosedProperly = false := by
    rw [← hclosed, ← hactual]
    rfl
  rw [hactual']
  refine Performs.step ?_
  unfold recount
  refine Performs.get_bind fun actual hactual => ?_
  have hregion : actual.region = session.region := by
    rw [← hactual]
    rfl
  rw [hregion]
  refine Performs.step (Performs.onSlots (hrecount.mono ?_))
  rintro result _ ⟨rfl, rfl | ⟨hfallible, cause, rfl⟩⟩
  · refine Performs.setCounters (Performs.step (markOpened_performs ?_))
    let counted : Session Image := { session with header := { session.header with status := .opened, counters } }
    exact persist_writes counted hsize (hok _ rfl) hio
  · exact hio hfallible _ cause

/-- A patched file opens with a recount, and the session walks what is found. -/
theorem openOn_patched {storage : σ} (husable : contract.Usable storage) {header : FileHeader}
    {known : RecordId → Prop} {layouts : Nat → Layout}
    (h : Patchwork (contract.image storage) header known layouts) (hvalid : header.Valid)
    (hpageSize : header.pageSize = (contract.image storage).pageSize) (hstatus : header.status = .opened)
    (policy : CapacityPolicy) {options : Options} (hrecover : options.recover = true) :
    ∃ layout stop, Patchwork.Found (contract.image storage) header known layouts layout stop ∧
      Opens contract storage policy options
        (fun session => session.Walks layout ∧ session.maxHops = options.maxHops ∧
          session.counters = { layout.totals layout.ids with size := stop })
        (fun e _ => contract.fallible ∧ ∃ cause, e = .io cause) := by
  obtain ⟨layout, stop, hfound, hrecount⟩ := h.recount_answers contract
  refine ⟨layout, stop, hfound, opens_of husable ?_⟩
  obtain ⟨img, last, hversion, hsize, hbytes⟩ := h.version 0
  obtain ⟨hlow, -, hmod⟩ := hversion.boundary.bounds hversion.tracks
  have hholds : (contract.image storage).Holds 0 (ofList header.encode) := by
    refine hversion.holds.congr fun i _ hi => hbytes i (Nat.div_eq_of_lt ?_)
    have hfits := h.supported.header_le
    simp only [size_ofList, FileHeader.length_encode] at hi
    omega
  have hload := loadHeader_answers_of_holds contract hholds hvalid hpageSize h.supported hlow h.bound hmod
  refine hload.mono ?_
  rintro result _ ⟨rfl, rfl | ⟨hfallible, cause, rfl⟩⟩
  · dsimp only
    rw [hrecover]
    have hclosed : decide (header.status = .closed) = false := by rw [hstatus]; rfl
    have hsize := Nat.le_trans hfound.tracks.size_le_stop hfound.tracks.bound
    refine start_performs_counted hclosed hsize hrecount (fun header' hheader' => ?_) fun hfallible _ cause =>
      ⟨hfallible, cause, rfl⟩
    have hcounters : header'.counters = { layout.totals layout.ids with size := stop } := by rw [hheader']
    refine ⟨⟨rfl, rfl, h.supported, ?_⟩, rfl, hcounters⟩
    change layout.Tracks _ header'.counters.size
    rw [hcounters]
    exact hfound.tracks.of_header (.write _ (Nat.le_refl _) (by simp))
  · exact ⟨hfallible, cause, rfl⟩

end Session

end RecordStore
