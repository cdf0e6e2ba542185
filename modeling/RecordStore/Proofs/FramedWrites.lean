import RecordStore.Proofs.Finding
import RecordStore.Proofs.Recorder
import RecordStore.Proofs.SlotPlaces

/-!
# Framed writes

Where an operation writes.  A new slot goes behind all others.  Besides that, only slots of the record are written that
an operation is about: the slot it was found in, and the headers of its redirects, which keep their capacity
(`Layout.Rewrites`).  So no request touches the file header, padding or the slots of other records
(`writes_are_framed`).
-/

namespace RecordStore

open Bytes StorageView

theorem SlotHeader.headerSize_eq {header : SlotHeader} (h : header.state ≠ .padding) : header.headerSize = fullSize := by
  cases header with
  | padding => exact absurd rfl h
  | _ => rfl

namespace Layout

/-- What may be written on behalf of `id` when the slots end at `stop`: new slots behind them, the slot that `id` leads
to, and other headers for the redirects on the way and for the origin that the record names. -/
inductive Rewrites (layout : Layout) (id : RecordId) (stop : Nat) : IssuedWrite → Prop
  | behind {offset : Nat} {data : ByteArray} (h : stop ≤ offset) : Rewrites layout id stop { offset, data }
  | terminal {passed : List Redirect} {last : RecordId} {header : SlotHeader} {payload : ByteArray}
      (hleads : layout.Leads id passed last) (hlast : last ∈ layout.ids) (hlive : (layout.header last).state = .live)
      (hcapacity : header.capacity = (layout.header last).capacity) (hstate : header.state ≠ .padding)
      (hfits : payload.size ≤ header.capacity) :
      Rewrites layout id stop { offset := last.offset, data := ofList header.encode ++ payload }
  | redirect {passed : List Redirect} {last : RecordId} {redirect : Redirect} {header : SlotHeader}
      (hleads : layout.Leads id passed last) (hlast : last ∈ layout.ids)
      (hmem : redirect ∈ passed ∨ ∃ capacity length, layout.header last = .live capacity length (some redirect.id))
      (hredirect : Session.HasRedirect layout redirect) (hcapacity : header.capacity = redirect.capacity)
      (hstate : header.state ≠ .padding) :
      Rewrites layout id stop { offset := redirect.id.offset, data := ofList header.encode }

/-- Every origin that a record names is the start of a slot. -/
def KnowsOrigins (layout : Layout) : Prop :=
  ∀ id ∈ layout.ids, ∀ capacity length origin, layout.header id = .live capacity length (some origin) →
    origin ∈ layout.ids

/-- The redirects lead from both slots to the same one. -/
def SameRecord (layout : Layout) (id other : RecordId) : Prop :=
  ∃ passed passed' last, layout.Leads id passed last ∧ layout.Leads other passed' last

/-- A write on behalf of the record `id` when the slots end at `stop`. -/
structure FramesFor (layout : Layout) (id : RecordId) (stop : Nat) (write : IssuedWrite) : Prop where
  rewrites : layout.Rewrites id stop write
  /-- It goes behind all slots, or stays inside one of the record. -/
  inside : stop ≤ write.offset ∨ ∃ slot ∈ layout.ids, layout.SameRecord id slot ∧ slot.offset = write.offset ∧
    write.offset + write.data.size ≤ slot.offset + layout.size slot
  /-- Of a redirect it only replaces the header, and keeps the capacity. -/
  redirect : ∀ slot ∈ layout.ids, slot.offset = write.offset → ∀ capacity target,
    layout.header slot = .moved capacity target → write.data.size = SlotHeader.fullSize ∧
      ∃ header : SlotHeader, header.capacity = capacity ∧ write.data = ofList header.encode
  header : FileHeader.size ≤ write.offset
  /-- It is apart from padding and from all slots of other records. -/
  others : ∀ other ∈ layout.ids, (layout.header other).state = .padding ∨ ¬layout.SameRecord id other →
    write.offset + write.data.size ≤ other.offset ∨ other.offset + layout.size other ≤ write.offset

/-- What a request other than a flush may write when the slots end at `stop`. -/
def Frames (layout : Layout) (stop : Nat) : Request → IssuedWrite → Prop
  | .insert _, write => stop ≤ write.offset
  | .update id _, write => layout.FramesFor id stop write
  | .delete id, write => layout.FramesFor id stop write
  | _, _ => False

/-- The origin that a record names is one of its slots. -/
theorem Represents.leads_of_origin {layout : Layout} {records : List StoredRecord} (h : layout.Represents records)
    {id : RecordId} (hid : id ∈ layout.ids) {capacity length : Nat} {origin : RecordId}
    (hlive : layout.header id = .live capacity length (some origin)) :
    origin ∈ layout.ids ∧ ∃ passed, layout.Leads origin passed id := by
  obtain ⟨record, hrecord, hmem⟩ := List.mem_flatMap.1 ((h.mem id).2 ⟨hid, by simp [hlive, SlotHeader.state]⟩)
  obtain ⟨rfl, halive, horigin⟩ := (h.stores record hrecord).eq_latest_of_live hmem hlive
  have hformer : origin ∈ record.ids := List.mem_cons_of_mem _ (List.mem_of_getLast? horigin.symm)
  obtain ⟨passed, last, hleads, -, -, -, hlatest, -⟩ := (h.stores record hrecord).leads hformer
  rw [hlatest halive] at hleads
  exact ⟨h.mem_ids hrecord hformer, passed, hleads⟩

theorem Represents.knowsOrigins {layout : Layout} {records : List StoredRecord} (h : layout.Represents records) :
    layout.KnowsOrigins := fun _ hid _ _ _ hlive => (h.leads_of_origin hid hlive).1

variable {layout : Layout} {id : RecordId} {img : Image} {stop : Nat}

/-- A write to one slot of the record. -/
private theorem frames_slot {data : ByteArray} (htracks : layout.Tracks img stop) {slot : RecordId}
    (hslot : slot ∈ layout.ids) (hrewrites : layout.Rewrites id stop { offset := slot.offset, data })
    (hsame : layout.SameRecord id slot) (hstate : (layout.header slot).state ≠ .padding)
    (hfits : data.size ≤ layout.size slot)
    (hredirect : ∀ capacity target, layout.header slot = .moved capacity target →
      data.size = SlotHeader.fullSize ∧ ∃ header : SlotHeader, header.capacity = capacity ∧ data = ofList header.encode) :
    layout.FramesFor id stop { offset := slot.offset, data } where
  rewrites := hrewrites
  inside := .inr ⟨slot, hslot, hsame, rfl, Nat.add_le_add_left hfits _⟩
  redirect other _ hoffset := by
    rw [RecordId.offset_inj hoffset]
    exact hredirect
  header := htracks.size_le_offset hslot
  others other hother hapart := by
    dsimp only
    have hne : slot ≠ other := by
      rintro rfl
      rcases hapart with hpadding | hother
      · exact hstate hpadding
      · exact hother hsame
    rcases htracks.tiles.disjoint hslot hother hne with hbefore | hbehind
    · exact .inl (Nat.le_trans (Nat.add_le_add_left hfits _) hbefore)
    · exact .inr hbehind

theorem Rewrites.frames {write : IssuedWrite} (h : layout.Rewrites id stop write) (htracks : layout.Tracks img stop)
    {records : List StoredRecord} (hrep : layout.Represents records) : layout.FramesFor id stop write := by
  have hrewrites := h
  cases h with
  | @behind offset data hbehind =>
    have hlow := htracks.size_le_stop
    refine ⟨hrewrites, .inl hbehind, fun slot hslot hoffset => ?_, Nat.le_trans hlow hbehind, fun other hother _ => ?_⟩
    · have hlt := htracks.offset_lt hslot
      have heq : slot.offset = offset := hoffset
      omega
    · exact .inr (Nat.le_trans (htracks.tiles.end_le hother) hbehind)
  | @terminal passed last header payload hleads hlast hlive hcapacity hstate hfits =>
    have hend := hleads.redirect?_last
    refine frames_slot htracks hlast hrewrites ⟨passed, [], last, hleads, .here hend⟩ (by simp [hlive]) ?_
      fun capacity target hmoved => ?_
    · rw [ByteArray.size_append, size_ofList, SlotHeader.length_encode_header, SlotHeader.headerSize_eq hstate]
      rw [hcapacity] at hfits
      have hroom := (layout.header last).size_le_slotSize
      rw [SlotHeader.headerSize_eq (by simp [hlive])] at hroom
      exact Nat.le_trans (Nat.add_le_add_left hfits _) hroom
    · rw [hmoved] at hlive
      cases hlive
  | @redirect passed last redirect header hleads hlast hmem hredirect hcapacity hstate =>
    obtain ⟨hslot, target, hmoved⟩ := hredirect
    -- the redirect is on the way to the slot, or the slot names it as its origin
    have hsame : layout.SameRecord id redirect.id := by
      rcases hmem with hpassed | ⟨capacity, length, hlive⟩
      · obtain ⟨passed', hleads', -⟩ := hleads.from_passed hpassed
        exact ⟨passed, passed', last, hleads, hleads'⟩
      · obtain ⟨-, passed', hleads'⟩ := hrep.leads_of_origin hlast hlive
        exact ⟨passed, passed', last, hleads, hleads'⟩
    refine frames_slot htracks hslot hrewrites hsame (by simp [hmoved, SlotHeader.state]) ?_
      fun capacity target hmoved' => ⟨?_, header, ?_, rfl⟩
    · have hroom := layout.headerSize_le_size redirect.id
      rw [hmoved] at hroom
      rw [size_ofList, SlotHeader.length_encode_header, SlotHeader.headerSize_eq hstate]
      exact hroom
    · rw [size_ofList, SlotHeader.length_encode_header, SlotHeader.headerSize_eq hstate]
    · rw [hmoved] at hmoved'
      cases hmoved'
      exact hcapacity

namespace Finds

variable {layout : Layout} {id : RecordId} {found : Resolution} {stop capacity length : Nat}
  {origin : Option RecordId} {header : SlotHeader}

theorem origin_mem (h : layout.Finds id found) (horigins : layout.KnowsOrigins)
    (hlive : found.header = .live capacity length origin) : ∀ first ∈ origin, first ∈ layout.ids := by
  rintro first ⟨⟩
  exact horigins found.id h.mem capacity length first (h.header_eq hlive)

/-- The slot that was found may be written. -/
theorem rewrites_terminal (h : layout.Finds id found) (hlive : found.header = .live capacity length origin)
    (hcapacity : header.capacity = capacity) (hstate : header.state ≠ .padding) {payload : ByteArray}
    (hfits : payload.size ≤ capacity) :
    layout.Rewrites id stop { offset := found.id.offset, data := ofList header.encode ++ payload } := by
  have hheader := h.header_eq hlive
  refine .terminal h.leads h.mem ?_ ?_ hstate (hcapacity ▸ hfits)
  · rw [hheader]
    rfl
  · rw [hheader, hcapacity]
    rfl

theorem rewrites_header (h : layout.Finds id found) (hlive : found.header = .live capacity length origin)
    (hcapacity : header.capacity = capacity) (hstate : header.state ≠ .padding) :
    layout.Rewrites id stop { offset := found.id.offset, data := ofList header.encode } := by
  have hwrite : layout.Rewrites id stop { offset := found.id.offset, data := ofList header.encode ++ .empty } :=
    h.rewrites_terminal hlive hcapacity hstate (Nat.zero_le _)
  rwa [ByteArray.append_empty] at hwrite

/-- So may the redirects on the way, and the origin if it is one. -/
theorem rewrites_redirect (h : layout.Finds id found) (hlive : found.header = .live capacity length origin)
    {redirect : Redirect} (hmem : redirect ∈ found.passed ∨ redirect.id ∈ origin ∧ Session.HasRedirect layout redirect)
    (hcapacity : header.capacity = redirect.capacity) (hstate : header.state ≠ .padding) :
    layout.Rewrites id stop { offset := redirect.id.offset, data := ofList header.encode } := by
  rcases hmem with hpassed | ⟨horigin, hredirect⟩
  · exact .redirect h.leads h.mem (.inl hpassed) (h.hasRedirect redirect hpassed) hcapacity hstate
  · have hheader := h.header_eq hlive
    rw [Option.mem_def.1 horigin] at hheader
    exact .redirect h.leads h.mem (.inr ⟨capacity, length, hheader⟩) hredirect hcapacity hstate

end Finds

end Layout

namespace Session

variable {σ α β : Type}

/-- Work on slots that issues no writes but those that are allowed when the image is `img`. -/
def IssuesOn (view : StorageView (Recorder σ)) (act : SlotM (Recorder σ) α) (img : Image)
    (allowed : IssuedWrite → Prop) : Prop :=
  Issues Recorder.issued act (fun storage => view.Usable storage ∧ view.image storage = img) allowed

/-- An operation that issues no writes but those that are allowed in a session that looks like `before`. -/
def IssuesIn (view : StorageView (Recorder σ)) (act : SessionM (Recorder σ) α) (before : Session Image)
    (allowed : IssuedWrite → Prop) : Prop :=
  Issues (fun session => session.storage.issued) act
    (fun session => view.Usable session.storage ∧ session.seen view = before) allowed

variable {view : StorageView (Recorder σ)} {img : Image} {before : Session Image} {allowed : IssuedWrite → Prop}

theorem IssuesOn.of_confined {act : SlotM (Recorder σ) α} (h : SlotM.Confined act allowed) :
    IssuesOn view act img allowed := h.restrict fun _ _ => trivial

theorem IssuesOn.bind {act : SlotM (Recorder σ) α} {next : α → SlotM (Recorder σ) β}
    {mid : Except StoreError α → Image → Prop} (h : IssuesOn view act img allowed) (hruns : view.Runs act img mid)
    (hnext : ∀ a after, mid (.ok a) after → IssuesOn view (next a) after allowed) :
    IssuesOn view (act >>= next) img allowed := by
  refine Issues.bind h fun a => ?_
  rintro after ⟨storage, ⟨husable, himage⟩, hact⟩
  have hafter := hruns storage husable himage
  rw [hact] at hafter
  exact hnext a _ hafter.2 after ⟨hafter.1, rfl⟩

namespace IssuesIn

theorem bind {act : SessionM (Recorder σ) α} {next : α → SessionM (Recorder σ) β}
    {post : Except StoreError α → Session Image → Prop} (h : IssuesIn view act before allowed)
    (hperforms : Performs view act before post)
    (hnext : ∀ a after, post (.ok a) after → IssuesIn view (next a) after allowed) :
    IssuesIn view (act >>= next) before allowed := by
  refine Issues.bind h fun a => ?_
  rintro after ⟨session, ⟨husable, hseen⟩, hact⟩
  have hafter := hperforms session husable hseen
  rw [hact] at hafter
  exact hnext a _ hafter.2 after ⟨hafter.1, rfl⟩

theorem onSlots {act : SlotM (Recorder σ) α} (h : IssuesOn view act before.storage allowed) :
    IssuesIn view (Session.onSlots act) before allowed := by
  rintro session ⟨husable, rfl⟩
  exact h session.storage ⟨husable, rfl⟩

/-- Work on slots first, and then what the image calls for. -/
theorem onSlots_bind {act : SlotM (Recorder σ) α} {next : α → SessionM (Recorder σ) β}
    (h : SlotM.Confined act allowed) (hruns : view.Runs act before.storage fun result img =>
      ∀ a, result = .ok a → IssuesIn view (next a) { before with storage := img } allowed) :
    IssuesIn view (Session.onSlots act >>= next) before allowed := by
  have hperforms : Performs view (Session.onSlots act) before fun result after =>
      ∀ a, result = .ok a → IssuesIn view (next a) after allowed := Performs.onSlots hruns
  exact IssuesIn.bind (IssuesIn.onSlots (.of_confined h)) hperforms fun a _ hnext => hnext a rfl

theorem get_bind {next : Session (Recorder σ) → SessionM (Recorder σ) β}
    (h : ∀ session, session.seen view = before → IssuesIn view (next session) before allowed) :
    IssuesIn view (get >>= next) before allowed := by
  rintro session ⟨husable, rfl⟩
  exact h session rfl session ⟨husable, rfl⟩

theorem ensureOpen_bind {next : SessionM (Recorder σ) β} (hopened : before.closed = false)
    (h : IssuesIn view next before allowed) : IssuesIn view (do ensureOpen; next) before allowed := by
  rintro session ⟨husable, rfl⟩
  have hsession : session.closed = false := hopened
  rw [Session.ensureOpen_bind hsession]
  exact h session ⟨husable, rfl⟩

/-- The counters are no bytes of the storage. -/
theorem setCounters_bind {counters : Counters} {next : SessionM (Recorder σ) β}
    (h : IssuesIn view next { before with header := { before.header with counters } } allowed) :
    IssuesIn view (do setCounters counters; next) before allowed := by
  rintro session ⟨husable, rfl⟩
  exact h { session with header := { session.header with counters } } ⟨husable, rfl⟩

end IssuesIn

/-! ### Operations -/

variable [PagedStorage σ] {contract : StorageContract σ} {layout : Layout} {session : Session Image}

open SlotM

theorem overwriteRedirects_confined {header : Redirect → SlotHeader} {redirects : List Redirect}
    (h : ∀ redirect ∈ redirects, allowed { offset := redirect.id.offset, data := ofList (header redirect).encode }) :
    Confined (overwriteRedirects header redirects : SlotM (Recorder σ) Unit) allowed := by
  induction redirects with
  | nil => exact .pure ()
  | cons redirect rest ih =>
    unfold overwriteRedirects
    have hhead : Confined (Region.writeHeader redirect.id.offset (header redirect) : SlotM (Recorder σ) Unit) allowed :=
      confined_write (h redirect List.mem_cons_self)
    exact Issues.andThen (Issues.attempt hhead) fun _ => ih fun other hother => h other (List.mem_cons_of_mem _ hother)

theorem redirectsToBury_confined (region : Region) (origin : Option RecordId) (passed : List Redirect) :
    Confined (redirectsToBury region origin passed : SlotM (Recorder σ) (List Redirect)) allowed := by
  unfold redirectsToBury
  cases origin.filter fun origin => !passed.any (·.id = origin) with
  | none => exact .pure _
  | some origin =>
    refine Issues.andThen (Issues.attempt (region.redirectCapacity_confined origin)) fun found => ?_
    cases found with
    | error e => exact .pure _
    | ok capacity => exact .pure _

variable {contract : StorageContract (Recorder σ)}

theorem IssuesOn.of_wellFormed {act : SlotM (Recorder σ) α}
    (h : img.WellFormed → IssuesOn contract.toStorageView act img allowed) :
    IssuesOn contract.toStorageView act img allowed := by
  rintro storage ⟨husable, rfl⟩
  exact h (contract.wellFormed husable) storage ⟨husable, rfl⟩

/-- Shortening a chain writes the header of the origin, if that is a redirect, and those of the other redirects. -/
theorem shortenChain_issues {stop : Nat} (h : layout.Tracks img stop) {origin target : RecordId}
    (horigin : origin ∈ layout.ids) {previous : Redirect} {passed : List Redirect}
    (hpassed : ∀ redirect ∈ passed, HasRedirect layout redirect)
    (hfirst : ∀ capacity, HasRedirect layout { id := origin, capacity } →
      allowed { offset := origin.offset, data := ofList (SlotHeader.moved capacity target).encode })
    (hothers : ∀ redirect, redirect ∈ passed ∧ redirect.id ≠ origin ∨ redirect = previous →
      allowed { offset := redirect.id.offset, data := ofList (SlotHeader.moved redirect.capacity origin).encode }) :
    IssuesOn contract.toStorageView (shortenChain { pageSize := img.pageSize, stop } origin previous target passed) img
      allowed := by
  refine IssuesOn.of_wellFormed fun hwf => ?_
  unfold shortenChain
  refine Issues.andThen (Issues.attempt ?_) fun shortened => ?_
  · cases hfind : passed.find? (·.id = origin) with
    | none =>
      refine IssuesOn.bind (.of_confined (Region.redirectCapacity_confined _ _))
        (Region.redirectCapacity_runs hwf h horigin) ?_
      rintro capacity _ ⟨rfl, hredirect⟩
      exact .of_confined (confined_write (hfirst capacity (hredirect capacity rfl)))
    | some redirect =>
      have hid : redirect.id = origin := by simpa using List.find?_some hfind
      have hredirect := hpassed redirect (List.mem_of_find?_eq_some hfind)
      rw [← hid] at hfirst ⊢
      exact IssuesOn.of_confined (confined_write (hfirst redirect.capacity hredirect))
  · cases shortened with
    | error e => exact .pure _
    | ok =>
      refine overwriteRedirects_confined fun redirect hredirect => hothers redirect ?_
      rcases List.mem_append.1 hredirect with hredirect | hredirect
      · obtain ⟨hmem, hne⟩ := List.mem_filter.1 hredirect
        exact .inl ⟨hmem, by simpa using hne⟩
      · exact .inr (List.mem_singleton.1 hredirect)

theorem resolveSlot_issues (id : RecordId) :
    IssuesIn contract.toStorageView (resolveSlot id) session allowed := by
  unfold resolveSlot
  exact .get_bind fun actual _ => .onSlots (.of_confined (Region.resolve_confined _ _ _))

theorem resolve_issues (hopened : session.closed = false) (id : RecordId) :
    IssuesIn contract.toStorageView (resolve id) session allowed := by
  unfold resolve
  refine .ensureOpen_bind hopened (Issues.bind (resolveSlot_issues id) fun found => ?_)
  cases found.header with
  | live capacity length origin => exact .pure _
  | moved capacity target => exact .throw _
  | deleted capacity length relocated => exact .throw _
  | padding capacity => exact .throw _

theorem read_issues (hopened : session.closed = false) (id : RecordId) :
    IssuesIn contract.toStorageView (read id) session allowed := by
  unfold read
  refine .ensureOpen_bind hopened (Issues.andThen (resolveSlot_issues id) fun found => ?_)
  cases found.header with
  | live capacity length origin =>
    exact .of_unchanged fun _ _ => rfl
  | moved capacity target => exact .throw _
  | deleted capacity length relocated => exact .throw _
  | padding capacity => exact .throw _

theorem insert_issues (h : session.Walks layout) (payload : ByteArray)
    (hallowed : ∀ offset data, session.counters.size ≤ offset → allowed { offset, data }) :
    IssuesIn contract.toStorageView (insert payload) session allowed := by
  unfold insert
  refine .ensureOpen_bind h.opened (.get_bind fun actual hactual => Issues.ofExcept_bind fun capacity _ => ?_)
  rw [h.region_seen hactual]
  refine Issues.andThen (IssuesIn.onSlots (.of_confined ?_)) fun placed => ?_
  · exact Region.append_confined _ h.supported.pos _ _ hallowed
  exact .of_unchanged fun _ _ => rfl

theorem delete_issues (h : session.Walks layout) (horigins : layout.KnowsOrigins) (id : RecordId) :
    IssuesIn contract.toStorageView (delete id) session (layout.Rewrites id session.counters.size) := by
  unfold delete
  refine .ensureOpen_bind h.opened (.bind (resolveSlot_issues id) (h.resolveSlot_performs id) ?_)
  rintro found after ⟨hsame, hfound⟩
  obtain rfl : after = session := hsame
  have hfound := hfound found rfl
  cases hlive : found.header with
  | moved capacity target => exact .throw _
  | deleted capacity length relocated => exact .throw _
  | padding capacity => exact .throw _
  | live capacity length origin =>
    refine .get_bind fun actual hactual => Issues.ofExcept_bind fun livePayload _ =>
      Issues.ofExcept_bind fun liveCapacity _ => ?_
    rw [h.region_seen hactual]
    have hwrite : layout.Rewrites id after.counters.size
        { offset := found.id.offset, data := ofList (SlotHeader.deleted capacity length false).encode } :=
      hfound.rewrites_header hlive rfl (by simp [SlotHeader.state])
    have hreplaces : Replaces layout { id := found.id, capacity } (.deleted capacity length false) :=
      replaces_live h.tracks hfound.mem (hfound.header_eq hlive) (fun hlt hle => ⟨hlt, hle⟩) rfl rfl
    refine IssuesIn.onSlots_bind (confined_write hwrite)
      (hreplaces.writeHeader_runs h.tracks (fun img htracks hchanged _ _ => ?_)
        fun _ _ _ hok => by cases hok)
    refine IssuesIn.setCounters_bind (IssuesIn.onSlots ?_)
    rw [← hchanged.pageSize]
    refine IssuesOn.of_wellFormed fun hwf => .bind (.of_confined (redirectsToBury_confined _ _ _))
      (redirectsToBury_finds hwf htracks (hfound.origin_mem horigins hlive)) ?_
    rintro redirects _ ⟨rfl, _, ⟨⟩, hredirects⟩
    refine .of_confined (overwriteRedirects_confined fun redirect hredirect => ?_)
    refine hfound.rewrites_redirect hlive ?_ rfl (by simp [SlotHeader.state])
    rcases hredirects redirect hredirect with hpassed | ⟨horigin, hmoved⟩
    · exact .inl hpassed
    · exact .inr ⟨horigin, hmoved.of_set (by simp [Slot.bare, SlotHeader.state])⟩

/-- Once the slot of a record leads to a copy, shortening the rest of its chain writes to its redirects only. -/
private theorem shorten_moved_issues {id target : RecordId} {found : Resolution} (hfound : layout.Finds id found)
    {capacity length : Nat} {origin : Option RecordId} (hlive : found.header = .live capacity length origin)
    (hfirst : origin.getD found.id ∈ layout.ids) (hne : origin.getD found.id ≠ found.id) {layout' : Layout}
    {stop bound : Nat} (htracks : layout'.Tracks img stop) (hids : layout.ids ⊆ layout'.ids)
    (hkept : ∀ other ∈ layout.ids, other ≠ found.id → layout'.header other = layout.header other) :
    IssuesOn contract.toStorageView (shortenChain { pageSize := img.pageSize, stop } (origin.getD found.id)
      { id := found.id, capacity } target found.passed) img (layout.Rewrites id bound) := by
  have hpassed : ∀ redirect ∈ found.passed, HasRedirect layout' redirect := by
    intro redirect hredirect
    have hmoved := hfound.hasRedirect redirect hredirect
    exact hmoved.mono (hids hmoved.1) (hkept _ hmoved.1 (hmoved.ne_of_live (hfound.header_eq hlive)))
  refine shortenChain_issues htracks (hids hfirst) hpassed (fun capacity' hredirect => ?_) fun redirect hredirect => ?_
  · have horigin : origin.getD found.id ∈ origin := by
      cases origin with
      | none => exact absurd rfl hne
      | some first => rfl
    have hbefore : HasRedirect layout { id := origin.getD found.id, capacity := capacity' } :=
      hredirect.mono hfirst (hkept _ hfirst hne).symm
    exact hfound.rewrites_redirect hlive (.inr ⟨horigin, hbefore⟩) rfl (by simp [SlotHeader.state])
  · rcases hredirect with ⟨hmem, -⟩ | rfl
    · exact hfound.rewrites_redirect hlive (.inl hmem) rfl (by simp [SlotHeader.state])
    · exact hfound.rewrites_header hlive rfl (by simp [SlotHeader.state])

/-- A move appends a copy, and turns its old slot into a redirect before it looks at the rest of the chain. -/
theorem relocate_issues (h : session.Walks layout) (horigins : layout.KnowsOrigins) {id : RecordId}
    {found : Resolution} (hfound : layout.Finds id found) {capacity length : Nat} {origin : Option RecordId}
    (hlive : found.header = .live capacity length origin) (payload : ByteArray) :
    IssuesIn contract.toStorageView (relocate found capacity length origin payload) session
      (layout.Rewrites id session.counters.size) := by
  have horigin := hfound.origin_mem horigins hlive
  have hfirst : origin.getD found.id ∈ layout.ids := by
    cases origin with
    | none => exact hfound.mem
    | some first => exact horigin first rfl
  unfold relocate
  refine IssuesIn.get_bind fun actual hactual => Issues.ofExcept_bind fun fresh hfresh =>
    Issues.ofExcept_bind fun livePayload _ => Issues.ofExcept_bind fun liveCapacity _ => ?_
  refine IssuesIn.onSlots_bind ?_ (h.append_runs hactual hfresh ?_ ?_ ?_)
  · rw [h.region_seen hactual]
    exact Region.append_confined _ h.supported.pos _ _ fun offset data hbehind => .behind hbehind
  · rintro _ ⟨⟩
    exact hfirst
  · intro id' base img hpadded htracks hchanged _ hplaced
    cases hplaced
    have hextends : layout.Extends (base.push id'
        { header := .live fresh payload.size (some (origin.getD found.id)), payload }) := hpadded.extends_push h.tracks
    generalize base.push id' _ = layout₁ at htracks hextends
    have hwrite : layout.Rewrites id session.counters.size
        { offset := found.id.offset, data := ofList (SlotHeader.moved capacity id').encode } :=
      hfound.rewrites_header hlive rfl (by simp [SlotHeader.state])
    have hreplaces : Replaces layout₁ { id := found.id, capacity } (.moved capacity id') :=
      replaces_live htracks (hextends.ids hfound.mem)
        ((hextends.header hfound.mem).trans (hfound.header_eq hlive)) (fun hlt _ => hlt) rfl rfl
    refine IssuesIn.onSlots_bind (confined_write hwrite)
      (hreplaces.writeHeader_runs htracks (fun img' htracks' hchanged' _ _ => ?_)
        fun _ _ _ hok => by cases hok)
    refine IssuesIn.setCounters_bind ?_
    by_cases hne : origin.getD found.id ≠ found.id
    · rw [if_pos hne]
      refine Issues.bind (IssuesIn.onSlots ?_) fun _ => Issues.pure _
      -- of the slots that were there, only the one that moved has another header
      have hkept : ∀ other ∈ layout.ids, other ≠ found.id →
          (layout₁.set found.id (.bare (.moved capacity id'))).header other = layout.header other :=
        fun other hother hne => (Layout.header_set_of_ne _ _ hne).trans (hextends.header hother)
      rw [h.region_seen hactual]
      dsimp only
      rw [← hchanged.pageSize, ← hchanged'.pageSize]
      exact shorten_moved_issues hfound hlive hfirst hne htracks' (fun _ hid => hextends.ids hid) hkept
    · rw [if_neg hne]
      exact Issues.pure _
  · rintro e after _ _ _ ⟨⟩

theorem update_issues (h : session.Walks layout) (horigins : layout.KnowsOrigins) (id : RecordId)
    (payload : ByteArray) :
    IssuesIn contract.toStorageView (update id payload) session (layout.Rewrites id session.counters.size) := by
  unfold update
  refine .ensureOpen_bind h.opened (.bind (resolveSlot_issues id) (h.resolveSlot_performs id) ?_)
  rintro found after ⟨hsame, hfound⟩
  obtain rfl : after = session := hsame
  have hfound := hfound found rfl
  cases hlive : found.header with
  | moved capacity target => exact .throw _
  | deleted capacity length relocated => exact .throw _
  | padding capacity => exact .throw _
  | live capacity length origin =>
    dsimp only
    by_cases hfits : payload.size ≤ capacity
    · rw [if_pos hfits]
      have hwrite : layout.Rewrites id after.counters.size { offset := found.id.offset
                                                             data := ofList (SlotHeader.live capacity payload.size
                                                               origin).encode ++ payload } :=
        hfound.rewrites_terminal hlive rfl (by simp [SlotHeader.state]) hfits
      refine IssuesIn.get_bind fun actual _ => Issues.ofExcept_bind fun livePayload _ => ?_
      refine Issues.andThen (IssuesIn.onSlots (.of_confined (confined_write hwrite))) fun _ => ?_
      exact .of_unchanged fun _ _ => rfl
    · rw [if_neg hfits]
      exact relocate_issues h horigins hfound hlive payload

/-! ### Requests -/

theorem perform_issues (h : session.Walks layout) {records : List StoredRecord} (hrep : layout.Represents records)
    {request : Request} (hflush : request ≠ .flush) :
    IssuesIn contract.toStorageView (perform request) session (layout.Frames session.counters.size request) := by
  have horigins := hrep.knowsOrigins
  have hframes : ∀ {id write}, layout.Rewrites id session.counters.size write →
      layout.FramesFor id session.counters.size write := fun hwrite => hwrite.frames h.tracks hrep
  cases request with
  | insert payload => exact Issues.andThen (insert_issues h payload fun _ _ hbehind => hbehind) fun _ => Issues.pure _
  | update id payload =>
    exact Issues.andThen ((update_issues h horigins id payload).mono fun _ => hframes) fun _ => Issues.pure _
  | delete id => exact Issues.andThen ((delete_issues h horigins id).mono fun _ => hframes) fun _ => Issues.pure _
  | read id => exact Issues.andThen (read_issues h.opened id) fun _ => Issues.pure _
  | resolve id => exact Issues.andThen (resolve_issues h.opened id) fun _ => Issues.pure _
  | flush => exact absurd rfl hflush

/-- Whatever calls fail in a run from a blank storage: what a request writes after it lies behind the slots that there
are by then, or in a slot of the record that the request is about. -/
theorem writes_are_framed {storage : Recorder σ} (husable : contract.Usable storage)
    (hblank : (contract.image storage).Blank) {policy : CapacityPolicy} {options : Options}
    {session : Session (Recorder σ)} (hopen : openOn storage policy options = .ok session) {events : List Event}
    (hrecover : .recover ∉ events) (hreopened : ∀ policy options result, (.reopen policy options, result) ∈
      events.zip (runAll (handle contract.reopen) events session).1 → result = .ok .done)
    {request : Request} (hflush : request ≠ .flush) :
    let start := (runAll (handle contract.reopen) events session).2
    let last := (perform request start).2
    ∃ (layout : Layout) (fresh : List IssuedWrite),
      layout.Paved (contract.image start.storage) start.counters.size ∧
      last.storage.issued = fresh ++ start.storage.issued ∧
      ∀ write ∈ fresh, layout.Frames start.counters.size request write := by
  obtain ⟨husable', hserves, -⟩ := (openOn_blank husable hblank policy options).of_eq_ok hopen
  have hempty : Layout.empty.Filled (contract.image storage).pageSize := fun id hid => absurd hid List.not_mem_nil
  obtain ⟨layout, store, hstartUsable, hstart, hfilled, -⟩ := run_growsTo husable' hserves hempty hrecover hreopened
  intro start last
  have hissues : IssuesIn contract.toStorageView (perform request) _ _ :=
    perform_issues hstart.walks hstart.keeps.represents hflush
  obtain ⟨fresh, hfresh, hframes⟩ := hissues start ⟨hstartUsable, rfl⟩
  exact ⟨layout, fresh, hstart.paved hfilled, hfresh, hframes⟩

/-- Twenty bytes, which fit neither of the slots that the record has by then. -/
def longest : ByteArray := ⟨Array.replicate 20 7⟩

private theorem run_recorder : (openOn (Recorder.start failingMemory) .exactDefault .default).toOption.map
    (fun session =>
      let start := (runAll (handle (Recorder.contract (Unreliable.contract Memory.contract)).reopen) retriedEvents session).2
      let last := (perform (.update firstId longest) start).2
      let fresh := last.storage.issued.take (last.storage.issued.length - start.storage.issued.length)
      (start.counters.size, fresh.map fun write => (write.offset, write.data.size))) =
      some (120, [(88, 16), (64, 16), (88, 16), (120, 36)]) := by
  decide +kernel

theorem writes_are_framed_in_memory :
    ∃ session, openOn (Recorder.start failingMemory) .exactDefault .default = .ok session ∧
    let contract := Recorder.contract (Unreliable.contract Memory.contract)
    let start := (runAll (handle contract.reopen) retriedEvents session).2
    let last := (perform (.update firstId longest) start).2
    ∃ (layout : Layout) (fresh : List IssuedWrite),
      layout.Paved (contract.image start.storage) 120 ∧ last.storage.issued = fresh ++ start.storage.issued ∧
      fresh.map (fun write => (write.offset, write.data.size)) = [(88, 16), (64, 16), (88, 16), (120, 36)] ∧
      ∀ write ∈ fresh, layout.FramesFor firstId 120 write := by
  have hrun := run_recorder
  rcases hopen : openOn (Recorder.start failingMemory) .exactDefault .default with e | session
  · rw [hopen] at hrun
    cases hrun
  · rw [hopen] at hrun
    obtain ⟨hstop, hissued⟩ := Prod.mk.inj (Option.some.inj hrun)
    refine ⟨session, rfl, ?_⟩
    intro contract start last
    have husable : contract.Usable (Recorder.start failingMemory) := usable_failingMemory
    have hblank : (contract.image (Recorder.start failingMemory)).Blank := blank_failingMemory
    obtain ⟨layout, fresh, hpaved, hfresh, hframes⟩ :=
      writes_are_framed husable hblank hopen (show Event.recover ∉ retriedEvents by simp [retriedEvents])
        (fun policy options result hmem => by simpa [retriedEvents] using List.of_mem_zip hmem)
        (show Request.update firstId longest ≠ .flush by simp)
    rw [show (runAll (handle contract.reopen) retriedEvents session).2.counters.size = 120 from hstop] at hpaved hframes
    refine ⟨layout, fresh, hpaved, hfresh, ?_, hframes⟩
    have htake : fresh = last.storage.issued.take (last.storage.issued.length - start.storage.issued.length) := by
      rw [show last.storage.issued = fresh ++ start.storage.issued from hfresh]
      simp
    rw [htake]
    exact hissued

end Session

end RecordStore
