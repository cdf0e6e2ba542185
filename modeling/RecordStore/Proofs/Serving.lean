import RecordStore.Proofs.FileHeaderCodec
import RecordStore.Proofs.Hops
import RecordStore.Proofs.Performing
import RecordStore.Proofs.Scanning
import RecordStore.Proofs.Transitions

/-!
# Sessions that serve a store

The invariant of the operations.  An image keeps a store if its slots represent the records and the file header that
it holds can be taken for theirs (`Image.Keeps`); an open session on such an image serves the store if its counters
are those of the store (`Session.Serves`).  `Image.Clean` is what holds besides that as long as no call fails, and
`Image.Worn` what a single operation that is cut off leaves of it.
-/

namespace RecordStore

open Bytes StorageView

namespace Layout

variable {layout base : Layout} {img : Image} {stop stop' at' : Nat} {records : List StoredRecord}
  {record : StoredRecord}

/-- A slot starts at `at'`, or the last one ends there. -/
def Boundary (layout : Layout) (stop at' : Nat) : Prop := at' = stop ∨ ∃ id ∈ layout.ids, id.offset = at'

theorem Boundary.push (h : layout.Boundary stop at') {id : RecordId} {slot : Slot} (hid : id.offset = stop) :
    (layout.push id slot).Boundary stop' at' := by
  rcases h with rfl | ⟨other, hother, hoffset⟩
  · exact .inr ⟨id, List.mem_append_right _ (List.mem_singleton_self id), hid⟩
  · exact .inr ⟨other, List.mem_append_left _ hother, hoffset⟩

theorem Boundary.split (h : layout.Boundary stop at')
    (htiles : layout.Tiles img.pageSize FileHeader.size layout.ids stop) :
    ∃ before after, layout.ids = before ++ after ∧ layout.Tiles img.pageSize FileHeader.size before at' := by
  rcases h with rfl | ⟨id, hid, rfl⟩
  · exact ⟨layout.ids, [], by simp, htiles⟩
  · obtain ⟨before, after, hids⟩ := List.append_of_mem hid
    rw [hids] at htiles
    obtain ⟨mid, hbefore, hmid, -⟩ := Tiles.append_iff.1 htiles
    exact ⟨before, id :: after, hids, hmid ▸ hbefore⟩

namespace Padded

theorem boundary (h : layout.Padded stop base stop') (hboundary : layout.Boundary stop at') :
    base.Boundary stop' at' := by
  cases h with
  | whole => exact hboundary
  | gap hid => exact hboundary.push hid

theorem represents (h : layout.Padded stop base stop') (htracks : layout.Tracks img stop)
    (hrep : layout.Represents records) : base.Represents records := by
  cases h with
  | whole => exact hrep
  | gap hid => exact hrep.push_padding fun hmem => absurd (htracks.offset_lt hmem) (by omega)

theorem slot_eq (h : layout.Padded stop base stop') (htracks : layout.Tracks img stop) {id : RecordId}
    (hid : id ∈ layout.ids) : base.slot id = layout.slot id := by
  cases h with
  | whole => rfl
  | @gap gap capacity hgap =>
    refine slot_push_of_ne _ _ ?_
    rintro rfl
    exact absurd (htracks.offset_lt hid) (by omega)

/-- A slot that is appended behind the padding leaves the others as they are. -/
theorem slot_push_eq (h : layout.Padded stop base stop') (htracks : layout.Tracks img stop) {id other : RecordId}
    {slot : Slot} (hid : stop ≤ id.offset) (hother : other ∈ layout.ids) :
    (base.push id slot).slot other = layout.slot other := by
  rw [slot_push_of_ne, h.slot_eq htracks hother]
  rintro rfl
  exact absurd (htracks.offset_lt hother) (by omega)

theorem stop_le (h : layout.Padded stop base stop') : stop ≤ stop' := by
  cases h with
  | whole => exact Nat.le_refl _
  | gap => exact Nat.le_add_right _ _

theorem ids_subset (h : layout.Padded stop base stop') : layout.ids ⊆ base.ids := by
  cases h with
  | whole => exact List.Subset.refl _
  | gap hid => exact List.subset_append_left _ _

end Padded

/-- The records whose slots a change does not touch stay tidy. -/
theorem Represents.tidy_others {layout' : Layout} {before after : List StoredRecord}
    (hrep : layout.Represents (before ++ record :: after))
    (htidy : ∀ other ∈ before ++ record :: after, layout.Tidy other)
    (hrest : ∀ id ∈ layout.ids, id ∉ record.ids → layout'.slot id = layout.slot id) {other : StoredRecord}
    (hother : other ∈ before ∨ other ∈ after) : layout'.Tidy other := by
  have hmem : other ∈ before ++ record :: after := by
    rcases hother with hother | hother <;> simp [hother]
  refine (htidy other hmem).congr fun id hid => ?_
  have hid' := List.mem_cons_of_mem other.latest hid
  rw [header, hrest id (hrep.mem_ids hmem hid') (hrep.disjoint hother hid'), header]

end Layout

/-- Which bytes an operation may change: none in front of `start`, and behind the slots only if it `appends` a slot.
What it `leaves` there is a copy that nothing leads to, and where that copy ends. -/
structure Scope where
  start : Nat
  appends : Prop
  leaves : Nat → Prop

namespace Scope

def slots : Scope := { start := FileHeader.size, appends := False, leaves := fun _ => False }

def header : Scope := { start := 0, appends := False, leaves := fun _ => False }

def insertion : Scope := { start := FileHeader.size, appends := True, leaves := fun _ => False }

/-- A record that `moves` to a new slot is left in two if a call fails before anything leads to that slot, which ends
where the slots would end then. -/
def update {α : Type} (moves : Prop) (expected : Except StoreError (RecordId × Store)) (result : Except StoreError α) :
    Scope :=
  { start := FileHeader.size
    appends := moves
    leaves := fun reach => match result with
      | .error (.io _) => ∃ (id : RecordId) (after : Store), expected = .ok (id, after) ∧ after.stop = reach
      | _ => False }

theorem update_map {α β : Type} (moves : Prop) (expected : Except StoreError (RecordId × Store)) (f : α → β)
    (result : Except StoreError α) : update moves expected (result.map f) = update moves expected result := by
  cases result with
  | ok a => rfl
  | error e => cases e <;> rfl

end Scope

namespace Image

variable {scope : Scope} {img img' : Image} {start stop stop' reach : Nat}

/-- What an operation makes of what stands behind the slots.  A copy is out of the way when the slots reach as far. -/
structure Trails (scope : Scope) (img img' : Image) (stop stop' : Nat) : Prop where
  covered : ∀ reach ≤ stop', img.Trail stop reach →
    img'.Spare stop' ∨ ∃ reach', scope.leaves reach' ∧ img'.Trail stop' reach'
  kept : ∀ reach, ¬scope.appends → img.Trail stop reach → img'.Trail stop' reach

namespace Trails

theorem of_changedWithin (hchanged : img.ChangedWithin img' start stop) : Trails scope img img' stop stop :=
  ⟨fun _ hreach h => .inl ((h.spare_of_le hreach).congr hchanged), fun _ _ h => h.congr hchanged⟩

theorem of_append (happends : scope.appends) (hchanged : img.ChangedWithin img' start stop')
    (hstop : stop + SlotHeader.paddingSize ≤ stop') : Trails scope img img' stop stop' :=
  ⟨fun _ hreach h => .inl (hchanged.blankFrom (h.blankFrom hreach hstop) (Nat.le_refl _)).spare,
    fun _ hnot => absurd happends hnot⟩

theorem of_cut_off (happends : scope.appends)
    (h : img.Spare stop → img'.Spare stop ∨ ∃ reach, scope.leaves reach ∧ img'.Trail stop reach) :
    Trails scope img img' stop stop :=
  ⟨fun _ hreach htrail => h (htrail.spare_of_le hreach), fun _ hnot => absurd happends hnot⟩

end Trails

end Image

/-- The header of a file that holds the store. -/
def Store.fileHeader (store : Store) (status : FileStatus) : FileHeader :=
  { version := FileHeader.currentVersion, pageSize := store.pageSize, status, counters := store.counters }

/-- The header of a file with these slots: from the last flush, or up to date if the file was closed. -/
structure FileHeader.Describes (header : FileHeader) (layout : Layout) (store : Store) : Prop where
  valid : header.Valid
  pageSize : header.pageSize = store.pageSize
  boundary : layout.Boundary store.stop header.counters.size
  closed : header.status = .closed → header.counters = store.counters

theorem FileHeader.Describes.eq_fileHeader {header : FileHeader} {layout : Layout} {store : Store}
    (h : header.Describes layout store) (hstatus : header.status = .closed) : header = store.fileHeader .closed := by
  have hversion := h.valid.version
  have hpageSize := h.pageSize
  have hcounters := h.closed hstatus
  obtain ⟨version, pageSize, status, counters⟩ := header
  dsimp only at hversion hpageSize hcounters hstatus
  rw [hversion, hpageSize, hcounters, hstatus]
  rfl

namespace Image

/-- The image holds the records of the store, behind a header with the status `status`. -/
structure Keeps (img : Image) (layout : Layout) (store : Store) (status : FileStatus) : Prop where
  pageSize_eq : img.pageSize = store.pageSize
  supported : SupportedPageSize store.pageSize
  tracks : layout.Tracks img store.stop
  represents : layout.Represents store.records
  header : ∃ header : FileHeader, img.Holds 0 (ofList header.encode) ∧ header.status = status ∧
    header.Describes layout store

/-- The image as it is as long as no call fails. -/
structure Clean (img : Image) (layout : Layout) (store : Store) : Prop where
  tidy : ∀ record ∈ store.records, layout.Tidy record
  blank : img.BlankFrom store.stop

/-- The image as one operation may leave it that was cut off. -/
structure Worn (img : Image) (layout : Layout) (store : Store) : Prop where
  loose : ∀ record ∈ store.records, layout.Loose record
  tail : layout.Tail img store.stop

variable {img : Image} {layout : Layout} {store : Store} {status : FileStatus}

theorem Clean.worn (h : img.Clean layout store) (htracks : layout.Tracks img store.stop) : img.Worn layout store :=
  ⟨fun record hrecord => (h.tidy record hrecord).loose, layout, store.stop, .whole, htracks, .blank h.blank⟩

/-- What changes in front of the slots is not behind them. -/
theorem BlankFrom.of_header {stop : Nat} (h : img.BlankFrom stop) (htracks : layout.Tracks img stop) {img' : Image}
    (hchanged : img.ChangedWithin img' 0 FileHeader.size) : img'.BlankFrom stop := by
  intro i hi
  have hlow := htracks.size_le_stop
  rw [hchanged.byte i (.inr (by omega))]
  exact h i hi

theorem Clean.of_header (h : img.Clean layout store) (htracks : layout.Tracks img store.stop) {img' : Image}
    (hchanged : img.ChangedWithin img' 0 FileHeader.size) : img'.Clean layout store :=
  ⟨h.tidy, h.blank.of_header htracks hchanged⟩

theorem Clean.empty {pageSize : Nat} {policy : CapacityPolicy} (hzeros : img.BlankFrom FileHeader.size) :
    img.Clean .empty (.empty pageSize policy) := ⟨fun _ hrecord => absurd hrecord List.not_mem_nil, hzeros⟩

/-- Two hops lead from any identifier to the latest slot of its record. -/
theorem Clean.near (h : img.Clean layout store) (hrep : layout.Represents store.records) :
    ∀ record ∈ store.records, ∀ id ∈ record.ids, layout.Near id 2 :=
  fun record hrecord _ hid => (h.tidy record hrecord).near (hrep.stores record hrecord) hid

namespace Keeps

theorem totals_eq (h : img.Keeps layout store status) :
    layout.totals layout.ids = (store.records.map StoredRecord.share).sum := h.represents.totals_eq h.tracks.nodup

/-- The payloads fit their slots, and the slots fit the file. -/
theorem counters_le (h : img.Keeps layout store status) :
    store.counters.payload ≤ store.counters.capacity ∧ FileHeader.size + store.counters.capacity ≤ store.stop ∧
      FileHeader.size + store.counters.allocated ≤ store.stop ∧
      store.counters.deleted + store.counters.relocated ≤ store.counters.allocated := by
  have hle := h.tracks.tiles.totals_le h.tracks.valid
  rw [h.totals_eq] at hle
  exact hle

theorem stop_lt (h : img.Keeps layout store status) : store.stop < 2 ^ 36 := by
  have hstop := h.tracks.stop_le
  have hfits := h.supported.fits
  rw [h.pageSize_eq] at hstop
  omega

theorem fitWords (h : img.Keeps layout store status) : store.counters.FitWords := by
  obtain ⟨hpayload, hcapacity, hallocated, hsum⟩ := h.counters_le
  have hstop := h.stop_lt
  have hsize : store.counters.size = store.stop := rfl
  constructor <;> omega

/-- After work on the slots, which leaves the file header alone, the image keeps the store that the slots are of now. -/
theorem advance (h : img.Keeps layout store .opened) {img' : Image} {layout' : Layout} {store' : Store}
    (hpageSize : img'.pageSize = img.pageSize) (hstore : store'.pageSize = store.pageSize)
    (hhead : ∀ i < FileHeader.size, img'.byte i = img.byte i) (htracks : layout'.Tracks img' store'.stop)
    (hrep : layout'.Represents store'.records)
    (hboundary : ∀ at', layout.Boundary store.stop at' → layout'.Boundary store'.stop at') :
    img'.Keeps layout' store' .opened := by
  obtain ⟨header, hholds, hstatus, hdescribes⟩ := h.header
  refine ⟨hpageSize.trans (h.pageSize_eq.trans hstore.symm), by rw [hstore]; exact h.supported, htracks, hrep, header,
    hholds.congr fun i _ hi => hhead i ?_, hstatus, hdescribes.valid, hdescribes.pageSize.trans hstore.symm,
    hboundary _ hdescribes.boundary, fun hclosed => ?_⟩
  · simpa using hi
  · rw [hstatus] at hclosed
    cases hclosed

end Keeps

end Image

namespace Session

/-- The session is open and its counters are those of the store. -/
structure Serves (session : Session Image) (layout : Layout) (store : Store) : Prop where
  opened : session.closed = false
  policy : store.policy = session.policy
  pageSize : store.pageSize = session.pageSize
  header : session.header = store.fileHeader .opened
  keeps : session.storage.Keeps layout store .opened

namespace Serves

variable {session : Session Image} {layout : Layout} {store : Store}

theorem region_eq (h : session.Serves layout store) :
    session.region = { pageSize := session.storage.pageSize, stop := store.stop } := by
  unfold region
  rw [h.header, h.keeps.pageSize_eq, h.pageSize]
  rfl

theorem counters_eq (h : session.Serves layout store) : session.counters = store.counters := by
  unfold counters
  rw [h.header]
  rfl

theorem capacityFor_eq (h : session.Serves layout store) (length desired : Nat) :
    session.capacityFor length desired = store.capacityFor length desired := by
  have hmax : session.maxPayload = store.maxPayload := by
    unfold maxPayload Store.maxPayload
    rw [h.policy, h.pageSize]
  unfold capacityFor Store.capacityFor
  rw [hmax]

section Seen

variable {σ : Type} {view : StorageView σ} {actual : Session σ}

theorem region_seen (h : session.Serves layout store) (hactual : actual.seen view = session) :
    actual.region = { pageSize := session.storage.pageSize, stop := store.stop } := by
  rw [← h.region_eq, ← hactual]
  rfl

theorem counters_seen (h : session.Serves layout store) (hactual : actual.seen view = session) :
    actual.counters = store.counters := by
  rw [← h.counters_eq, ← hactual]
  rfl

theorem policy_seen (h : session.Serves layout store) (hactual : actual.seen view = session) :
    actual.policy = store.policy := by
  rw [h.policy, ← hactual]
  rfl

theorem capacityFor_seen (h : session.Serves layout store) (hactual : actual.seen view = session)
    (length desired : Nat) : actual.capacityFor length desired = store.capacityFor length desired := by
  rw [← h.capacityFor_eq, ← hactual]
  rfl

end Seen

end Serves

/-- Why an operation may fail that the store would not refuse: a call failed, or a chain of redirects is too long. -/
inductive Excuse {σ : Type} (view : StorageView σ) (session : Session Image) (layout : Layout) (store : Store) :
    StoreError → Prop
  | io (hfallible : view.fallible) (cause : StorageError) : Excuse view session layout store (.io cause)
  | hops {record : StoredRecord} {id last : RecordId} {passed : List Redirect} (hrecord : record ∈ store.records)
      (hid : id ∈ record.ids) (hleads : layout.Leads id passed last) (hlong : session.maxHops < passed.length) :
      Excuse view session layout store (.corruption id.offset (.tooManyHops id session.maxHops))

/-- Where chains are short enough, a call has failed. -/
theorem Excuse.exists_io {σ : Type} {view : StorageView σ} {session : Session Image} {layout : Layout} {store : Store}
    {e : StoreError} (h : Excuse view session layout store e)
    (hnear : ∀ record ∈ store.records, ∀ id ∈ record.ids, layout.Near id session.maxHops) :
    view.fallible ∧ ∃ cause, e = .io cause := by
  cases h with
  | io hfallible cause => exact ⟨hfallible, cause, rfl⟩
  | hops hrecord hid hleads hlong => exact absurd (hnear _ hrecord _ hid _ _ hleads) (by omega)

/-- How an operation ends for which the store has the answer `expected`: with that answer and its effect, or with an
excused failure and without effect. -/
inductive Outcome {α : Type} (excused : StoreError → Prop) (store : Store) :
    Except StoreError (α × Store) → Except StoreError α → Store → Prop
  | done {answer : α} {store' : Store} : Outcome excused store (.ok (answer, store')) (.ok answer) store'
  | refused {e : StoreError} : Outcome excused store (.error e) (.error e) store
  | failed {expected : Except StoreError (α × Store)} {e : StoreError} (h : excused e) :
      Outcome excused store expected (.error e) store

/-- What an operation makes of a session that serves a store. -/
structure Advances (fallible : Prop) (scope : Scope) (session session' : Session Image) (layout layout' : Layout)
    (store store' : Store) : Prop where
  serves : session'.Serves layout' store'
  policy : session'.policy = session.policy
  maxHops : session'.maxHops = session.maxHops
  clean : session.storage.Clean layout store → ¬fallible → session'.storage.Clean layout' store'
  worn : session.storage.Clean layout store → session'.storage.Worn layout' store'
  head : ∀ i < scope.start, session'.storage.byte i = session.storage.byte i
  trails : Image.Trails scope session.storage session'.storage store.stop store'.stop
  /-- Only a record that was moved is left with its redirects in less order. -/
  settled : session.storage.Clean layout store → ∀ record ∈ store'.records, record.ids ⊆ layout.ids →
    layout'.Tidy record
  boundary : ∀ at', layout.Boundary store.stop at' → layout'.Boundary store'.stop at'
  transition : layout.Transition fallible store layout' store'
  /-- Only an append that was cut off leaves something behind the slots. -/
  blank : session.storage.BlankFrom store.stop →
    session'.storage.BlankFrom store'.stop ∨ scope.appends ∧ fallible ∧ store' = store

theorem Advances.refl {fallible : Prop} {scope : Scope} {session : Session Image} {layout : Layout} {store : Store}
    (h : session.Serves layout store) : Advances fallible scope session session layout layout store store :=
  ⟨h, rfl, rfl, fun hclean _ => hclean, fun hclean => hclean.worn h.keeps.tracks, fun _ _ => rfl,
    .of_changedWithin (.refl _ 0 store.stop), fun hclean record hrecord _ => hclean.tidy record hrecord, fun _ h => h,
    .same store.policy, .inl⟩

/-- The session afterwards serves what has become of the store, and the operation ends as `Outcome` says of that. -/
def Follows {σ α : Type} (view : StorageView σ) (scope : Except StoreError α → Scope) (session : Session Image)
    (layout : Layout) (store : Store) (expected : Except StoreError (α × Store)) (result : Except StoreError α)
    (session' : Session Image) : Prop :=
  ∃ layout' store', Advances view.fallible (scope result) session session' layout layout' store store' ∧
    Outcome (Excuse view session layout store) store expected result store'

/-- What is left of an operation that changes nothing. -/
theorem Follows.unchanged {σ α : Type} {view : StorageView σ} {scope : Except StoreError α → Scope}
    {session : Session Image} {layout : Layout} {store : Store} (h : session.Serves layout store)
    {expected : Except StoreError (α × Store)} {result : Except StoreError α}
    (houtcome : Outcome (Excuse view session layout store) store expected result store) :
    Follows view scope session layout store expected result session := ⟨layout, store, .refl h, houtcome⟩

/-- An operation on one record: what it does not touch stays as it is. -/
theorem advances_of_change {fallible : Prop} {scope : Scope} {session : Session Image} {layout layout' : Layout}
    {store store' : Store} (h : session.Serves layout store) (hscope : scope.start = FileHeader.size)
    {before after : List StoredRecord} {record record' : StoredRecord}
    (hrecords : store.records = before ++ record :: after) (hrecords' : store'.records = before ++ record' :: after)
    (hpolicy : store'.policy = store.policy) (hpageSize : store'.pageSize = store.pageSize)
    (hstop : store'.stop = store.stop ∨ scope.appends ∧ store.stop + SlotHeader.paddingSize ≤ store'.stop) {img : Image}
    (htracks : layout'.Tracks img store'.stop)
    (hchanged : session.storage.ChangedWithin img FileHeader.size store'.stop)
    (hrep : layout'.Represents (before ++ record' :: after))
    (hboundary : ∀ at', layout.Boundary store.stop at' → layout'.Boundary store'.stop at')
    (hrest : ∀ id ∈ layout.ids, id ∉ record.ids → layout'.slot id = layout.slot id)
    (htidy : layout.Tidy record → ¬fallible → layout'.Tidy record')
    (hloose : layout.Tidy record → layout'.Loose record')
    (hsettled : layout.Tidy record → record'.ids ⊆ layout.ids → layout'.Tidy record')
    (htransition : layout.Transition fallible store layout' store') :
    Advances fallible scope session
      { session with storage := img, header := { session.header with counters := store'.counters } } layout layout'
      store store' := by
  have hle : store.stop ≤ store'.stop := by
    rcases hstop with hstop | ⟨-, hstop⟩ <;> omega
  have htrails : Image.Trails scope session.storage img store.stop store'.stop := by
    rcases hstop with hstop | ⟨happends, hstop⟩
    · rw [hstop] at hchanged ⊢
      exact .of_changedWithin hchanged
    · exact .of_append happends hchanged hstop
  have hkeeps : img.Keeps layout' store' .opened :=
    h.keeps.advance hchanged.pageSize hpageSize (fun i hi => hchanged.byte i (.inl hi)) htracks
      (by rw [hrecords']; exact hrep) hboundary
  have hothers : session.storage.Clean layout store → ∀ other, other ∈ before ∨ other ∈ after → layout'.Tidy other := by
    intro hclean other hother
    have hrep' := h.keeps.represents
    have htidy' := hclean.tidy
    rw [hrecords] at hrep' htidy'
    exact hrep'.tidy_others htidy' hrest hother
  have hrecord : session.storage.Clean layout store → layout.Tidy record :=
    fun hclean => hclean.tidy record (by simp [hrecords])
  have hblank : session.storage.BlankFrom store.stop → img.BlankFrom store'.stop :=
    fun hblank => hchanged.blankFrom hblank hle
  have hheader : { session.header with counters := store'.counters } = store'.fileHeader .opened := by
    rw [h.header, Store.fileHeader, Store.fileHeader, hpageSize]
  -- the records beside the one that changed are as tidy as before, whatever failed
  refine ⟨⟨h.opened, hpolicy.trans h.policy, hpageSize.trans h.pageSize, hheader, hkeeps⟩, rfl, rfl,
    fun hclean hreliable => ⟨fun other hother => ?_, hblank hclean.blank⟩, fun hclean => ⟨fun other hother => ?_, ?_⟩,
    fun i hi => hchanged.byte i (.inl (hscope ▸ hi)), htrails, fun hclean other hother hids => ?_, hboundary,
    htransition, fun h => .inl (hblank h)⟩
  · rw [hrecords', List.mem_append, List.mem_cons] at hother
    rcases hother with hother | rfl | hother
    · exact hothers hclean other (.inl hother)
    · exact htidy (hrecord hclean) hreliable
    · exact hothers hclean other (.inr hother)
  · rw [hrecords', List.mem_append, List.mem_cons] at hother
    rcases hother with hother | rfl | hother
    · exact (hothers hclean other (.inl hother)).loose
    · exact hloose (hrecord hclean)
    · exact (hothers hclean other (.inr hother)).loose
  · exact ⟨layout', store'.stop, .whole, htracks, .blank (hblank hclean.blank)⟩
  · rw [hrecords', List.mem_append, List.mem_cons] at hother
    rcases hother with hother | rfl | hother
    · exact hothers hclean other (.inl hother)
    · exact hsettled (hrecord hclean) hids
    · exact hothers hclean other (.inr hother)

end Session

end RecordStore
