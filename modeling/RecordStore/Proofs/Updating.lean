import RecordStore.Proofs.Insertion

/-!
# New payloads

A payload that fits overwrites the old one.  Any other is copied to a new slot, and the move counts from the moment
the slot before it is made a redirect: a call that fails before that leaves nothing but a copy behind the slots
(`Layout.Ends.copy`), and one that fails after it leaves a longer chain.
-/

namespace RecordStore

open StorageView

namespace Layout

variable {layout layout' : Layout} {before after : List StoredRecord} {record : StoredRecord}

/-- What is kept while the redirects of a record are pointed at its first slot one by one. -/
private structure Shortens (layout : Layout) (record : StoredRecord) (layout' : Layout) : Prop where
  stores : layout'.Stores record
  loose : layout.Loose record → layout'.Loose record
  pointed : ∃ capacity, layout'.header record.first = .moved capacity record.latest
  rest : ∀ id ∉ record.ids, layout'.slot id = layout.slot id

private theorem shortens_start (h : layout.Stores record) (hfirst : record.first ∈ record.former)
    (capacity : Nat) : Shortens layout record (layout.set record.first (.bare (.moved capacity record.latest))) where
  stores := h.redirected hfirst (.inl rfl)
  loose := fun hloose => hloose.redirected (.inl rfl)
  pointed := ⟨capacity, header_set_self ..⟩
  rest := fun _ hid => slot_set_of_ne _ _ fun heq => hid (heq ▸ record.first_mem)

private theorem Shortens.step (h : Shortens layout record layout') {id : RecordId} (hid : id ∈ record.former)
    (hne : id ≠ record.first) (capacity : Nat) :
    Shortens layout record (layout'.set id (.bare (.moved capacity record.first))) where
  stores := h.stores.redirected hid (.inr ⟨hne.symm, record.first_mem, h.pointed⟩)
  loose := fun hloose => (h.loose hloose).redirected (.inr ⟨hne, rfl, h.pointed⟩)
  pointed := by
    obtain ⟨c, hpointed⟩ := h.pointed
    exact ⟨c, (header_set_of_ne _ _ hne.symm).trans hpointed⟩
  rest := fun other hother => by
    have hother' : other ≠ id := by
      rintro rfl
      exact hother (List.mem_cons_of_mem _ hid)
    rw [slot_set_of_ne _ _ hother', h.rest other hother]

/-- What pointing the first slot of a record at the latest one and other slots at the first makes of a layout. -/
theorem Represents.shorten (hrep : layout.Represents (before ++ record :: after))
    (hfirst : record.first ∈ record.former) (capacity : Nat) {done : List Redirect}
    (hdone : ∀ redirect ∈ done, redirect.id ∈ record.former ∧ redirect.id ≠ record.first)
    (hlayout' : layout' = (layout.set record.first (.bare (.moved capacity record.latest))).overwrite
      (fun redirect => .moved redirect.capacity record.first) done) :
    layout'.Represents (before ++ record :: after) ∧ (layout.Loose record → layout'.Loose record) ∧
      ∀ id ∉ record.ids, layout'.slot id = layout.slot id := by
  have hshortens : Shortens layout record layout' := by
    rw [hlayout']
    exact overwrite_induction (shortens_start (hrep.stores record (by simp)) hfirst capacity)
      fun mid hmid redirect hredirect => hmid.step (hdone redirect hredirect).1 (hdone redirect hredirect).2 _
  have hids : layout'.ids = layout.ids := by
    rw [hlayout', ids_overwrite, ids_set]
  exact ⟨hrep.change hids rfl hshortens.stores hshortens.rest, hshortens.loose, hshortens.rest⟩

end Layout

namespace Store

variable {store store' : Store} {before after : List StoredRecord} {record record' : StoredRecord}

/-- The payload does not fit the record that an update asks for. -/
def Moves (store : Store) (id : RecordId) (payload : ByteArray) : Prop :=
  ∃ (record : StoredRecord) (old : ByteArray), store.live id = .ok (record, old) ∧ record.capacity < payload.size

/-- The counters before and after the change of one record. -/
theorem counters_of_split (h : store.records = before ++ record :: after)
    (h' : store'.records = before ++ record' :: after) :
    ∃ rest : Counters, store.counters = { rest + record.share with size := store.stop } ∧
      store'.counters = { rest + record'.share with size := store'.stop } := by
  refine ⟨(before.map StoredRecord.share).sum + (after.map StoredRecord.share).sum, ?_, ?_⟩
  · unfold counters
    rw [h, List.map_append, List.map_cons, List.sum_append, List.sum_cons, add_left_comm, add_comm]
  · unfold counters
    rw [h', List.map_append, List.map_cons, List.sum_append, List.sum_cons, add_left_comm, add_comm]

end Store

namespace Session

variable {σ : Type} [PagedStorage σ] {contract : StorageContract σ} {session : Session Image} {layout : Layout}
  {store : Store}

theorem adjust_eq_ok {offset counter added removed : Nat} (hadded : counter + added ≤ wordMax)
    (hremoved : removed ≤ counter + added) : adjust offset counter added removed = .ok (counter + added - removed) :=
  if_pos ⟨hadded, hremoved⟩

/-! ### In place -/

/-- A payload that was overwritten is the payload of its record. -/
private theorem advances_of_overwritten {scope : Scope} (h : session.Serves layout store)
    (hstart : scope.start = FileHeader.size) {before after : List StoredRecord}
    {record : StoredRecord} (hrecords : store.records = before ++ record :: after) {payload old : ByteArray}
    (hlive : record.payload = some old) {img : Image} {slot : Slot}
    (hslot : slot = { header := .live record.capacity payload.size record.former.getLast?, payload })
    (htracks : (layout.set record.latest slot).Tracks img store.stop)
    (hchanged : session.storage.ChangedWithin img FileHeader.size store.stop) {store' : Store}
    (hstore' : store' = { store with records := before ++ record.overwritten payload :: after }) :
    Advances contract.fallible scope session
      { session with storage := img, header := { session.header with counters := store'.counters } } layout
      (layout.set record.latest slot) store store' := by
  have hrecords' : store'.records = before ++ record.overwritten payload :: after := by rw [hstore']
  have hstop : store'.stop = store.stop := by rw [hstore']
  have hrep := h.keeps.represents
  rw [hrecords] at hrep
  have hstores := hrep.stores record (by simp)
  have hrest : ∀ id ∉ record.ids, (layout.set record.latest slot).slot id = layout.slot id :=
    fun id hid => Layout.slot_set_of_ne _ _ fun heq => hid (heq ▸ List.mem_cons_self)
  -- only the latest slot is written
  have hformer : ∀ id ∈ record.former, (layout.set record.latest slot).slot id = layout.slot id :=
    fun id hid => Layout.slot_set_of_ne _ _ (hstores.latest_ne hid).symm
  have htidy : layout.Tidy record → (layout.set record.latest slot).Tidy (record.overwritten payload) := by
    intro htidy
    exact Layout.Tidy.congr htidy fun id hid => by rw [Layout.header, hformer id hid, Layout.header]
  have hstores' : (layout.set record.latest slot).Stores (record.overwritten payload) :=
    hstores.overwritten hlive (by rw [Layout.slot_set_self, hslot]) hformer
  have hids' : (record.overwritten payload).ids = record.ids := rfl
  rw [← hstop] at htracks hchanged
  have hboundary : ∀ at', layout.Boundary store.stop at' →
      (layout.set record.latest slot).Boundary store'.stop at' := by
    rw [hstop]
    exact fun _ hboundary => hboundary
  have htransition : layout.Transition contract.fallible store (layout.set record.latest slot) store' := by
    rw [hslot, hstore']
    exact .overwritten hrecords hlive
  exact advances_of_change h hstart hrecords hrecords' (by rw [hstore']) (by rw [hstore']) (.inl hstop) htracks hchanged
     (hrep.change rfl hids' hstores' hrest) hboundary (fun id _ => hrest id) (fun htidy' _ => htidy htidy')
    (fun htidy' => (htidy htidy').loose) (fun htidy' _ => htidy htidy') htransition

/-- What the invariant says of the slot that a live record was found in. -/
theorem latest_facts (h : session.Serves layout store) {record : StoredRecord} {old : ByteArray}
    (hrecord : record ∈ store.records) (hlive : record.payload = some old) :
    record.latest ∈ layout.ids ∧ record.capacity < 2 ^ 32 ∧
      (∀ id ∈ record.former.getLast?, id.offset < record.latest.offset) ∧
      layout.size record.latest = SlotHeader.sizeFor SlotHeader.fullSize record.capacity := by
  have hmem := h.keeps.represents.mem_ids hrecord (List.mem_cons_self : record.latest ∈ record.ids)
  have hheader := (h.keeps.represents.stores record hrecord).header_latest hlive
  have hvalid := (h.keeps.tracks.valid _ hmem).header
  change (layout.header record.latest).Valid _ at hvalid
  rw [hheader] at hvalid
  refine ⟨hmem, hvalid.1, hvalid.2.2, ?_⟩
  rw [Layout.size, hheader]
  rfl

/-- Taking a live record out of a counter and putting `added` in never leaves the word. -/
private theorem adjust_counter (h : session.Serves layout store) {before after : List StoredRecord}
    {record : StoredRecord} (hrecords : store.records = before ++ record :: after) (value : Counters → Nat)
    (hadd : ∀ a b size, value { a + b with size } = value a + value b) (hvalue : value store.counters ≤ store.stop)
    {added : Nat} (hadded : added < 2 ^ 32) (offset : Nat) :
    adjust offset (value store.counters) added (value record.share) =
      .ok (value store.counters + added - value record.share) := by
  obtain ⟨rest, hcounters, -⟩ := Store.counters_of_split hrecords hrecords
  have hstop := h.keeps.stop_lt
  have hsum : value store.counters = value rest + value record.share := by rw [hcounters, hadd]
  exact adjust_eq_ok (by unfold wordMax; omega) (by omega)

/-- Putting `added` payload bytes in the place of those of a live record. -/
theorem adjust_payload (h : session.Serves layout store) {before after : List StoredRecord} {record : StoredRecord}
    {old : ByteArray} (hrecords : store.records = before ++ record :: after) (hlive : record.payload = some old)
    {added : Nat} (hadded : added < 2 ^ 32) (offset : Nat) :
    adjust offset store.counters.payload added old.size = .ok (store.counters.payload + added - old.size) := by
  obtain ⟨hpayload, hcapacity, -, -⟩ := h.keeps.counters_le
  have hshare : record.share.payload = old.size := by simp [StoredRecord.share, hlive]
  have hadjust := adjust_counter h hrecords Counters.payload (fun _ _ _ => rfl) (by omega) hadded offset
  rw [hshare] at hadjust
  exact hadjust

/-- The same for the bytes that are reserved for it. -/
theorem adjust_capacity (h : session.Serves layout store) {before after : List StoredRecord} {record : StoredRecord}
    {old : ByteArray} (hrecords : store.records = before ++ record :: after) (hlive : record.payload = some old)
    {added : Nat} (hadded : added < 2 ^ 32) (offset : Nat) :
    adjust offset store.counters.capacity added record.capacity =
      .ok (store.counters.capacity + added - record.capacity) := by
  obtain ⟨-, hcapacity, -, -⟩ := h.keeps.counters_le
  have hshare : record.share.capacity = record.capacity := by simp [StoredRecord.share, hlive]
  have hadjust := adjust_counter h hrecords Counters.capacity (fun _ _ _ => rfl) (by omega) hadded offset
  rw [hshare] at hadjust
  exact hadjust

/-- What has become of a layout in which a record was moved to `id`. -/
private structure MovedTo (layout layout' : Layout) (record : StoredRecord) (id : RecordId) : Prop where
  previous : layout'.header record.latest = .moved record.capacity id
  former : ∀ other ∈ record.former, layout'.header other = layout.header other
  rest : ∀ other ∈ layout.ids, other ∉ record.ids → layout'.slot other = layout.slot other
  ids_subset : layout.ids ⊆ layout'.ids

private theorem movedTo (h : session.Serves layout store) {record : StoredRecord} (hrecord : record ∈ store.records)
    {base : Layout} {id : RecordId} (hpadded : layout.Padded store.stop base id.offset) (slot : Slot) :
    MovedTo layout ((base.push id slot).set record.latest (.bare (.moved record.capacity id))) record id := by
  have hrep := h.keeps.represents
  have hslot : ∀ other ∈ layout.ids, (base.push id slot).slot other = layout.slot other :=
    fun other hother => hpadded.slot_push_eq h.keeps.tracks hpadded.stop_le hother
  refine ⟨Layout.header_set_self .., fun other hother => ?_, fun other hother hother' => ?_, fun other hother => ?_⟩
  · have hmem := hrep.mem_ids hrecord (List.mem_cons_of_mem _ hother)
    rw [Layout.header_set_of_ne _ _ ((hrep.stores record hrecord).latest_ne hother).symm, Layout.header,
      hslot other hmem,
      Layout.header]
  · have hne : other ≠ record.latest := by
      rintro rfl
      exact hother' List.mem_cons_self
    rw [Layout.slot_set_of_ne _ _ hne, hslot other hother]
  · exact List.mem_append_left _ (hpadded.ids_subset hother)

/-- The counters after a move. -/
private theorem counters_moved {before after : List StoredRecord} {record : StoredRecord} {id : RecordId}
    {capacity stop : Nat} {payload old : ByteArray} (hrecords : store.records = before ++ record :: after)
    (hlive : record.payload = some old) {store' : Store}
    (hrecords' : store'.records = before ++ record.moved id capacity payload :: after) (hstop : store'.stop = stop) :
    store'.counters =
      { allocated := store.counters.allocated + 1
        deleted := store.counters.deleted
        relocated := store.counters.relocated + 1
        payload := store.counters.payload + payload.size - old.size
        capacity := store.counters.capacity + capacity - record.capacity
        size := stop } := by
  obtain ⟨rest, hcounters, hcounters'⟩ := Store.counters_of_split hrecords hrecords'
  rw [hcounters, hcounters']
  ext <;> simp [StoredRecord.share, StoredRecord.moved, StoredRecord.ids, hlive] <;> omega

/-- A record that was moved lives under its new identifier, however far the redirects were brought in order. -/
private theorem advances_of_moved {scope : Scope} (h : session.Serves layout store)
    (hstart : scope.start = FileHeader.size) (happends : scope.appends) {before after : List StoredRecord}
    {record : StoredRecord} (hrecords : store.records = before ++ record :: after) {id : RecordId}
    {capacity stop : Nat} {payload : ByteArray} {base layout' : Layout} {img img' : Image}
    (hpadded : layout.Padded store.stop base id.offset) (hstop : id.offset + SlotHeader.paddingSize ≤ stop)
    (hchanged : session.storage.ChangedWithin img store.stop stop)
    (hchanged' : img.ChangedWithin img' FileHeader.size stop) (htracks : layout'.Tracks img' stop)
    (hids : layout'.ids = base.ids ++ [id])
    (hrep : layout'.Represents (before ++ record.moved id capacity payload :: after))
    (hrest : ∀ other ∈ layout.ids, other ∉ record.ids → layout'.slot other = layout.slot other)
    (htidy : layout.Tidy record → ¬contract.fallible → layout'.Tidy (record.moved id capacity payload))
    (hloose : layout.Tidy record → layout'.Loose (record.moved id capacity payload)) {store' : Store}
    (hstore' : store' = { store with records := before ++ record.moved id capacity payload :: after, stop })
    (htransition : layout.Transition contract.fallible store layout' store') :
    Advances contract.fallible scope session
      { session with storage := img', header := { session.header with counters := store'.counters } } layout layout'
      store store' := by
  have hrecords' : store'.records = before ++ record.moved id capacity payload :: after := by rw [hstore']
  have hstop' : store'.stop = stop := by rw [hstore']
  have hlow := h.keeps.tracks.size_le_stop
  have hend : store.stop + SlotHeader.paddingSize ≤ stop := Nat.le_trans (Nat.add_le_add_right hpadded.stop_le _) hstop
  have hboundary : ∀ at', layout.Boundary store.stop at' → layout'.Boundary store'.stop at' := by
    intro at' hboundary
    have hpush : (base.push id (.bare (.padding 0))).Boundary store'.stop at' := (hpadded.boundary hboundary).push rfl
    unfold Layout.Boundary at hpush ⊢
    rw [hids]
    exact hpush
  rw [← hstop'] at htracks hchanged hchanged' hend
  refine advances_of_change h hstart hrecords hrecords' (by rw [hstore']) (by rw [hstore']) (.inr ⟨happends, hend⟩)
    htracks ((hchanged.mono hlow (Nat.le_refl _)).trans hchanged') hrep hboundary hrest htidy hloose (fun _ hids => ?_)
    htransition
  -- the new slot lies behind those of the layout
  exact absurd (h.keeps.tracks.offset_lt (hids List.mem_cons_self)) (Nat.not_lt.2 hpadded.stop_le)

/-- A record that was never moved before is tidy after its first move. -/
private theorem tidy_of_first_move {layout₂ : Layout} {record : StoredRecord} {id : RecordId} {capacity : Nat}
    {payload : ByteArray} (hmoved : MovedTo layout layout₂ record id) (htidy : layout.Tidy record)
    (hfirst : record.first = record.latest) : layout₂.Tidy (record.moved id capacity payload) := by
  refine htidy.moved (fun c target hheader => ?_) fun other hother hne => ?_
  · rw [hfirst, hmoved.previous] at hheader
    cases hheader
    rfl
  · rcases List.mem_cons.1 hother with rfl | hformer
    · exact absurd hfirst.symm hne
    · exact .inr ⟨hformer, hmoved.former other hformer⟩

/-- A chain that was shortened to the end is tidy. -/
private theorem tidy_of_shortened {layout₂ : Layout} {record : StoredRecord} {id : RecordId} {capacity : Nat}
    {payload : ByteArray} (hmoved : MovedTo layout layout₂ record id) (htidy : layout.Tidy record)
    {originCapacity : Nat} {redirects : List Redirect} (hprevious : record.latest ∈ redirects.map (·.id))
    (hredirects : ∀ redirect ∈ redirects, redirect.id ≠ record.first) :
    ((layout₂.set record.first (.bare (.moved originCapacity id))).overwrite
      (fun redirect => .moved redirect.capacity record.first) redirects).Tidy (record.moved id capacity payload) := by
  refine htidy.moved (fun c target hheader => ?_) fun other hother hne => ?_
  · have hfirst : record.first ∉ redirects.map (·.id) := by
      intro hmem
      obtain ⟨redirect, hredirect, hid⟩ := List.mem_map.1 hmem
      exact hredirects redirect hredirect hid
    rw [Layout.header, Layout.slot_overwrite_of_notMem hfirst, Layout.slot_set_self] at hheader
    cases hheader
    rfl
  · by_cases hmem : other ∈ redirects.map (·.id)
    · obtain ⟨redirect, -, -, hslot⟩ := @Layout.slot_overwrite_of_mem
        (layout₂.set record.first (.bare (.moved originCapacity id)))
        (fun redirect => .moved redirect.capacity record.first) redirects other hmem
      exact .inl ⟨redirect.capacity, by rw [Layout.header, hslot]; rfl⟩
    · have hformer : other ∈ record.former := by
        rcases List.mem_cons.1 hother with rfl | hformer
        · exact absurd hprevious hmem
        · exact hformer
      refine .inr ⟨hformer, ?_⟩
      rw [Layout.header, Layout.slot_overwrite_of_notMem hmem, ← Layout.header, Layout.header_set_of_ne _ _ hne,
        hmoved.former other hformer]

/-- The redirects that a shortened chain consists of are those of the record, but for its first one. -/
private theorem redirects_of_record {record : StoredRecord} {old : ByteArray} (hstores : layout.Stores record)
    (hlive : record.payload = some old) (hfirst : record.first ≠ record.latest) {passed : List Redirect}
    (hpassed : ∀ redirect ∈ passed, redirect.id ∈ record.former ∧ HasRedirect layout redirect) :
    ∀ redirect ∈ passed.filter (·.id ≠ record.first) ++ [{ id := record.latest, capacity := record.capacity }],
      redirect.id ∈ record.ids ∧ redirect.id ≠ record.first ∧
        (layout.header redirect.id).capacity = redirect.capacity := by
  intro redirect hredirect
  rcases List.mem_append.1 hredirect with hredirect | hredirect
  · obtain ⟨hredirect, hne⟩ := List.mem_filter.1 hredirect
    obtain ⟨hformer, -, target, hheader⟩ := hpassed redirect hredirect
    exact ⟨List.mem_cons_of_mem _ hformer, by simpa using hne, by rw [hheader]; rfl⟩
  · rw [List.mem_singleton.1 hredirect]
    exact ⟨List.mem_cons_self, hfirst.symm, by rw [hstores.header_latest hlive]; rfl⟩

/-- Shortening the chain of a record that was moved, as far as that succeeds. -/
private theorem shorten_performs (scope : Scope) (h : session.Serves layout store)
    (hstart : scope.start = FileHeader.size) (happends : scope.appends) {before after : List StoredRecord}
    {record : StoredRecord} (hrecords : store.records = before ++ record :: after) {id : RecordId}
    {capacity stop : Nat} {payload old : ByteArray} {base layout₂ : Layout} {img img₂ : Image}
    (hlive : record.payload = some old) (hfirst : record.first ≠ record.latest)
    (hpadded : layout.Padded store.stop base id.offset) (hstop : id.offset + SlotHeader.paddingSize ≤ stop)
    (hchanged : session.storage.ChangedWithin img store.stop stop)
    (hchanged₂ : img.ChangedWithin img₂ FileHeader.size stop)
    (htracks₂ : layout₂.Tracks img₂ stop) (hids₂ : layout₂.ids = base.ids ++ [id])
    (hrep₂ : layout₂.Represents (before ++ record.moved id capacity payload :: after))
    (hmoved : MovedTo layout layout₂ record id) {passed : List Redirect}
    (hpassed : ∀ redirect ∈ passed, redirect.id ∈ record.former ∧ HasRedirect layout redirect) {store' : Store}
    (hstore' : store' = { store with records := before ++ record.moved id capacity payload :: after, stop })
    (htransition : ∀ layout', Layout.Shortened contract.fallible layout record id layout₂ layout' →
      layout.Transition contract.fallible store layout' store') :
    contract.Runs (shortenChain { pageSize := img₂.pageSize, stop } record.first
      { id := record.latest, capacity := record.capacity } id passed) img₂ fun result img' => result = .ok () ∧
        ∃ layout', Advances contract.fallible scope session
          { session with storage := img', header := { session.header with counters := store'.counters } } layout layout'
          store store' := by
  refine contract.runs_of_wellFormed fun hwf => ?_
  have hrep := h.keeps.represents
  rw [hrecords] at hrep
  have hstores := hrep.stores record (by simp)
  have hformer := record.first_mem_former hfirst
  have hmem₂ : ∀ other ∈ record.ids, other ∈ layout₂.ids := fun other hother =>
    hmoved.ids_subset (hrep.mem_ids (by simp) hother)
  obtain ⟨originCapacity, t, horigin⟩ : ∃ c t, layout.header record.first = .moved c t := by
    rcases hstores.former _ hformer with hmoved | ⟨hdead, -⟩
    · exact hmoved
    · rw [hlive] at hdead
      cases hdead
  have hloose : layout.Tidy record → layout₂.Loose (record.moved id capacity payload) :=
    fun htidy => .moved htidy hmoved.previous hmoved.former
  have horigin₂ : HasRedirect layout₂ { id := record.first, capacity := originCapacity } :=
    ⟨hmem₂ _ record.first_mem, t, (hmoved.former _ hformer).trans horigin⟩
  have hprevious₂ : HasRedirect layout₂ { id := record.latest, capacity := record.capacity } :=
    ⟨hmem₂ _ List.mem_cons_self, id, hmoved.previous⟩
  have hpassed₂ : ∀ redirect ∈ passed, HasRedirect layout₂ redirect := fun redirect hredirect =>
    (hpassed redirect hredirect).2.mono (hmem₂ _ (List.mem_cons_of_mem _ (hpassed redirect hredirect).1))
      (hmoved.former _ (hpassed redirect hredirect).1)
  refine shortenChain_runs hwf htracks₂ horigin₂ hprevious₂ hpassed₂ (fun hfallible => ⟨rfl, layout₂, ?_⟩) ?_
  · -- the origin could not be rewritten, and the other redirects are left alone
    exact advances_of_moved h hstart happends hrecords hpadded hstop hchanged hchanged₂ htracks₂ hids₂ hrep₂ hmoved.rest
      (fun _ hreliable => absurd hfallible hreliable) hloose hstore' (htransition _ (.kept hfirst hfallible))
  · -- some of the redirects, `done`, lead to the origin from now on
    intro done img₃ hdone hall htracks₃ hchanged₃
    have hmem := redirects_of_record hstores hlive hfirst hpassed
    obtain ⟨hrep₃, hloose₃, hrest₃⟩ := hrep₂.shorten (by rw [record.first_moved]; exact record.first_mem)
      originCapacity (fun redirect hredirect => by
        obtain ⟨hformer', hne, -⟩ := hmem redirect (hdone.subset hredirect)
        rw [record.first_moved]
        exact ⟨hformer', hne⟩) rfl
    rw [record.first_moved] at hrep₃ hloose₃ hrest₃
    refine ⟨rfl, _, advances_of_moved h hstart happends hrecords hpadded hstop hchanged (hchanged₂.trans hchanged₃)
      htracks₃ (by rw [Layout.ids_overwrite, Layout.ids_set, hids₂]) hrep₃ (fun other hother hne => ?_)
      (fun htidy hreliable => ?_) (fun htidy => hloose₃ (hloose htidy)) hstore' (htransition _ (.shortened hfirst ?_
        (fun redirect hredirect => hmem redirect (hdone.subset hredirect)) fun hreliable => ?_))⟩
    · have hne' : other ≠ id := by
        rintro rfl
        exact absurd (h.keeps.tracks.offset_lt hother) (Nat.not_lt.2 hpadded.stop_le)
      rw [← hmoved.rest other hother hne]
      refine hrest₃ other fun hmem' => ?_
      rcases List.mem_cons.1 hmem' with heq | hmem'
      · exact hne' heq
      · exact hne hmem'
    · rw [hall hreliable]
      exact tidy_of_shortened hmoved htidy (by simp) fun redirect hredirect => (hmem redirect hredirect).2.1
    · rw [horigin]
      rfl
    · rw [hall hreliable]
      simp

/-- Where a record was found there is room for a redirect, also once other slots are there. -/
private theorem redirect_fits (h : session.Serves layout store) {record : StoredRecord} {old : ByteArray}
    (hrecord : record ∈ store.records) (hlive : record.payload = some old) {base : Layout} {id : RecordId}
    (hpadded : layout.Padded store.stop base id.offset) (slot : Slot) :
    record.latest ∈ (base.push id slot).ids ∧
      (SlotHeader.moved record.capacity id).slotSize = (base.push id slot).size record.latest := by
  obtain ⟨hmem, -, -, hsize⟩ := latest_facts h hrecord hlive
  have hslot : (base.push id slot).slot record.latest = layout.slot record.latest :=
    hpadded.slot_push_eq h.keeps.tracks hpadded.stop_le hmem
  refine ⟨List.mem_append_left _ (hpadded.ids_subset hmem), ?_⟩
  rw [Layout.size, Layout.header, hslot, ← Layout.header, ← Layout.size, hsize]
  rfl

/-- A copy that nothing leads to is a trail behind the slots. -/
private theorem trail_of_copy {base : Layout} {img : Image} {id first : RecordId} {capacity length stop : Nat}
    {payload : ByteArray}
    (hpadded : layout.Padded store.stop base id.offset) (hbase : base.Tracks img id.offset)
    (hstop : stop = id.offset + (SlotHeader.live capacity length (some first)).slotSize)
    (htracks : (base.push id { header := .live capacity length (some first), payload }).Tracks img stop)
    (hchanged : session.storage.ChangedWithin img store.stop stop) (hspare : session.storage.Spare store.stop) :
    img.Trail store.stop stop := by
  have hsize := SlotHeader.paddingSize_le_slotSize (.live capacity length (some first))
  have hlow := hpadded.stop_le
  refine .copy (hpadded.gap_of_tracks hbase) htracks.hasSlot_push ?_ (Nat.le_of_eq hstop.symm)
  rw [← hstop]
  exact hchanged.blankFrom hspare.blank (by omega)

/-- The commit of a move and what comes after it. -/
private theorem commit_performs (h : session.Serves layout store) {before after : List StoredRecord}
    {record : StoredRecord} (hrecords : store.records = before ++ record :: after) {id : RecordId}
    {capacity stop : Nat} {payload old : ByteArray} {base : Layout} {img : Image} (hlive : record.payload = some old)
    (hpadded : layout.Padded store.stop base id.offset) (hnew : store.newSlot capacity = .ok (id, stop))
    (hbase : base.Tracks img id.offset)
    (hstop : stop = id.offset + (SlotHeader.live capacity payload.size (some record.first)).slotSize)
    (htracks : (base.push id { header := .live capacity payload.size (some record.first), payload }).Tracks img stop)
    (hchanged : session.storage.ChangedWithin img store.stop stop) {passed : List Redirect}
    (hpassed : ∀ redirect ∈ passed, redirect.id ∈ record.former ∧ HasRedirect layout redirect) {store' : Store}
    (hstore' : store' = { store with records := before ++ record.moved id capacity payload :: after, stop })
    {moves : Prop} (hmoves : moves)
    {expected : Except StoreError (RecordId × Store)} (hexpected : expected = .ok (id, store')) {region : Region}
    (hregion : region = { pageSize := session.storage.pageSize, stop }) :
    Performs contract.toStorageView (do
      onSlots (Region.writeHeader record.latest.offset (.moved record.capacity id))
      setCounters store'.counters
      if record.first ≠ record.latest then
        let old : Redirect := { id := record.latest, capacity := record.capacity }
        onSlots (shortenChain region record.first old id passed)
      return id) { session with storage := img }
      (Follows contract.toStorageView (.update moves expected) session layout store expected) := by
  have hrecord : record ∈ store.records := by simp [hrecords]
  have hrep := h.keeps.represents
  obtain ⟨-, hcapacity, -, -⟩ := latest_facts h hrecord hlive
  have hle : id.offset + SlotHeader.paddingSize ≤ stop := by
    have hsize := SlotHeader.paddingSize_le_slotSize (.live capacity payload.size (some record.first))
    omega
  have hmoved := movedTo h hrecord hpadded { header := .live capacity payload.size (some record.first), payload }
  obtain ⟨hmemPush, hsizePush⟩ :=
    redirect_fits h hrecord hlive hpadded { header := .live capacity payload.size (some record.first), payload }
  have hrep₂ : ((base.push id { header := .live capacity payload.size (some record.first), payload }).set record.latest
      (.bare (.moved record.capacity id))).Represents (before ++ record.moved id capacity payload :: after) := by
    have hbaseRep := hpadded.represents h.keeps.tracks hrep
    rw [hrecords] at hbaseRep
    exact hbaseRep.move hlive (fun hid => absurd (hbase.offset_lt hid) (Nat.lt_irrefl _)) fun other hother =>
      hbase.offset_lt hother
  have hvalid : (SlotHeader.moved record.capacity id).Valid record.latest.offset := hcapacity
  have htransition : ∀ layout', Layout.Shortened contract.fallible layout record id
      ((base.push id { header := .live capacity payload.size (some record.first), payload }).set record.latest
        (.bare (.moved record.capacity id))) layout' → layout.Transition contract.fallible store layout' store' := by
    intro layout' hshortened
    rw [hstore']
    exact .moved hrecords hlive hpadded hnew hshortened
  refine Performs.step (Performs.onSlots (Region.setHeader_runs htracks hmemPush hvalid rfl hsizePush ?_ ?_))
  · intro img₂ htracks₂ hchanged₂
    refine Performs.step (Performs.setCounters ?_)
    by_cases hfirst : record.first = record.latest
    · -- the first move of a record leaves no chain to shorten
      rw [if_neg (not_not.2 hfirst)]
      refine Performs.pure ⟨_, store', advances_of_moved h rfl hmoves hrecords hpadded hle hchanged hchanged₂ htracks₂
        rfl hrep₂ hmoved.rest (fun htidy _ => tidy_of_first_move hmoved htidy hfirst)
        (fun htidy => .moved htidy hmoved.previous hmoved.former) hstore' (htransition _ (.unmoved hfirst)), ?_⟩
      rw [hexpected]
      exact .done
    · rw [if_pos hfirst]
      have hregion' : region = { pageSize := img₂.pageSize, stop } := by
        rw [hregion, hchanged₂.pageSize, hchanged.pageSize]
      rw [hregion']
      have hscope : (Scope.update moves expected (.ok id)).start = FileHeader.size := rfl
      refine Performs.step (Performs.onSlots ((shorten_performs _ h hscope hmoves hrecords hlive hfirst hpadded hle
        hchanged hchanged₂ htracks₂ rfl hrep₂ hmoved hpassed hstore' htransition).mono ?_))
      rintro _ img₃ ⟨rfl, layout₃, hadvances⟩
      refine Performs.pure ⟨layout₃, store', hadvances, ?_⟩
      rw [hexpected]
      exact .done
  · intro hfallible cause
    -- nothing leads to the copy yet
    have htracks' := h.keeps.tracks.of_changedWithin hchanged (Nat.le_refl _)
    have hreach : ∃ (latest : RecordId) (after' : Store), expected = .ok (latest, after') ∧ after'.stop = stop :=
      ⟨id, store', hexpected, by rw [hstore']⟩
    exact ⟨layout, store, advances_of_cut_off h rfl hmoves htracks' hchanged
      (fun hspare => .inr ⟨stop, hreach, trail_of_copy hpadded hbase hstop htracks hchanged hspare⟩) hfallible,
      .failed (.io hfallible cause)⟩

private theorem relocate_performs (h : session.Serves layout store) {id : RecordId} {record : StoredRecord}
    {old payload : ByteArray} (hfound : store.live id = .ok (record, old)) (hlong : ¬payload.size ≤ record.capacity)
    {passed : List Redirect}
    (hpassed : ∀ redirect ∈ passed, redirect.id ∈ record.former ∧ HasRedirect layout redirect) {header : SlotHeader} :
    Performs contract.toStorageView
      (relocate { id := record.latest, header, passed } record.capacity old.size record.former.getLast? payload) session
      (Follows contract.toStorageView (.update (store.Moves id payload) (store.update id payload)) session layout store
        (store.update id payload)) := by
  obtain ⟨hrecord, hid, hlive⟩ := Store.live_eq_ok hfound
  obtain ⟨before, after, hrecords, hchange⟩ := Store.exists_split h.keeps.represents.distinct hrecord hid
  have hpage := h.keeps.supported.fits
  have hmoves : store.Moves id payload := ⟨record, old, hfound, Nat.lt_of_not_le hlong⟩
  have hupdate := Store.update_of_lt hfound (Nat.lt_of_not_le hlong)
  unfold relocate
  refine Performs.get_bind fun actual hactual => ?_
  rw [h.region_seen hactual, h.counters_seen hactual, h.policy_seen hactual, h.capacityFor_seen hactual]
  refine Performs.step (Performs.ofExcept ?_)
  cases hcapacity : store.capacityFor payload.size (store.policy.relocated payload.size record.capacity) with
  | error e =>
    refine Follows.unchanged h ?_
    rw [hupdate, hcapacity]
    exact .refused
  | ok capacity =>
    obtain ⟨hfit, hmax⟩ := Store.capacityFor_eq_ok hcapacity
    -- a slot decodes only if its origin lies in front of it
    have horigin : ∀ origin ∈ some record.first, origin.offset < store.stop := by
      rintro _ ⟨⟩
      exact h.keeps.tracks.offset_lt (h.keeps.represents.mem_ids hrecord record.first_mem)
    refine Performs.step (Performs.ofExcept ?_)
    rw [adjust_payload h hrecords hlive (by omega)]
    refine Performs.step (Performs.ofExcept ?_)
    rw [adjust_capacity h hrecords hlive (by omega)]
    refine Performs.step (Performs.onSlots (appendSlot_runs h.keeps hcapacity horigin ?_ ?_ ?_))
    · intro latest stop base img hnew hstop hpadded hbase htracks hchanged
      have hstore' : ({ store.change id (·.moved latest capacity payload) with stop } : Store) =
          { store with records := before ++ record.moved latest capacity payload :: after, stop } := by
        rw [← hchange (·.moved latest capacity payload)]
        rfl
      generalize hmoved : ({ store.change id (·.moved latest capacity payload) with stop } : Store) = store' at hstore'
      have hexpected : store.update id payload = .ok (latest, store') := by
        rw [hupdate, hcapacity, ← hmoved]
        change (store.newSlot capacity >>= _) = _
        rw [hnew]
        rfl
      have hcounters' := counters_moved hrecords hlive (show store'.records = _ by rw [hstore'])
        (show store'.stop = stop by rw [hstore'])
      have hcommit : Performs contract.toStorageView _ _ _ :=
        commit_performs h hrecords hlive hpadded hnew hbase hstop htracks hchanged hpassed hstore' hmoves hexpected rfl
      rw [hcounters'] at hcommit
      exact hcommit
    · intro e hnew
      refine Follows.unchanged h ?_
      rw [hupdate, hcapacity]
      change Outcome _ _ (store.newSlot capacity >>= _) _ _
      rw [hnew]
      exact .refused
    · intro hfallible after' cause htracks hchanged hspare
      exact ⟨layout, store, advances_of_cut_off h rfl hmoves htracks hchanged (fun h => .inl (hspare h)) hfallible,
        .failed (.io hfallible cause)⟩

private theorem overwrite_performs (h : session.Serves layout store) {id : RecordId} {record : StoredRecord}
    {old payload : ByteArray} (hfound : store.live id = .ok (record, old)) (hfit : payload.size ≤ record.capacity) :
    Performs contract.toStorageView (do
      let counters := (← get).counters
      let livePayload ← liftExcept (adjust record.latest.offset counters.payload payload.size old.size)
      onSlots (Region.writeSlot record.latest.offset (.live record.capacity payload.size record.former.getLast?)
        payload)
      setCounters { counters with payload := livePayload }
      return record.latest) session
      (Follows contract.toStorageView (.update (store.Moves id payload) (store.update id payload)) session layout store
        (store.update id payload)) := by
  obtain ⟨hrecord, hid, hlive⟩ := Store.live_eq_ok hfound
  obtain ⟨before, after, hrecords, hchange⟩ := Store.exists_split h.keeps.represents.distinct hrecord hid
  obtain ⟨hmem, hcapacity, horigin, hsize⟩ := latest_facts h hrecord hlive
  have hstore' : store.change id (·.overwritten payload) =
      { store with records := before ++ record.overwritten payload :: after } := by
    rw [← hchange (·.overwritten payload)]
    rfl
  generalize hoverwritten : store.change id (·.overwritten payload) = store' at hstore'
  have hupdate : store.update id payload = .ok (record.latest, store') := by
    rw [Store.update_of_le hfound hfit, hoverwritten]
  have hcounters' : store'.counters =
      { store.counters with payload := store.counters.payload + payload.size - old.size } := by
    have hrecords' : store'.records = before ++ record.overwritten payload :: after := by rw [hstore']
    obtain ⟨rest, hcounters, hcounters'⟩ := Store.counters_of_split hrecords hrecords'
    have hstop : store'.stop = store.stop := by rw [hstore']
    rw [hcounters', hcounters, hstop]
    ext <;> simp [StoredRecord.share, StoredRecord.overwritten, StoredRecord.ids, hlive]
    omega
  refine Performs.get_bind fun actual hactual => ?_
  rw [h.counters_seen hactual]
  refine Performs.step (Performs.ofExcept ?_)
  rw [adjust_payload h hrecords hlive (Nat.lt_of_le_of_lt hfit hcapacity)]
  have hvalid : (Slot.mk (.live record.capacity payload.size record.former.getLast?) payload).Valid
      record.latest.offset := ⟨⟨hcapacity, hfit, horigin⟩, rfl⟩
  refine Performs.step (Performs.onSlots (Region.setSlot_runs h.keeps.tracks hmem hvalid hsize.symm ?_ ?_))
  · intro img htracks hchanged
    have hadvances : Advances contract.fallible
        (.update (store.Moves id payload) (store.update id payload) (.ok record.latest))
        session _ layout _ store store' :=
      advances_of_overwritten h rfl hrecords hlive rfl htracks hchanged hstore'
    rw [hcounters'] at hadvances
    refine Performs.step (Performs.setCounters (Performs.pure ⟨_, store', hadvances, ?_⟩))
    rw [hupdate]
    exact .done
  · intro hfallible cause
    exact Follows.unchanged h (.failed (.io hfallible cause))

theorem update_performs (h : session.Serves layout store) (id : RecordId) (payload : ByteArray) :
    Performs contract.toStorageView (update id payload) session
      (Follows contract.toStorageView (.update (store.Moves id payload) (store.update id payload)) session layout store
        (store.update id payload)) := by
  have hrefused : ∀ e, store.live id = .error e → store.update id payload = .error e := fun e hfound => by
    unfold Store.update
    rw [hfound]
    rfl
  unfold update
  refine Performs.step (Performs.ensureOpen h.opened ?_)
  refine resolveSlot_bind_performs h id hrefused (fun _ _ _ _ _ => rfl) fun record old passed hfound hpassed => ?_
  dsimp only
  by_cases hfit : payload.size ≤ record.capacity
  · rw [if_pos hfit]
    exact overwrite_performs h hfound hfit
  · rw [if_neg hfit]
    exact relocate_performs h hfound hfit hpassed

end Session

end RecordStore
