import RecordStore.Proofs.Updating

/-!
# Deletions

A record is deleted from the moment its latest slot is a tombstone.  Burying its redirects comes after that and may
stop anywhere: a redirect that is left behind still leads to a tombstone of the record.
-/

namespace RecordStore

open StorageView

namespace Layout

variable {layout layout' : Layout} {record : StoredRecord}

/-- What is kept while the redirects of a deleted record are buried one by one. -/
private structure Buries (layout : Layout) (record : StoredRecord) (layout' : Layout) : Prop where
  stores : layout'.Stores record.deleted
  tidy : layout.Tidy record → layout'.Tidy record.deleted
  rest : ∀ id ∉ record.ids, layout'.slot id = layout.slot id

private theorem buries_start (h : layout.Stores record) (length : Nat) :
    Buries layout record (layout.set record.latest (.bare (.deleted record.capacity length false))) where
  stores := h.deleted
  tidy := fun htidy => Tidy.set htidy rfl
  rest := fun _ hid => slot_set_of_ne _ _ fun heq => hid (heq ▸ List.mem_cons_self)

private theorem Buries.step (h : Buries layout record layout') {id : RecordId} (hid : id ∈ record.former)
    (capacity : Nat) : Buries layout record (layout'.set id (.bare (.deleted capacity 0 true))) where
  stores := h.stores.buried rfl hid
  tidy := fun htidy => (h.tidy htidy).set rfl
  rest := fun other hother => by
    have hother' : other ≠ id := by
      rintro rfl
      exact hother (List.mem_cons_of_mem _ hid)
    rw [slot_set_of_ne _ _ hother', h.rest other hother]

/-- What deleting a record and burying some of its redirects makes of a layout. -/
private theorem buries (h : layout.Stores record) (length : Nat) {done : List Redirect}
    (hdone : ∀ redirect ∈ done, redirect.id ∈ record.former) :
    Buries layout record ((layout.set record.latest (.bare (.deleted record.capacity length false))).overwrite
      (fun redirect => .deleted redirect.capacity 0 true) done) :=
  overwrite_induction (buries_start h length) fun _ hmid redirect hredirect =>
    hmid.step (hdone redirect hredirect) redirect.capacity

end Layout

namespace Session

variable {σ : Type} [PagedStorage σ] {contract : StorageContract σ} {session : Session Image} {layout : Layout}
  {store : Store}

/-- The counters after a deletion. -/
private theorem counters_deleted {before after : List StoredRecord} {record : StoredRecord} {old : ByteArray}
    (hrecords : store.records = before ++ record :: after) (hlive : record.payload = some old) {store' : Store}
    (hrecords' : store'.records = before ++ record.deleted :: after) (hstop : store'.stop = store.stop) :
    store'.counters =
      { store.counters with
        deleted := store.counters.deleted + 1
        payload := store.counters.payload + 0 - old.size
        capacity := store.counters.capacity + 0 - record.capacity } := by
  obtain ⟨rest, hcounters, hcounters'⟩ := Store.counters_of_split hrecords hrecords'
  rw [hcounters, hcounters', hstop]
  ext <;> simp [StoredRecord.share, StoredRecord.deleted, StoredRecord.ids, hlive]

/-- A record that was deleted stays so, however many of its redirects were buried. -/
private theorem advances_of_deleted (h : session.Serves layout store) {before after : List StoredRecord}
    {record : StoredRecord} (hrecords : store.records = before ++ record :: after) {old : ByteArray}
    (hlive : record.payload = some old) (length : Nat) {done : List Redirect}
    (hdone : ∀ redirect ∈ done, redirect.id ∈ record.former ∧
      (layout.header redirect.id).capacity = redirect.capacity)
    (hall : ¬contract.fallible → ∀ id ∈ record.former.getLast?, id ∈ done.map (·.id)) {layout' : Layout} {img : Image}
    (hlayout' : layout' = (layout.set record.latest (.bare (.deleted record.capacity length false))).overwrite
      (fun redirect => .deleted redirect.capacity 0 true) done)
    (htracks : layout'.Tracks img store.stop) (hchanged : session.storage.ChangedWithin img FileHeader.size store.stop)
    {store' : Store} (hstore' : store' = { store with records := before ++ record.deleted :: after }) :
    Advances contract.fallible .slots session
      { session with storage := img, header := { session.header with counters := store'.counters } } layout layout'
      store store' := by
  have hrecords' : store'.records = before ++ record.deleted :: after := by rw [hstore']
  have hstop : store'.stop = store.stop := by rw [hstore']
  have hrep := h.keeps.represents
  rw [hrecords] at hrep
  have hburies := Layout.buries (hrep.stores record (by simp)) length fun redirect hredirect =>
    (hdone redirect hredirect).1
  rw [← hlayout'] at hburies
  have htransition : layout.Transition contract.fallible store layout' store' := by
    rw [hlayout', hstore']
    exact .deleted hrecords hlive hdone hall
  have hids : layout'.ids = layout.ids := by
    rw [hlayout', Layout.ids_overwrite, Layout.ids_set]
  have hids' : record.deleted.ids = record.ids := rfl
  rw [← hstop] at htracks hchanged
  refine advances_of_change h rfl hrecords hrecords' (by rw [hstore']) (by rw [hstore']) (.inl hstop) htracks
    hchanged (hrep.change hids hids' hburies.stores hburies.rest) (fun at' hboundary => ?_)
    (fun id _ => hburies.rest id) (fun htidy _ => hburies.tidy htidy) (fun htidy => (hburies.tidy htidy).loose)
    (fun htidy _ => hburies.tidy htidy) htransition
  rw [hstop]
  unfold Layout.Boundary at hboundary ⊢
  rw [hids]
  exact hboundary

/-- Burying the redirects of a record that was deleted, as far as that succeeds. -/
private theorem buryRedirects_runs (h : session.Serves layout store) {before after : List StoredRecord}
    {record : StoredRecord} (hrecords : store.records = before ++ record :: after) {old : ByteArray}
    (hlive : record.payload = some old) {length : Nat} {img : Image}
    (htracks : (layout.set record.latest (.bare (.deleted record.capacity length false))).Tracks img store.stop)
    (hchanged : session.storage.ChangedWithin img FileHeader.size store.stop) {passed : List Redirect}
    (hpassed : ∀ redirect ∈ passed, redirect.id ∈ record.former ∧ HasRedirect layout redirect) {store' : Store}
    (hstore' : store' = { store with records := before ++ record.deleted :: after }) :
    contract.Runs (do
      let redirects ← redirectsToBury { pageSize := img.pageSize, stop := store.stop } record.former.getLast? passed
      overwriteRedirects (fun redirect => .deleted redirect.capacity 0 true) redirects) img
      fun result img' => result = .ok () ∧ ∃ layout', Advances contract.fallible .slots session
        { session with storage := img', header := { session.header with counters := store'.counters } } layout layout'
        store store' := by
  refine contract.runs_of_wellFormed fun hwf => ?_
  have hrecord : record ∈ store.records := by simp [hrecords]
  have hrep := h.keeps.represents
  have hstores := hrep.stores record hrecord
  have hkept : ∀ {redirect}, redirect.id ∈ record.former → HasRedirect layout redirect →
      HasRedirect (layout.set record.latest (.bare (.deleted record.capacity length false))) redirect :=
    fun hformer hredirect => hredirect.mono hredirect.1 (Layout.header_set_of_ne _ _ (hstores.latest_ne hformer).symm)
  have horigin : ∀ id ∈ record.former.getLast?, ∃ capacity,
      HasRedirect (layout.set record.latest (.bare (.deleted record.capacity length false))) { id, capacity } := by
    intro origin horigin
    have hformer := List.mem_of_getLast? horigin
    rcases hstores.former origin hformer with ⟨capacity, target, hmoved⟩ | ⟨hdead, -⟩
    · exact ⟨capacity, hkept hformer ⟨hrep.mem_ids hrecord (List.mem_cons_of_mem _ hformer), target, hmoved⟩⟩
    · rw [hlive] at hdead
      cases hdead
  refine Runs.step (redirectsToBury_runs hwf htracks horigin
    (fun redirect hredirect => hkept (hpassed redirect hredirect).1 (hpassed redirect hredirect).2)
    fun redirects hredirects horigins => ?_)
  refine overwriteRedirects_runs htracks
    (fun redirect hredirect => (hredirects redirect hredirect).1.replaces_deleted htracks)
    fun done img' hdone hall htracks' hchanged' => ?_
  -- whichever of the redirects were buried, they are former slots of the record
  have hdone' : ∀ redirect ∈ done, redirect.id ∈ record.former ∧
      (layout.header redirect.id).capacity = redirect.capacity := by
    intro redirect hredirect
    obtain ⟨⟨-, target, hheader⟩, hmem'⟩ := hredirects redirect (hdone.subset hredirect)
    have hformer : redirect.id ∈ record.former := by
      rcases hmem' with hmem' | hmem'
      · exact (hpassed redirect hmem').1
      · exact List.mem_of_getLast? hmem'
    rw [Layout.header_set_of_ne _ _ (hstores.latest_ne hformer).symm] at hheader
    exact ⟨hformer, by rw [hheader]; rfl⟩
  have horigins' : ¬contract.fallible → ∀ id ∈ record.former.getLast?, id ∈ done.map (·.id) := by
    intro hreliable
    rw [hall hreliable]
    exact horigins hreliable
  exact ⟨rfl, _, advances_of_deleted h hrecords hlive length hdone' horigins' rfl htracks' (hchanged.trans hchanged')
    hstore'⟩

private theorem bury_performs (h : session.Serves layout store) {id : RecordId} {record : StoredRecord}
    {old : ByteArray} (hfound : store.live id = .ok (record, old)) {passed : List Redirect}
    (hpassed : ∀ redirect ∈ passed, redirect.id ∈ record.former ∧ HasRedirect layout redirect) :
    Performs contract.toStorageView (do
      let session ← get
      let counters := session.counters
      let livePayload ← liftExcept (adjust record.latest.offset counters.payload 0 old.size)
      let liveCapacity ← liftExcept (adjust record.latest.offset counters.capacity 0 record.capacity)
      onSlots (Region.writeHeader record.latest.offset (.deleted record.capacity old.size false))
      setCounters { counters with
        deleted := counters.deleted + 1
        payload := livePayload
        capacity := liveCapacity }
      onSlots do
        let redirects ← redirectsToBury session.region record.former.getLast? passed
        overwriteRedirects (fun redirect => .deleted redirect.capacity 0 true) redirects) session
      (Follows contract.toStorageView (fun _ => .slots) session layout store
        ((store.delete id).map fun store => ((), store))) := by
  obtain ⟨hrecord, hid, hlive⟩ := Store.live_eq_ok hfound
  obtain ⟨before, after, hrecords, hchange⟩ := Store.exists_split h.keeps.represents.distinct hrecord hid
  obtain ⟨hmem, hcapacity, -, hsize⟩ := latest_facts h hrecord hlive
  have hstores := h.keeps.represents.stores record hrecord
  have hstore' : store.change id (·.deleted) = { store with records := before ++ record.deleted :: after } := by
    rw [← hchange (·.deleted)]
    rfl
  generalize hdeleted : store.change id (·.deleted) = store' at hstore'
  have hdelete : (store.delete id).map (fun store => ((), store)) = .ok ((), store') := by
    unfold Store.delete
    rw [hfound, ← hdeleted]
    rfl
  have hcounters' := counters_deleted hrecords hlive (show store'.records = _ by rw [hstore'])
    (show store'.stop = store.stop by rw [hstore'])
  refine Performs.get_bind fun actual hactual => ?_
  rw [h.region_seen hactual, h.counters_seen hactual]
  refine Performs.step (Performs.ofExcept ?_)
  rw [adjust_payload h hrecords hlive (by decide)]
  refine Performs.step (Performs.ofExcept ?_)
  rw [adjust_capacity h hrecords hlive (by decide)]
  have hlength : old.size ≤ record.capacity := by
    have hvalid := (h.keeps.tracks.valid _ hmem).header.payloadLength_le
    rw [hstores.live old hlive] at hvalid
    exact hvalid
  have hvalid : (SlotHeader.deleted record.capacity old.size false).Valid record.latest.offset := ⟨hcapacity, hlength⟩
  refine Performs.step (Performs.onSlots (Region.setHeader_runs h.keeps.tracks hmem hvalid rfl hsize.symm ?_ ?_))
  · intro img₁ htracks₁ hchanged₁
    refine Performs.step (Performs.setCounters (Performs.onSlots ?_))
    rw [← hchanged₁.pageSize]
    -- the record is deleted by now, whatever becomes of its redirects
    refine (buryRedirects_runs h hrecords hlive htracks₁ hchanged₁ hpassed hstore').mono ?_
    rintro _ img₂ ⟨rfl, layout', hadvances⟩
    rw [hcounters'] at hadvances
    refine ⟨layout', store', hadvances, ?_⟩
    rw [hdelete]
    exact .done
  · intro hfallible cause
    exact Follows.unchanged h (.failed (.io hfallible cause))

theorem delete_performs (h : session.Serves layout store) (id : RecordId) :
    Performs contract.toStorageView (delete id) session
      (Follows contract.toStorageView (fun _ => .slots) session layout store
        ((store.delete id).map fun store => ((), store))) := by
  have hrefused : ∀ e, store.live id = .error e →
      (store.delete id).map (fun store => ((), store)) = .error e := fun e hfound => by
    unfold Store.delete
    rw [hfound]
    rfl
  unfold delete
  refine Performs.step (Performs.ensureOpen h.opened ?_)
  exact resolveSlot_bind_performs h id hrefused (fun _ _ _ _ _ => rfl) fun record old passed hfound hpassed =>
    bury_performs h hfound hpassed

end Session

end RecordStore
