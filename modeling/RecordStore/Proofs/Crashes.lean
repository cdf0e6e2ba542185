import RecordStore.Proofs.FileSessions
import RecordStore.Proofs.Moments
import RecordStore.Proofs.Salvage

/-!
# Crashes that lose the cache

A session on a file goes on for a while after it last wrote the file header, and then the cache is lost.  The pages on
disk are from different moments since then (`Exposed`).  Opening the file with a recount finds the slots in them all
the same, and a record that was not moved since is found as it was at one of these moments (`Exposed.salvaged`,
`Recovered`): it is read so (`flushed_records_survive`, `unmoved_records_are_read`).
-/

namespace RecordStore

open Bytes StorageView

namespace Session

variable {frames : Nat} {hframes : 1 ≤ frames} {session : Session CachedFile} {store : Store} {header : FileHeader}
  {old : List RecordId} {stores : Store → Prop}

/-- The run has gone on through `stores` since `header` was written, and some pages of it are on disk. -/
structure Exposed (session : Session CachedFile) (header : FileHeader) (old : List RecordId) (stores : Store → Prop) :
    Prop where
  holds : session.storage.image.Holds 0 (ofList header.encode)
  lags : session.storage.Lags (Image.Past header old stores)

namespace Exposed

variable {layout : Layout}

/-- It starts when all is on disk. -/
theorem of_synced (hserves : (session.seen (CachedFile.contract frames hframes).toStorageView).Serves layout store)
    (hclean : session.storage.image.Clean layout store) (hsynced : session.Synced) (hold : old ⊆ store.ids)
    (hstores : stores store) : Exposed session session.header old stores := by
  have hheader : session.header = store.fileHeader .opened := hserves.header
  have hvalid : session.header.Valid := by
    rw [hheader]
    exact hserves.keeps.valid_fileHeader .opened
  have hids : old ⊆ layout.ids := fun id hid => by
    obtain ⟨record, hrecord, hid⟩ := Store.mem_ids.1 (hold hid)
    exact hserves.keeps.represents.mem_ids hrecord hid
  have hpast : session.storage.image.Past session.header old stores :=
    hserves.past hclean hsynced.header hvalid hstores hids
  exact ⟨hsynced.header, fun page => ⟨_, hpast, fun i _ => hsynced.disk i⟩⟩

/-- And it goes on with every event that does not write the header. -/
theorem step (h : Exposed session header old stores) (husable : session.storage.Usable)
    (hserves : (session.seen (CachedFile.contract frames hframes).toStorageView).Serves layout store)
    (hclean : session.storage.image.Clean layout store) (hvalid : header.Valid) (hold : old ⊆ store.ids) {event : Event}
    (hevent : ¬event.Syncs) (hbefore : stores store) (hafter : stores (store.respond event).2) :
    Exposed (handle (fun storage => storage) event session).2 header old stores := by
  have hids : old ⊆ layout.ids := fun id hid => by
    obtain ⟨record, hrecord, hid⟩ := Store.mem_ids.1 (hold hid)
    exact hserves.keeps.represents.mem_ids hrecord hid
  have hperforms : Performs (CachedFile.contract frames hframes).toStorageView
      (handle (fun storage => storage) event) _ _ :=
    handle_performs hserves (fun storage => storage) event (by rintro policy options rfl; exact hevent trivial)
      (by rintro rfl; exact absurd trivial hevent)
  obtain ⟨-, layout', store', hadvances, -⟩ := hperforms session husable rfl
  have hstart := store.start_scope hevent (handle (fun storage => storage) event session).1
  refine ⟨h.holds.congr fun i _ hi => hadvances.head i (by simpa [hstart] using hi), ?_⟩
  exact lags_handle husable hserves hclean h.holds hvalid hids hevent hbefore hafter h.lags

theorem run (path : String) (h : Exposed session header old stores)
    (hintact : Intact (CachedFile.contract frames hframes) session store) (hvalid : header.Valid)
    (hpageSize : checkPageSize store.pageSize = .ok ()) (hold : old ⊆ store.ids) {events : List Event}
    (hevents : ∀ event ∈ events, ¬event.Syncs)
    (hstores : ∀ done, done <+: events → stores (runAll Store.respond done store).2) :
    Exposed (runAll (handleFile path) events session).2 header old stores := by
  -- each event adds a moment from which pages may be on the disk
  induction events generalizing session store with
  | nil => exact h
  | cons event rest ih =>
    have hevent := hevents event List.mem_cons_self
    obtain ⟨-, hintact', -⟩ := handleFile_step path hintact hpageSize (Event.suits_of_not_syncs hevent store.pageSize)
    have hbefore : stores store := hstores [] List.nil_prefix
    have hafter : stores (store.respond event).2 := hstores [event] ⟨rest, rfl⟩
    obtain ⟨layout, hserves, hclean⟩ := hintact.served
    have hstep := h.step hintact.usable hserves hclean hvalid hold hevent hbefore hafter
    rw [← handleFile_of_not_syncs path hevent] at hstep
    rw [← store.pageSize_respond event] at hpageSize
    rw [runAll_cons]
    have hrest : ∀ event ∈ rest, ¬event.Syncs := fun event hevent => hevents event (List.mem_cons_of_mem _ hevent)
    refine ih hstep hintact' hpageSize (fun id hid => ?_) hrest fun done hdone => ?_
    · exact (store.mem_ids_respond event id).2 (.inl (hold hid))
    · exact hstores (event :: done) (List.cons_prefix_cons.2 ⟨rfl, hdone⟩)

/-- Pages of a run that are on disk after a crash are opened with a recount, as far as their slots go. -/
theorem opens (path : String) (h : Exposed session header old stores)
    (hintact : Intact (CachedFile.contract frames hframes) session store) (hvalid : header.Valid)
    (hstatus : header.status = .opened) (hpageSize : checkPageSize header.pageSize = .ok ()) (policy : CapacityPolicy)
    {options : Options} (hsuits : options.Suits header.pageSize) (hrecover : options.recover = true) :
    ∃ found disk layouts layout stop, openFile path (.regular session.storage.onDisk) policy options = .ok found ∧
      found.storage.Usable ∧ found.maxHops = options.maxHops ∧
      found.counters = { layout.totals layout.ids with size := stop } ∧
      (found.seen (CachedFile.contract frames hframes).toStorageView).Walks layout ∧
      Patchwork.Found disk header (fun id => ∃ store, stores store ∧ id ∈ store.ids) layouts layout stop ∧
      ∀ page, ∃ (img : Image) (stop : Nat) (store : Store), stores store ∧
        img.Depicts header old (layouts page) stop store := by
  obtain ⟨layout, hserves, -⟩ := hintact.served
  have husable := hintact.usable
  have hsupported := supported_of_checkPageSize hpageSize
  obtain ⟨header', hheader', -, hdescribes⟩ := hserves.keeps.header
  obtain rfl := h.holds.header_unique hheader' hvalid hdescribes.valid
  have hfile : session.storage.pageSize = header'.pageSize :=
    hserves.keeps.pageSize_eq.trans hdescribes.pageSize.symm
  have hlength : session.storage.size = session.storage.onDisk.length := husable.size
  have hpages : session.storage.onDisk.length % session.storage.pageSize = 0 := husable.sound.pages
  have hreached : session.storage.onDisk.length ≤ reach + session.storage.pageSize := hlength ▸ husable.reached
  obtain ⟨husable', himage⟩ :=
    CachedFile.usable_behind session.storage.cache.file husable.large hpages hreached hsuits.frames
  -- every page of what is opened is from the run
  have hversions : ∀ page : Nat, ∃ layout, ∃ (img : Image) (stop : Nat) (store : Store), stores store ∧
      img.Depicts header' old layout stop store ∧ img.pageSize = header'.pageSize ∧
      ∀ i, i / session.storage.pageSize = page → session.storage.onDisk.byteAt i = img.byte i := by
    intro page
    obtain ⟨img, ⟨hsize, layout, stop, store, hstore, hdepicts⟩, hbytes⟩ := h.lags page
    exact ⟨layout, img, stop, store, hstore, hdepicts, hsize, hbytes⟩
  choose layouts hlayouts using hversions
  have hpatchwork : Patchwork (CachedFile.behind session.storage.cache.file options.frames).image header'
      (fun id => ∃ store, stores store ∧ id ∈ store.ids) layouts := by
    have hwellFormed := (CachedFile.contract options.frames hsuits.frames).wellFormed husable'
    change (CachedFile.behind session.storage.cache.file options.frames).image.WellFormed at hwellFormed
    rw [himage] at hwellFormed ⊢
    refine ⟨?_, hwellFormed, ?_, fun page => ?_⟩
    · change SupportedPageSize session.storage.pageSize
      rw [hfile]
      exact hsupported
    · change header'.counters.size ≤ session.storage.onDisk.length
      rw [← hlength]
      exact Nat.le_trans (hdescribes.boundary.bounds hserves.keeps.tracks).2.1 hserves.keeps.tracks.bound
    · obtain ⟨img, stop, store, hstore, hdepicts, hsize, hbytes⟩ := hlayouts page
      exact ⟨img, stop, hdepicts.version.mono fun id hid => ⟨store, hstore, hid⟩, hsize.trans hfile.symm, hbytes⟩
  have husable'' : (CachedFile.contract options.frames hsuits.frames).Usable
    (.behind session.storage.cache.file options.frames) := husable'
  obtain ⟨layout', stop, hfound, hopens⟩ := openOn_patched husable'' hpatchwork hvalid hfile.symm hstatus policy
    hrecover
  obtain ⟨found, hopen, hfoundUsable, hwalks, hmaxHops, hcounters⟩ :=
    hopens.exists_session fun e img hfailed => hfailed.1
  refine ⟨found, _, layouts, layout', stop, ?_, hfoundUsable, hmaxHops, hcounters, hwalks, hfound, fun page => ?_⟩
  · rw [← hfile] at hpageSize
    exact openFile_regular path hpageSize hpages (hsuits.pageSize.trans hfile.symm) hopen
  · obtain ⟨img, stop, store, hstore, hdepicts, -⟩ := hlayouts page
    exact ⟨img, stop, store, hstore, hdepicts⟩

end Exposed

/-! ### What is found -/

/-- So many new records. -/
def inserts (payloads : List ByteArray) : List Event := payloads.map fun payload => .request (.insert payload)

/-- The answer to a read of a record with this payload, or without one if it was deleted. -/
def answerTo (id : RecordId) : Option ByteArray → Except StoreError Reply
  | none => .error (.deleted id)
  | some payload => .ok (.payload payload)

/-- The answer to the question where such a record lives. -/
def placeOf (id last : RecordId) : Option ByteArray → Except StoreError Reply
  | none => .error (.deleted id)
  | some _ => .ok (.id last)

/-- A session on a file that was salvaged, with these slots. -/
structure Salvaged (found : Session CachedFile) (layout : Layout) : Prop where
  usable : found.storage.Usable
  hops : 2 ≤ found.maxHops
  walks : (found.seen (CachedFile.contract 1 (Nat.le_refl 1)).toStorageView).Walks layout

namespace Salvaged

variable {found : Session CachedFile} {layout : Layout} {id last : RecordId} {payload : Option ByteArray}

theorem resolve_notFound (h : Salvaged found layout) (hid : id ∈ layout.ids → (layout.header id).state = .padding) :
    (perform (.resolve id) found).1 = .error (.notFound id) := by
  have hperforms : Performs (CachedFile.contract 1 (Nat.le_refl 1)).toStorageView (resolve id) _ _ :=
    h.walks.resolve_performs_notFound hid
  have hresolve : (resolve id found).1 = .error (.notFound id) :=
    (hperforms found h.usable rfl).2.resolve_right fun hfailed => hfailed.1
  change ((resolve id >>= fun id => pure (Reply.id id)) found).1 = _
  rw [SessionM.bind_pure_apply, hresolve]
  rfl

theorem resolve_eq (h : Salvaged found layout) (hshows : layout.Shows 2 id last payload) :
    (perform (.resolve id) found).1 = placeOf id last payload := by
  have hperforms : Performs (CachedFile.contract 1 (Nat.le_refl 1)).toStorageView (resolve id) _ _ :=
    h.walks.resolve_performs hshows h.hops
  have hresolve : (resolve id found).1 = payload.elim (.error (.deleted id)) (fun _ => .ok last) :=
    (hperforms found h.usable rfl).2.2.resolve_right fun hfailed => hfailed.1
  change ((resolve id >>= fun id => pure (Reply.id id)) found).1 = _
  rw [SessionM.bind_pure_apply, hresolve]
  cases payload <;> rfl

theorem read_eq (h : Salvaged found layout) (hshows : layout.Shows 2 id last payload) :
    (perform (.read id) found).1 = answerTo id payload := by
  have hperforms : Performs (CachedFile.contract 1 (Nat.le_refl 1)).toStorageView (read id) _ _ :=
    h.walks.read_performs hshows h.hops
  have hread : (read id found).1 = payload.elim (.error (.deleted id)) .ok :=
    (hperforms found h.usable rfl).2.2.resolve_right fun hfailed => hfailed.1
  change ((read id >>= fun bytes => pure (Reply.payload bytes)) found).1 = _
  rw [SessionM.bind_pure_apply, hread]
  cases payload <;> rfl

/-- New records go behind what is there. -/
theorem inserts_run (path : String) (payloads : List ByteArray) (h : Salvaged found layout) :
    ∃ layout', Salvaged (runAll (handleFile path) (inserts payloads) found).2 layout' ∧ layout.Extends layout' := by
  induction payloads generalizing found layout with
  | nil => exact ⟨layout, h, .refl layout⟩
  | cons payload rest ih =>
    have hperforms : Performs (CachedFile.contract 1 (Nat.le_refl 1)).toStorageView (insert payload) _ _ :=
      h.walks.insert_performs payload
    obtain ⟨husable, layout', hwalks, hextends, hmaxHops⟩ := hperforms found h.usable rfl
    have hstep : (handleFile path (.request (.insert payload)) found).2 = (insert payload found).2 := by
      change ((insert payload >>= fun id => pure (Reply.id id)) found).2 = _
      rw [SessionM.bind_pure_apply]
    have hnext : Salvaged (handleFile path (.request (.insert payload)) found).2 layout' := by
      rw [hstep]
      exact ⟨husable, Nat.le_trans h.hops (Nat.le_of_eq hmaxHops.symm), hwalks⟩
    obtain ⟨layout'', hlast, hextends'⟩ := ih hnext
    exact ⟨layout'', hlast, hextends.trans hextends'⟩

/-- What the slots show is read, and after any number of new records too. -/
theorem read_inserts_run (path : String) (payloads : List ByteArray) (h : Salvaged found layout)
    (hshows : layout.Shows 2 id last payload) :
    (perform (.read id) (runAll (handleFile path) (inserts payloads) found).2).1 = answerTo id payload := by
  obtain ⟨layout', hlast, hextends⟩ := h.inserts_run path payloads
  exact hlast.read_eq (hshows.extend hextends)

end Salvaged

/-- A slot that never had another one beside it in its record shows the record as it was at some moment. -/
private theorem showsAlone_of_found {disk : Image} {known : RecordId → Prop} {layouts : Nat → Layout} {layout : Layout}
    {stop : Nat} (hfound : Patchwork.Found disk header known layouts layout stop)
    (hmoments : ∀ page, ∃ (img : Image) (stop : Nat) (store : Store), stores store ∧
      img.Depicts header old (layouts page) stop store) {id : RecordId}
    (halone : ∀ store, stores store → ∀ record ∈ store.records, id ∈ record.ids → record.ids = [id]) :
    layout.ShowsAlone id fun payload => ∃ store, stores store ∧ ∃ record ∈ store.records,
      record.ids = [id] ∧ record.payload = payload := by
  intro hid hstate
  obtain ⟨img, last, store, hstore, hdepicts⟩ := hmoments (id.offset / disk.pageSize)
  rw [hfound.header_eq] at hstate
  rcases hdepicts.version.accounted id (hfound.present id hid) hstate with hmem | ⟨hbehind, _, _, first, hcopy⟩
  · obtain ⟨record, hrecord, hid'⟩ := Store.mem_ids.1 hmem
    have hids := halone store hstore record hrecord hid'
    obtain ⟨hlatest, hformer⟩ := List.cons.inj hids
    have hstores := (hdepicts.stores record hrecord).1
    refine ⟨⟨record.payload, ⟨store, hstore, record, hrecord, hids, rfl⟩, ?_⟩, fun capacity length origin hlive => ?_⟩
    · cases hpayload : record.payload with
      | some payload =>
        have hlive := hstores.live payload hpayload
        rw [hlatest, ← hfound.slot] at hlive
        exact .live hid hlive
      | none =>
        obtain ⟨length, hdead⟩ := hstores.dead hpayload
        rw [hlatest, ← hfound.header_eq] at hdead
        exact .deleted hid hdead
    · rw [hfound.header_eq] at hlive
      obtain ⟨-, -, horigin⟩ := hstores.eq_latest_of_live hid' hlive
      rw [horigin, hformer]
      rfl
  · -- a copy that was counted is led to, from a slot of its record
    rw [← hfound.header_eq] at hcopy
    obtain ⟨other, hother, capacity, hmoved⟩ := hfound.led id hid hbehind _ _ first hcopy
    obtain ⟨img, last, store, hstore, hdepicts⟩ := hmoments (other.offset / disk.pageSize)
    rw [hfound.header_eq] at hmoved
    obtain ⟨record, hrecord, hformer, hid'⟩ := hdepicts.exists_moved (hfound.present other hother) hmoved
    rw [(List.cons.inj (halone store hstore record hrecord hid')).2] at hformer
    cases hformer

/-- What is found after a crash: no identifier that was not handed out, and under those of a record that was not moved
since the header was written, what the record was at some moment since then.  The slots found are counted. -/
theorem Exposed.salvaged (path : String) (h : Exposed session header old stores)
    (hintact : Intact (CachedFile.contract frames hframes) session store) (hvalid : header.Valid)
    (hstatus : header.status = .opened) (hpageSize : checkPageSize header.pageSize = .ok ())
    (hold : ∀ id ∈ old, id.offset < header.counters.size) (policy : CapacityPolicy) {options : Options}
    (hsuits : options.Suits header.pageSize) (hrecover : options.recover = true) :
    ∃ found layout, openFile path (.regular session.storage.onDisk) policy options = .ok found ∧
      Salvaged found layout ∧ header.counters.size ≤ found.counters.size ∧
      found.counters = { layout.totals layout.ids with size := found.counters.size } ∧
      (∀ id, (∀ store, stores store → id ∉ store.ids) → id ∈ layout.ids → (layout.header id).state = .padding) ∧
      (∀ record : StoredRecord, record.ids ⊆ old →
        (∀ store, stores store → ∃ other ∈ store.records, other.ids = record.ids) →
          layout.Retains record fun payload => ∃ store, stores store ∧ ∃ other ∈ store.records,
            other.ids = record.ids ∧ other.payload = payload) ∧
      ∀ id, (∀ store, stores store → ∀ record ∈ store.records, id ∈ record.ids → record.ids = [id]) →
        layout.ShowsAlone id fun payload => ∃ store, stores store ∧ ∃ record ∈ store.records,
          record.ids = [id] ∧ record.payload = payload := by
  obtain ⟨found, disk, layouts, layout, stop, hopen, husable, hmaxHops, hcounters, hwalks, hfound, hlayouts⟩ :=
    h.opens path hintact hvalid hstatus hpageSize policy hsuits hrecover
  have hhops : 2 ≤ found.maxHops := Nat.le_trans hsuits.maxHops (Nat.le_of_eq hmaxHops.symm)
  have hstop : found.counters.size = stop := by rw [hcounters]
  refine ⟨found, layout, hopen, ⟨husable, hhops, hwalks⟩, hstop ▸ hfound.recorded, by rw [hstop, ← hcounters],
    fun id hid hmem => ?_, fun record hids hrecord => hfound.retains (fun page => ?_) fun id hid => hold id (hids hid),
    fun id halone => showsAlone_of_found hfound hlayouts halone⟩
  · by_contra hstate
    obtain ⟨store, hstore, hmem⟩ := hfound.known id hmem hstate
    exact hid store hstore hmem
  · obtain ⟨img, stop, store, hstore, hdepicts⟩ := hlayouts page
    obtain ⟨other, hother, hsame⟩ := hrecord store hstore
    obtain ⟨hstores, hsubset⟩ := hdepicts.stores other hother
    rw [← hsame] at hids
    exact ⟨other, hsame, hstores, hdepicts.settled other hother hids, ⟨store, hstore, other, hother, hsame, rfl⟩,
      hsame ▸ hsubset⟩

/-! ### Runs -/

/-- A run on a file with pages of this size, cut in two behind the last event that wrote the file header. -/
structure CutRun (pageSize : Nat) (before after : List Event) : Prop where
  synced : before = [] ∨ ∃ front event, before = front ++ [event] ∧ event.Syncs
  unsynced : ∀ event ∈ after, ¬event.Syncs
  suits : ∀ event ∈ before, event.Suits pageSize

namespace CutRun

variable {pageSize : Nat} {before after : List Event}

/-- Every run can be cut so. -/
theorem exists_append {events : List Event} (h : ∀ event ∈ events, event.Suits pageSize) :
    ∃ before after, events = before ++ after ∧ CutRun pageSize before after := by
  induction events using List.reverseRecOn with
  | nil => exact ⟨[], [], rfl, .inl rfl, nofun, nofun⟩
  | append_singleton events event ih =>
    by_cases hsyncs : event.Syncs
    · exact ⟨events ++ [event], [], by simp, .inr ⟨events, event, rfl, hsyncs⟩, nofun, h⟩
    · obtain ⟨before, after, rfl, hrun⟩ := ih fun other hother => h other (List.mem_append_left _ hother)
      refine ⟨before, after ++ [event], List.append_assoc .., hrun.synced, fun other hother => ?_, hrun.suits⟩
      rcases List.mem_append.1 hother with hother | hother
      · exact hrun.unsynced other hother
      · rw [List.mem_singleton.1 hother]
        exact hsyncs

/-- Between the two parts all is on disk. -/
theorem exists_flushed (path : String) (policy : CapacityPolicy) {options : Options}
    (hpageSize : checkPageSize options.pageSize = .ok ()) (hsuits : options.Suits options.pageSize)
    (h : CutRun options.pageSize before after) :
    ∃ session, openFile path .missing policy options = .ok session ∧
      (runAll (handleFile path) before session).1 =
        (runAll Store.respond before (.empty options.pageSize policy)).1 ∧
      Intact (CachedFile.contract options.frames hsuits.frames) (runAll (handleFile path) before session).2
        (runAll Store.respond before (.empty options.pageSize policy)).2 ∧
      (runAll (handleFile path) before session).2.Synced := by
  obtain ⟨session, hopen, hintact, hsynced⟩ := openFile_missing path policy hpageSize hsuits
  have hempty : checkPageSize (Store.empty options.pageSize policy).pageSize = .ok () := hpageSize
  have hsuits' : ∀ event ∈ before, event.Suits (Store.empty options.pageSize policy).pageSize := h.suits
  obtain ⟨hresults, hflushed⟩ := handleFile_run path hintact hempty hsuits'
  refine ⟨session, hopen, hresults, hflushed, ?_⟩
  rcases h.synced with rfl | ⟨front, event, rfl, hsyncs⟩
  · exact hsynced
  · exact handleFile_run_synced path hintact hempty hsuits' hsyncs

end CutRun

/-- What is found when the cache was lost of a run through `after`, that began at `store` with everything on disk: the
slots are counted, none names a record that was not there, a record that was not moved since shows what it was at some
moment, and so does a record that never moved, if its slot is there. -/
structure Recovered (found : Session CachedFile) (layout : Layout) (store : Store) (after : List Event) : Prop where
  salvaged : Salvaged found layout
  counters : found.counters = { layout.totals layout.ids with size := found.counters.size }
  missing : ∀ id, id ∉ (runAll Store.respond after store).2.ids → id ∈ layout.ids →
    (layout.header id).state = .padding
  retains : ∀ record ∈ store.records, (∃ last ∈ (runAll Store.respond after store).2.records, last.ids = record.ids) →
    layout.Retains record (store.Fate after record)
  alone : ∀ record ∈ (runAll Store.respond after store).2.records, record.former = [] →
    layout.ShowsAlone record.latest (store.Fate after record)

/-- What is found after a run whose cache was lost. -/
theorem Synced.salvaged_run (path : String) (h : session.Synced)
    (hintact : Intact (CachedFile.contract frames hframes) session store)
    (hpageSize : checkPageSize store.pageSize = .ok ()) {after : List Event} (hafter : ∀ event ∈ after, ¬event.Syncs)
    (policy : CapacityPolicy) {options : Options} (hsuits : options.Suits store.pageSize)
    (hrecover : options.recover = true) :
    ∃ found layout, openFile path (.regular (runAll (handleFile path) after session).2.storage.onDisk) policy options =
        .ok found ∧ session.counters.size ≤ found.counters.size ∧ Recovered found layout store after := by
  have hsuits' : ∀ event ∈ after, event.Suits store.pageSize := fun event hevent =>
    Event.suits_of_not_syncs (hafter event hevent) store.pageSize
  have hdistinct : ∀ done, done <+: after → (runAll Store.respond done store).2.ids.Nodup := fun done hdone => by
    obtain ⟨-, hdone'⟩ := handleFile_run path hintact hpageSize fun event hevent => hsuits' event (hdone.subset hevent)
    exact hdone'.nodup_ids
  obtain ⟨layout, hserves, hclean⟩ := hintact.served
  have hheader : session.header = store.fileHeader .opened := hserves.header
  have hvalid := hserves.keeps.valid_fileHeader .opened
  have hbelow : ∀ id ∈ store.ids, id.offset < store.stop := fun id hid => by
    obtain ⟨record, hrecord, hid⟩ := Store.mem_ids.1 hid
    exact hserves.keeps.tracks.offset_lt (hserves.keeps.represents.mem_ids hrecord hid)
  -- every page on the disk is as it was at some moment since the header was written
  have hexposed : Exposed session session.header store.ids fun moment =>
      ∃ done, done <+: after ∧ moment = (runAll Store.respond done store).2 :=
    .of_synced hserves hclean h (List.Subset.refl _) ⟨[], List.nil_prefix, rfl⟩
  rw [← hheader] at hvalid
  have hlast := hexposed.run path hintact hvalid hpageSize (List.Subset.refl _) hafter fun done hdone =>
    ⟨done, hdone, rfl⟩
  obtain ⟨-, hintact'⟩ := handleFile_run path hintact hpageSize hsuits'
  have hstatus : session.header.status = .opened := by
    rw [hheader]
    rfl
  have hsize : session.header.counters.size = store.stop := by
    rw [hheader]
    rfl
  have hheaderSize : session.header.pageSize = store.pageSize := by
    rw [hheader]
    rfl
  rw [← hheaderSize] at hpageSize hsuits
  rw [← hsize] at hbelow
  obtain ⟨found, layout', hopen, hsalvaged, hrange, hcounters, hmissing, hretains, halone⟩ :=
    hlast.salvaged path hintact' hvalid hstatus hpageSize hbelow policy hsuits hrecover
  refine ⟨found, layout', hopen, hrange, hsalvaged, hcounters, fun id hid => hmissing id ?_,
    fun record hrecord ⟨last, hlast, hids⟩ => ?_, fun record hrecord hformer => ?_⟩
  · rintro _ ⟨done, ⟨rest, rfl⟩, rfl⟩ hmem
    apply hid
    rw [runAll_append, Store.mem_ids_runAll]
    exact .inl hmem
  · have hsubset : record.ids ⊆ store.ids := fun id hid => Store.mem_ids.2 ⟨record, hrecord, hid⟩
    -- the record has the same slots at all of these moments
    have hmoments : ∀ moment, (∃ done, done <+: after ∧ moment = (runAll Store.respond done store).2) →
        ∃ other ∈ moment.records, other.ids = record.ids := by
      rintro _ ⟨done, hdone, rfl⟩
      exact Store.exists_unmoved hdistinct hrecord hlast hids hdone
    have hfate := hretains record hsubset hmoments
    refine ⟨fun id hid => ?_, hfate.latest⟩
    obtain ⟨payload, last, ⟨_, ⟨done, hdone, rfl⟩, hother⟩, hshows⟩ := hfate.shows id hid
    exact ⟨payload, last, ⟨done, hdone, hother⟩, hshows⟩
  · have hids : record.ids = [record.latest] := by
      unfold StoredRecord.ids
      rw [hformer]
    -- what has become of a record has all of its slots
    have hshows := halone record.latest fun moment hmoment other hother hid => by
      obtain ⟨done, ⟨rest, rfl⟩, rfl⟩ := hmoment
      have hgrows := Store.growsTo_last hdistinct hother hrecord hid List.mem_cons_self
      have hsuffix := hgrows.ids
      rw [hids] at hsuffix
      exact hsuffix.eq_of_length_le (List.length_pos_of_mem hid)
    refine fun hid hstate => (hshows hid hstate).imp_left ?_
    rintro ⟨payload, ⟨_, ⟨done, hdone, rfl⟩, other, hother, hsame, hpayload⟩, hshown⟩
    exact ⟨payload, ⟨done, hdone, other, hother, hsame.trans hids.symm, hpayload⟩, hshown⟩

/-- A run from a missing file that loses its cache behind `after`, and what is found of it. -/
theorem CutRun.salvaged (path : String) (policy : CapacityPolicy) {options : Options}
    (hpageSize : checkPageSize options.pageSize = .ok ()) (hsuits : options.Suits options.pageSize)
    {before after : List Event} (hrun : CutRun options.pageSize before after) :
    ∃ session, openFile path .missing policy options = .ok session ∧
      let flushed := runAll (handleFile path) before session
      let lost := runAll (handleFile path) after flushed.2
      let expected := runAll Store.respond before (.empty options.pageSize policy)
      flushed.1 = expected.1 ∧ lost.1 = (runAll Store.respond after expected.2).1 ∧
      (∀ done, done <+: after → (runAll Store.respond done expected.2).2.ids.Nodup) ∧
      ∀ (policy' : CapacityPolicy) (options' : Options), options'.Suits options.pageSize → options'.recover = true →
        ∃ found layout, openFile path (.regular lost.2.storage.onDisk) policy' options' = .ok found ∧
          flushed.2.counters.size ≤ found.counters.size ∧ Recovered found layout expected.2 after := by
  obtain ⟨session, hopen, hresults, hintact, hsynced⟩ := hrun.exists_flushed path policy hpageSize hsuits
  refine ⟨session, hopen, ?_⟩
  intro flushed lost expected
  have hflushed : checkPageSize expected.2.pageSize = .ok () := by
    rw [Store.pageSize_runAll]
    exact hpageSize
  have hdone : ∀ done, done <+: after → (runAll (handleFile path) done flushed.2).1 =
      (runAll Store.respond done expected.2).1 ∧ (runAll Store.respond done expected.2).2.ids.Nodup := by
    intro done hdone
    obtain ⟨hresults, hintact⟩ := handleFile_run path hintact hflushed fun event hevent =>
      Event.suits_of_not_syncs (hrun.unsynced event (hdone.subset hevent)) _
    exact ⟨hresults, hintact.nodup_ids⟩
  obtain ⟨hlost, -⟩ := hdone after (List.prefix_refl after)
  refine ⟨hresults, hlost, fun done hprefix => (hdone done hprefix).2, fun policy' options' hsuits' hrecover => ?_⟩
  rw [← show expected.2.pageSize = options.pageSize from Store.pageSize_runAll _ _] at hsuits'
  exact hsynced.salvaged_run path hintact hflushed hrun.unsynced policy' hsuits' hrecover

/-- A run from a missing file loses its cache between two events.  Opening the file with a recount succeeds, and the
slots found reach as far as those that were flushed.  What resolves then was handed out, and a record that has not
changed since the last flush is read through each of its identifiers, whatever new records come. -/
theorem flushed_records_survive (path : String) (policy : CapacityPolicy) {options : Options}
    (hpageSize : checkPageSize options.pageSize = .ok ()) (hsuits : options.Suits options.pageSize)
    {before after : List Event} (hrun : CutRun options.pageSize before after) :
    ∃ session, openFile path .missing policy options = .ok session ∧
      let flushed := runAll (handleFile path) before session
      let lost := runAll (handleFile path) after flushed.2
      let expected := runAll Store.respond before (.empty options.pageSize policy)
      flushed.1 = expected.1 ∧ lost.1 = (runAll Store.respond after expected.2).1 ∧
      ∀ (policy' : CapacityPolicy) (options' : Options), options'.Suits options.pageSize → options'.recover = true →
        ∃ found, openFile path (.regular lost.2.storage.onDisk) policy' options' = .ok found ∧
          flushed.2.counters.size ≤ found.counters.size ∧
          (∀ id, (perform (.resolve id) found).1 ≠ .error (.notFound id) →
            id ∈ handedOut before flushed.1 ∨ id ∈ handedOut after lost.1) ∧
          ∀ record ∈ expected.2.records, ∀ payload, record.payload = some payload →
            (∀ done, done <+: after → record ∈ (runAll Store.respond done expected.2).2.records) →
              ∀ id ∈ record.ids, ∀ payloads,
                (perform (.read id) (runAll (handleFile path) (inserts payloads) found).2).1 =
                  .ok (.payload payload) := by
  obtain ⟨session, hopen, hresults, hlost, hdistinct, hsalvage⟩ := hrun.salvaged path policy hpageSize hsuits
  refine ⟨session, hopen, hresults, hlost, fun policy' options' hsuits' hrecover => ?_⟩
  obtain ⟨found, layout, hfound, hrange, hrecovered⟩ := hsalvage policy' options' hsuits' hrecover
  refine ⟨found, hfound, hrange, fun id hresolves => ?_,
    fun record hrecord payload hpayload hunchanged id hid payloads => ?_⟩
  · -- an identifier that was never handed out names no slot of a record
    by_contra hnot
    refine hresolves (hrecovered.salvaged.resolve_notFound (hrecovered.missing id ?_))
    rw [Store.mem_ids_runAll, Store.mem_ids_runAll, ← hresults, ← hlost]
    rintro ((hempty | hid) | hid)
    · exact List.not_mem_nil hempty
    · exact hnot (.inl hid)
    · exact hnot (.inr hid)
  · have hlast := hunchanged after (List.prefix_refl after)
    obtain ⟨_, last, ⟨done, hprefix, other, hother, hsame, rfl⟩, -, hshows⟩ :=
      (hrecovered.retains record hrecord ⟨record, hlast, rfl⟩).shows id hid
    have hfirst := Store.record?_of_mem (hdistinct done hprefix) (hunchanged done hprefix) hid
    rw [Store.record?_of_mem (hdistinct done hprefix) hother (hsame ▸ hid)] at hfirst
    rw [hrecovered.salvaged.read_inserts_run path payloads hshows, Option.some.inj hfirst, hpayload]
    rfl

/-- A cache of a single page. -/
def onePage : Options := { pageSize := 256, frames := 1, maxHops := 2, recover := true }

def flushedRecord : StoredRecord := { latest := firstId, former := [], capacity := 3, payload := some ⟨#[1, 2, 3]⟩ }

/-- Records that take the page from the flushed one. -/
def laterEvents : List Event := inserts [⟨Array.replicate 200 1⟩, ⟨Array.replicate 200 2⟩]

theorem not_changes_laterEvents : ∀ event ∈ laterEvents, ∀ id, ¬event.Changes id := by
  intro event hevent id
  obtain ⟨payload, -, rfl⟩ := List.mem_map.1 hevent
  exact not_false

theorem flushed_record_survives : ∃ session, openFile "store" .missing .exactDefault onePage = .ok session ∧
    let flushed := runAll (handleFile "store") [.request (.insert ⟨#[1, 2, 3]⟩), .request .flush] session
    let lost := runAll (handleFile "store") laterEvents flushed.2
    ∃ found, openFile "store" (.regular lost.2.storage.onDisk) .exactDefault onePage = .ok found ∧ ∀ payloads,
      (perform (.read firstId) (runAll (handleFile "store") (inserts payloads) found).2).1 =
        .ok (.payload ⟨#[1, 2, 3]⟩) := by
  have hsuits : onePage.Suits onePage.pageSize := by decide
  have hrun : CutRun onePage.pageSize [.request (.insert ⟨#[1, 2, 3]⟩), .request .flush] laterEvents :=
    ⟨.inr ⟨[_], _, rfl, trivial⟩, by decide, by decide⟩
  obtain ⟨session, hopen, -, -, hsurvive⟩ :=
    flushed_records_survive "store" .exactDefault (by decide) hsuits hrun
  obtain ⟨found, hfound, -, -, hkept⟩ := hsurvive .exactDefault onePage hsuits rfl
  refine ⟨session, hopen, found, hfound, fun payloads => ?_⟩
  have hrecord : flushedRecord ∈ (runAll Store.respond [.request (.insert ⟨#[1, 2, 3]⟩), .request .flush]
      (.empty onePage.pageSize .exactDefault)).2.records := List.mem_singleton.2 (by rfl)
  refine hkept flushedRecord hrecord _ rfl (fun done hdone => ?_) firstId List.mem_cons_self payloads
  exact Store.mem_records_runAll hrecord fun event hevent id _ => not_changes_laterEvents event (hdone.subset hevent) id

/-- A record that was not moved between the last flush and the crash is read through each of its identifiers as it was
at some moment in between, or was deleted then; whatever new records come. -/
theorem unmoved_records_are_read (path : String) (policy : CapacityPolicy) {options : Options}
    (hpageSize : checkPageSize options.pageSize = .ok ()) (hsuits : options.Suits options.pageSize)
    {before after : List Event} (hrun : CutRun options.pageSize before after) :
    ∃ session, openFile path .missing policy options = .ok session ∧
      let lost := runAll (handleFile path) after (runAll (handleFile path) before session).2
      let flushed := (runAll Store.respond before (.empty options.pageSize policy)).2
      ∀ (policy' : CapacityPolicy) (options' : Options), options'.Suits options.pageSize → options'.recover = true →
        ∃ found, openFile path (.regular lost.2.storage.onDisk) policy' options' = .ok found ∧
          ∀ record ∈ flushed.records, (∃ last ∈ (runAll Store.respond after flushed).2.records, last.ids = record.ids) →
            ∀ id ∈ record.ids, ∃ payload, flushed.Fate after record payload ∧ ∀ payloads,
              (perform (.read id) (runAll (handleFile path) (inserts payloads) found).2).1 = answerTo id payload := by
  obtain ⟨session, hopen, -, -, -, hsalvage⟩ := hrun.salvaged path policy hpageSize hsuits
  refine ⟨session, hopen, fun policy' options' hsuits' hrecover => ?_⟩
  obtain ⟨found, layout, hfound, -, hrecovered⟩ := hsalvage policy' options' hsuits' hrecover
  refine ⟨found, hfound, fun record hrecord hunmoved id hid => ?_⟩
  obtain ⟨payload, last, hfate, -, hshows⟩ := (hrecovered.retains record hrecord hunmoved).shows id hid
  exact ⟨payload, hfate, fun payloads => hrecovered.salvaged.read_inserts_run path payloads hshows⟩

/-- The store with the flushed record alone. -/
def flushedStore : Store := { pageSize := 256, policy := .exactDefault, records := [flushedRecord], stop := 88 }

/-- The record is overwritten in place. -/
def overwrittenLater : List Event := [.request (.update firstId ⟨#[4, 5]⟩), .request (.insert ⟨#[6]⟩)]

theorem overwritten_record_is_read : ∃ session, openFile "store" .missing .exactDefault onePage = .ok session ∧
    let flushed := runAll (handleFile "store") [.request (.insert ⟨#[1, 2, 3]⟩), .request .flush] session
    let lost := runAll (handleFile "store") overwrittenLater flushed.2
    ∃ found, openFile "store" (.regular lost.2.storage.onDisk) .exactDefault onePage = .ok found ∧
      ∃ payload, flushedStore.Fate overwrittenLater flushedRecord payload ∧ ∀ payloads,
        (perform (.read firstId) (runAll (handleFile "store") (inserts payloads) found).2).1 =
          answerTo firstId payload := by
  have hsuits : onePage.Suits onePage.pageSize := by decide
  have hrun : CutRun onePage.pageSize [.request (.insert ⟨#[1, 2, 3]⟩), .request .flush] overwrittenLater :=
    ⟨.inr ⟨[_], _, rfl, trivial⟩, by decide, by decide⟩
  obtain ⟨session, hopen, hread⟩ := unmoved_records_are_read "store" .exactDefault (by decide) hsuits hrun
  obtain ⟨found, hfound, hkept⟩ := hread .exactDefault onePage hsuits rfl
  refine ⟨session, hopen, found, hfound, ?_⟩
  have hrecords : (runAll Store.respond overwrittenLater flushedStore).2.records =
      [{ latest := secondId, former := [], capacity := 1, payload := some ⟨#[6]⟩ },
        flushedRecord.overwritten ⟨#[4, 5]⟩] := by rfl
  have hlast : flushedRecord.overwritten ⟨#[4, 5]⟩ ∈
      (runAll Store.respond overwrittenLater flushedStore).2.records := by
    rw [hrecords]
    exact List.mem_cons_of_mem _ List.mem_cons_self
  exact hkept flushedRecord (List.mem_singleton.2 rfl) ⟨_, hlast, rfl⟩ firstId List.mem_cons_self

end Session

end RecordStore
