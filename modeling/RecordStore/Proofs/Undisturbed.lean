import RecordStore.Proofs.Crashes
import RecordStore.Proofs.RecordedSlots
import RecordStore.Proofs.Restarts
import RecordStore.Proofs.SlotPlaces

/-!
# Files that no failed call lies behind

The life of a file under a path while no call fails: sessions open it, use it and close it, one after the other
(`Undisturbed`).  The last one may be cut off between two operations, and what was in its cache only is lost
(`LeftBehind`).  Closing leaves the store on disk with nothing behind it, and a session that is cut off leaves the slots
that the header on disk records.  So a recount succeeds on what is left, and openings of it come to the same again and
again (`LeftBehind.restartable`).
-/

namespace RecordStore

open Bytes StorageView

inductive Phase
  | resting (entry : Entry)
  | inUse (session : Session CachedFile)

open Session in
/-- A file with pages of one size goes through the hands of sessions, and no call fails. -/
inductive Undisturbed (path : String) (pageSize : Nat) : Phase → Prop
  | missing : Undisturbed path pageSize (.resting .missing)
  | opened {entry : Entry} {policy : CapacityPolicy} {options : Options} {session : Session CachedFile}
      (h : Undisturbed path pageSize (.resting entry)) (hpageSize : options.pageSize = pageSize)
      (hframes : 1 ≤ options.frames) (hopen : openFile path entry policy options = .ok session) :
      Undisturbed path pageSize (.inUse session)
  | handled {session : Session CachedFile} (h : Undisturbed path pageSize (.inUse session)) {event : Event}
      (hreopen : ∀ policy options, event ≠ .reopen policy options) :
      Undisturbed path pageSize (.inUse (handle (fun storage => storage) event session).2)
  | scanned {session : Session CachedFile} (h : Undisturbed path pageSize (.inUse session)) {cursor : Cursor}
      (hoffset : cursor.offset < cursor.stop) (hstart : FileHeader.size ≤ cursor.stop)
      (hstop : cursor.stop ≤ session.storage.size) (haligned : cursor.stop % alignment = 0) :
      Undisturbed path pageSize (.inUse (scanSlot cursor session).2)
  | closed {session : Session CachedFile} (h : Undisturbed path pageSize (.inUse session)) :
      Undisturbed path pageSize (.resting (.regular (close session).2.storage.onDisk))

/-- What such a life leaves: a file that every session closed, or one on which the last session was cut off. -/
inductive LeftBehind (path : String) (pageSize : Nat) : Entry → Prop
  | rested {entry : Entry} (h : Undisturbed path pageSize (.resting entry)) : LeftBehind path pageSize entry
  | cutOff {session : Session CachedFile} (h : Undisturbed path pageSize (.inUse session)) :
      LeftBehind path pageSize (.regular session.storage.onDisk)

/-- What stands on disk, as an image. -/
def SparseFile.image (content : SparseFile) (pageSize : Nat) : Image :=
  { pageSize, size := content.length, byte := content.byteAt }

/-- The file holds a store that was closed, and nothing else. -/
structure Shut (pageSize : Nat) (content : SparseFile) : Prop where
  pages : content.length % pageSize = 0
  reached : content.length ≤ reach + pageSize
  kept : ∃ layout store, (content.image pageSize).Keeps layout store .closed ∧
    (content.image pageSize).Clean layout store

namespace Session

/-- The session serves a store, and pages of it have come to the disk since it last wrote the header. -/
structure Quiet (session : Session CachedFile) (pageSize : Nat) : Prop where
  usable : session.storage.Usable
  pageSize_eq : session.storage.pageSize = pageSize
  served : ∃ layout store, (session.seen (CachedFile.contract 1 (Nat.le_refl 1)).toStorageView).Serves layout store ∧
    session.storage.image.Clean layout store
  exposed : ∃ header : FileHeader, header.Valid ∧ header.status = .opened ∧ Exposed session header [] fun _ => True

variable {path : String} {entry : Entry} {policy : CapacityPolicy} {options : Options} {session : Session CachedFile}
  {layout : Layout} {store : Store} {pageSize : Nat}

namespace Quiet

/-- It starts when all is on disk. -/
theorem of_synced (husable : session.storage.Usable) (hpageSize : session.storage.pageSize = pageSize)
    (hserves : (session.seen (CachedFile.contract 1 (Nat.le_refl 1)).toStorageView).Serves layout store)
    (hclean : session.storage.image.Clean layout store) (hsynced : session.Synced) : session.Quiet pageSize := by
  have hheader : session.header = store.fileHeader .opened := hserves.header
  refine ⟨husable, hpageSize, ⟨layout, store, hserves, hclean⟩, session.header, ?_, ?_,
    .of_synced hserves hclean hsynced (List.nil_subset _) trivial⟩
  · rw [hheader]
    exact hserves.keeps.valid_fileHeader .opened
  · rw [hheader]
    rfl

/-- A file that is created. -/
theorem of_missing (hpageSize : checkPageSize options.pageSize = .ok ()) (hframes : 1 ≤ options.frames)
    (hopen : openFile path .missing policy options = .ok session) : session.Quiet options.pageSize := by
  obtain ⟨file, hfile, hopen⟩ := openFile_eq_ok.1 hopen
  rw [CachedFile.openOrCreate_missing path hpageSize] at hfile
  cases hfile
  obtain ⟨husable, hblank⟩ := CachedFile.blank_behind (supported_of_checkPageSize hpageSize) hframes
  have husable' : (CachedFile.contract options.frames hframes).Usable _ := husable
  obtain ⟨hlast, hserves, -, hzeros⟩ := (openOn_blank husable' hblank policy options).of_eq_ok hopen
  have hkept : session.storage.pageSize = options.pageSize := hserves.keeps.pageSize_eq
  exact .of_synced hlast hkept hserves (.empty hzeros) (synced_of_blank husable hblank hopen)

/-- A file that was closed. -/
theorem of_shut {content : SparseFile} (h : Shut options.pageSize content)
    (hpageSize : checkPageSize options.pageSize = .ok ()) (hframes : 1 ≤ options.frames)
    (hopen : openFile path (.regular content) policy options = .ok session) : session.Quiet options.pageSize := by
  obtain ⟨layout, store, hkeeps, hclean⟩ := h.kept
  obtain ⟨file, hfile, hopen⟩ := openFile_eq_ok.1 hopen
  rw [CachedFile.openOrCreate_regular path hpageSize h.pages] at hfile
  cases hfile
  obtain ⟨husable, himage⟩ := CachedFile.usable_behind { content, pageSize := options.pageSize }
    (supported_of_checkPageSize hpageSize).large h.pages h.reached hframes
  change _ = content.image options.pageSize at himage
  rw [← himage] at hkeeps hclean
  have husable' : (CachedFile.contract options.frames hframes).Usable _ := husable
  obtain ⟨hlast, hserves, -, hchanged, -⟩ := (openOn_closed husable' hkeeps policy options).of_eq_ok hopen
  have hclean' := hclean.of_header hkeeps.tracks hchanged
  have hkept : session.storage.pageSize = store.pageSize := hserves.keeps.pageSize_eq
  have hsame : options.pageSize = store.pageSize := (congrArg Image.pageSize himage).symm.trans hkeeps.pageSize_eq
  exact .of_synced hlast (hkept.trans hsame.symm) hserves ⟨hclean'.tidy, hclean'.blank⟩
    (synced_of_closed husable hkeeps hopen)

/-- An event that does not end the session. -/
theorem handle (h : session.Quiet pageSize) {event : Event}
    (hreopen : ∀ policy options, event ≠ .reopen policy options) :
    (handle (fun storage => storage) event session).2.Quiet pageSize := by
  obtain ⟨layout, store, hserves, hclean⟩ := h.served
  obtain ⟨header, hvalid, hstatus, hexposed⟩ := h.exposed
  have hperforms : Performs (CachedFile.contract 1 (Nat.le_refl 1)).toStorageView
      (Session.handle (fun storage => storage) event) _ _ :=
    handle_performs hserves (fun storage => storage) event hreopen fun _ => hclean.blank
  obtain ⟨husable, layout', store', hadvances, -⟩ := hperforms session h.usable rfl
  have hclean' := hadvances.clean hclean id
  have hkept : (Session.handle (fun storage => storage) event session).2.storage.pageSize = session.storage.pageSize :=
    hadvances.serves.keeps.pageSize_eq.trans (hadvances.transition.pageSize_eq.trans hserves.keeps.pageSize_eq.symm)
  -- writing the header brings all to disk, and anything else goes on from where that was
  by_cases hsyncs : event.Syncs
  · exact of_synced husable (hkept.trans h.pageSize_eq) hadvances.serves hclean'
      (handle_synced h.usable hserves hclean hsyncs hreopen)
  · exact ⟨husable, hkept.trans h.pageSize_eq, ⟨layout', store', hadvances.serves, hclean'⟩, header, hvalid, hstatus,
      hexposed.step h.usable hserves hclean hvalid (List.nil_subset _) hsyncs trivial trivial⟩

/-- A step of a scan. -/
theorem scanSlot (h : session.Quiet pageSize) {cursor : Cursor} (hoffset : cursor.offset < cursor.stop)
    (hstart : FileHeader.size ≤ cursor.stop) (hstop : cursor.stop ≤ session.storage.size)
    (haligned : cursor.stop % alignment = 0) : (scanSlot cursor session).2.Quiet pageSize := by
  obtain ⟨layout, store, hserves, hclean⟩ := h.served
  obtain ⟨header, hvalid, hstatus, hexposed⟩ := h.exposed
  have husable : (CachedFile.contract 1 (Nat.le_refl 1)).Usable session.storage := h.usable
  have hpast : session.storage.image.Past header [] fun _ => True :=
    hserves.past hclean hexposed.holds hvalid trivial (List.nil_subset _)
  have hfits : ({ pageSize := session.pageSize, stop := cursor.stop } : Region).Fits session.storage.image :=
    ⟨hserves.pageSize.symm.trans hserves.keeps.pageSize_eq.symm, hserves.keeps.pageSize_eq ▸ hserves.keeps.supported,
      hstart, hstop, haligned⟩
  have hkeeps : ∀ {σ : Type} [PagedStorage σ] (contract : StorageContract σ),
      Performs contract.toStorageView (Session.scanSlot cursor)
        (session.seen (CachedFile.contract 1 (Nat.le_refl 1)).toStorageView) fun _ after =>
          after = session.seen (CachedFile.contract 1 (Nat.le_refl 1)).toStorageView :=
    fun _ => (scanSlot_keeps hserves.opened hfits hoffset).mono fun _ _ hscanned => hscanned.1
  obtain ⟨husable', hseen⟩ := hkeeps (CachedFile.contract 1 (Nat.le_refl 1)) session husable rfl
  obtain ⟨dialogue, hstorage, hmoments⟩ := moments_perform (scanSlot_uniform cursor) husable
    (hkeeps (Unreliable.contract (CachedFile.contract 1 (Nat.le_refl 1))))
  have himage : (Session.scanSlot cursor session).2.storage.image = session.storage.image :=
    congrArg Session.storage hseen
  refine ⟨husable', (congrArg Image.pageSize himage).trans h.pageSize_eq, ⟨layout, store, ?_, himage ▸ hclean⟩, header,
    hvalid, hstatus, himage ▸ hexposed.holds, ?_⟩
  · rw [hseen]
    exact hserves
  · rw [hstorage]
    refine hexposed.lags.dialogue fun moment hmoment => ?_
    obtain ⟨husable, result, after, hafter, rfl⟩ := hmoments moment hmoment
    have hsame : session.storage.image = moment.image := hafter
    exact ⟨husable, hsame ▸ hpast⟩

/-- Closing. -/
theorem close (h : session.Quiet pageSize) : Shut pageSize (close session).2.storage.onDisk := by
  obtain ⟨layout, store, hserves, hclean⟩ := h.served
  have husable : (CachedFile.contract 1 (Nat.le_refl 1)).Usable session.storage := h.usable
  have hclose := close_serves husable hserves
  rcases hrun : Session.close session with ⟨e | ⟨⟩, closed⟩
  · rw [hrun] at hclose
    exact absurd hclose.1 id
  · rw [hrun] at hclose
    obtain ⟨husable', hkeeps, hchanged⟩ := hclose
    change (CachedFile.behind closed.storage.cache.file 1).Usable at husable'
    have hlength : (CachedFile.behind closed.storage.cache.file 1).size = closed.storage.onDisk.length := husable'.size
    have hpages : closed.storage.onDisk.length % closed.storage.cache.file.pageSize = 0 := husable'.sound.pages
    have hreached : closed.storage.onDisk.length ≤ reach + closed.storage.cache.file.pageSize :=
      hlength ▸ husable'.reached
    obtain ⟨-, himage⟩ :=
      CachedFile.usable_behind closed.storage.cache.file husable'.large hpages hreached (Nat.le_refl 1)
    have hpageSize : closed.storage.cache.file.pageSize = pageSize := hchanged.pageSize.trans h.pageSize_eq
    have hclean' := hclean.of_header hserves.keeps.tracks hchanged
    change (CachedFile.behind closed.storage.cache.file 1).image.Keeps layout store .closed at hkeeps
    change (CachedFile.behind closed.storage.cache.file 1).image.Clean layout store at hclean'
    rw [himage, hpageSize] at hkeeps hclean'
    rw [hpageSize] at hpages hreached
    exact ⟨hpages, hreached, layout, store, hkeeps, hclean'⟩

end Quiet

end Session

/-! ### What is left -/

/-- A file of whole pages with a version of its contents, no longer than any file of a store. -/
structure Stored (version : Image → Prop) (pageSize : Nat) (content : SparseFile) : Prop where
  pages : content.length % pageSize = 0
  length : content.length ≤ maxFileSize
  version : version (content.image pageSize)

variable {content : SparseFile} {pageSize : Nat} {header : FileHeader} {counters : Counters} {settled : Prop}

/-- Openings of a file with whole pages come to the same if a recount of it has a result, which the header has already
or does not claim to have. -/
theorem SparseFile.reopens_of_reads (hpageSize : checkPageSize pageSize = .ok ())
    (hpages : content.length % pageSize = 0) (hreached : content.length ≤ reach + pageSize)
    (hholds : (content.image pageSize).Holds 0 (ofList header.encode)) (hvalid : header.Valid)
    (hsame : header.pageSize = pageSize)
    (hfits : ((content.image pageSize).region header).Fits (content.image pageSize))
    (hreads : Reads (fun σ _ => (((content.image pageSize).region header).recount : SlotM σ Counters))
      (content.image pageSize) (.ok counters))
    (hcounted : header.counters = counters ∨ header.status = .opened ∧ ¬settled) :
    ∃ version, Reopens version pageSize counters settled ∧ Stored version pageSize content := by
  obtain ⟨hlarge, hsmall⟩ := le_of_checkPageSize hpageSize
  have hlength : content.length ≤ maxFileSize := Nat.le_trans hreached (Nat.add_le_add_left hsmall reach)
  obtain ⟨hbounded, himage⟩ :=
    CachedFile.bounded_behind { content, pageSize } hlarge hsmall hpages hlength (Nat.le_refl 1)
  have hrecounted := Region.recounted_of_answers (show ¬CachedFile.boundedContract.fallible from id) hbounded himage
    hfits (hreads CachedFile CachedFile.boundedContract)
  have hstands : (content.image pageSize).Stands header counters :=
    ⟨hholds, hvalid, hsame, Nat.lt_of_le_of_lt hlength (by decide), hfits, hrecounted,
      hcounted.imp_right fun ⟨hstatus, _⟩ => ⟨hstatus, hreads⟩⟩
  exact ⟨(content.image pageSize).Left counters settled, Image.reopens_left hreached, hpages, hlength, .refl _, header,
    hstands, fun hsettled => hcounted.resolve_right fun ⟨_, hnot⟩ => hnot hsettled⟩

theorem SparseFile.wellFormed_image (hpages : content.length % pageSize = 0) : (content.image pageSize).WellFormed :=
  ⟨hpages, fun _ hi => byteAt_of_le hi⟩

/-- A file that was closed. -/
theorem Shut.reopens (h : Shut pageSize content) (hpageSize : checkPageSize pageSize = .ok ()) :
    ∃ version counters, Reopens version pageSize counters True ∧ Stored version pageSize content := by
  obtain ⟨layout, store, hkeeps, hclean⟩ := h.kept
  obtain ⟨header, hholds, hstatus, hdescribes⟩ := hkeeps.header
  have hsupported := supported_of_checkPageSize hpageSize
  have htracks := hkeeps.tracks
  have hcounters : header.counters = store.counters := hdescribes.closed hstatus
  have hregion : (content.image pageSize).region header = { pageSize, stop := store.stop } := by
    unfold Image.region
    rw [hcounters]
    rfl
  have hcounted : ({ layout.totals layout.ids with size := store.stop } : Counters) = header.counters := by
    rw [hkeeps.totals_eq, hcounters]
    rfl
  have hreads : Reads (fun σ _ => (((content.image pageSize).region header).recount : SlotM σ Counters))
      (content.image pageSize) (.ok header.counters) := fun σ _ contract => by
    rw [hregion, ← hcounted]
    exact Region.recount_answers (SparseFile.wellFormed_image h.pages) hsupported htracks hkeeps.represents
      (.blank hclean.blank) (List.append_nil _).symm htracks.tiles
  obtain ⟨version, hreopens⟩ := SparseFile.reopens_of_reads hpageSize h.pages h.reached hholds hdescribes.valid
    (hdescribes.pageSize.trans hkeeps.pageSize_eq.symm) (hregion ▸ htracks.fits hsupported) hreads (.inl rfl)
  exact ⟨version, header.counters, hreopens⟩

/-- At all moments since the header was written the slots are there that it records. -/
theorem Image.Past.covers {img : Image} {old : List RecordId} {stores : Store → Prop} (h : img.Past header old stores)
    (hsupported : SupportedPageSize header.pageSize) : img.Covers header := by
  obtain ⟨hpageSize, layout, stop, store, -, hdepicts⟩ := h
  obtain ⟨before, htracks⟩ := hdepicts.version.tracks.exists_cut hdepicts.version.boundary
  exact ⟨hpageSize ▸ hsupported, hpageSize, _, htracks⟩

namespace Session.Quiet

variable {session : Session CachedFile}

/-- What is on disk has the header that was written last, and the slots that this header records. -/
theorem leaves (h : session.Quiet pageSize) (hsupported : SupportedPageSize pageSize) :
    ∃ header : FileHeader, header.Valid ∧ header.status = .opened ∧ header.pageSize = pageSize ∧
      session.storage.Leaves header ∧ session.storage.disk.Holds 0 (ofList header.encode) := by
  obtain ⟨layout, store, hserves, hclean⟩ := h.served
  obtain ⟨header, hvalid, hstatus, hexposed⟩ := h.exposed
  have hpast : session.storage.image.Past header [] fun _ => True :=
    hserves.past hclean hexposed.holds hvalid trivial (List.nil_subset _)
  have hsame : header.pageSize = pageSize := hpast.1.symm.trans h.pageSize_eq
  rw [← hsame] at hsupported
  have hbacks : session.storage.Backs header := by
    refine ⟨h.usable, hpast.covers hsupported, fun page => ?_⟩
    obtain ⟨img, himg, hbytes⟩ := hexposed.lags page
    exact ⟨img, himg.covers hsupported, hbytes⟩
  refine ⟨header, hvalid, hstatus, hsame, hbacks.leaves, ?_⟩
  obtain ⟨img, ⟨-, _, _, _, -, hdepicts⟩, hbytes⟩ := hexposed.lags.header h.usable.large
  exact hdepicts.version.holds.congr fun i _ hi => hbytes i (by simpa using hi)

/-- A file on which the session was cut off. -/
theorem reopens (h : session.Quiet pageSize) (hpageSize : checkPageSize pageSize = .ok ()) :
    ∃ version counters, Reopens version pageSize counters False ∧ Stored version pageSize session.storage.onDisk := by
  obtain ⟨header, hvalid, hstatus, hsame, ⟨hpages, hreached, hcovers⟩, hholds⟩ :=
    h.leaves (supported_of_checkPageSize hpageSize)
  have hdisk : session.storage.disk = session.storage.onDisk.image pageSize := by
    rw [← h.pageSize_eq]
    rfl
  rw [h.pageSize_eq] at hpages hreached
  rw [hdisk] at hcovers hholds
  obtain ⟨layout, htracks⟩ := hcovers.tracks
  obtain ⟨counters, -, hreads⟩ :=
    Region.recount_reads_of_tracks (SparseFile.wellFormed_image hpages) hcovers.supported htracks
  obtain ⟨version, hreopens⟩ := SparseFile.reopens_of_reads hpageSize hpages hreached hholds hvalid hsame
    (htracks.fits hcovers.supported) hreads (.inr ⟨hstatus, id⟩)
  exact ⟨version, counters, hreopens⟩

end Session.Quiet

/-- A file that is not there yet. -/
theorem Image.stored_empty (hpageSize : checkPageSize pageSize = .ok ()) : Stored (Unused pageSize) pageSize .empty :=
  ⟨Nat.zero_mod _, Nat.zero_le _, rfl, supported_of_checkPageSize hpageSize, fun _ _ => rfl, .inl fun _ _ => rfl⟩

/-! ### All the while -/

/-- What is true of the file as long as no call fails. -/
inductive Phase.Sound (pageSize : Nat) : Phase → Prop
  | missing : Sound pageSize (.resting .missing)
  | shut {content : SparseFile} (h : Shut pageSize content) : Sound pageSize (.resting (.regular content))
  | quiet {session : Session CachedFile} (h : session.Quiet pageSize) : Sound pageSize (.inUse session)

/-- Openings of the file under a path come to the same, again and again. -/
def Entry.Restartable (entry : Entry) (pageSize : Nat) (settled : Prop) : Prop :=
  ∃ version counters content, Reopens version pageSize counters settled ∧ entry.Provides content ∧
    Stored version pageSize content

variable {path : String} {entry : Entry} {phase : Phase}

theorem Undisturbed.sound (h : Undisturbed path pageSize phase) (hpageSize : checkPageSize pageSize = .ok ()) :
    phase.Sound pageSize := by
  induction h with
  | missing => exact .missing
  | opened _ hsame hframes hopen ih =>
    subst hsame
    cases ih with
    | missing => exact .quiet (.of_missing hpageSize hframes hopen)
    | shut h => exact .quiet (.of_shut h hpageSize hframes hopen)
  | handled _ hreopen ih =>
    cases ih with
    | quiet h => exact .quiet (h.handle hreopen)
  | scanned _ hoffset hstart hstop haligned ih =>
    cases ih with
    | quiet h => exact .quiet (h.scanSlot hoffset hstart hstop haligned)
  | closed _ ih =>
    cases ih with
    | quiet h => exact .shut h.close

theorem Undisturbed.restartable (h : Undisturbed path pageSize (.resting entry))
    (hpageSize : checkPageSize pageSize = .ok ()) : entry.Restartable pageSize True := by
  cases h.sound hpageSize with
  | missing => exact ⟨_, _, .empty, Image.reopens_unused, .inr ⟨rfl, rfl⟩, Image.stored_empty hpageSize⟩
  | @shut content hshut =>
    obtain ⟨version, counters, hreopens, hstored⟩ := hshut.reopens hpageSize
    exact ⟨version, counters, content, hreopens, .inl rfl, hstored⟩

/-- What is left behind can be opened again and again, and even without a recount if every session closed it. -/
theorem LeftBehind.restartable (h : LeftBehind path pageSize entry) (hpageSize : checkPageSize pageSize = .ok ()) :
    entry.Restartable pageSize (Undisturbed path pageSize (.resting entry)) := by
  -- the same bytes may be left by a session that was cut off and by one that was not
  by_cases hrested : Undisturbed path pageSize (.resting entry)
  · obtain ⟨version, counters, content, hreopens, hprovides⟩ := hrested.restartable hpageSize
    exact ⟨version, counters, content, hreopens.of_settled fun _ => trivial, hprovides⟩
  · cases h with
    | rested h => exact absurd h hrested
    | cutOff h =>
      cases h.sound hpageSize with
      | quiet hquiet =>
        obtain ⟨version, counters, hreopens, hstored⟩ := hquiet.reopens hpageSize
        exact ⟨version, counters, _, hreopens.of_settled hrested, .inl rfl, hstored⟩

end RecordStore
