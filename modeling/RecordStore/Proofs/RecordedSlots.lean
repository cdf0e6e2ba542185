import RecordStore.Proofs.FileSessions
import RecordStore.Proofs.Moments
import RecordStore.Proofs.Salvage
import RecordStore.Proofs.Saving

/-!
# The slots that the file header records

Which slots are on disk at some moment of a run in which calls fail.  Slots keep their places, so once the file header
has been written and flushed, every page on disk holds the slots in front of the end that this header records, whatever
is written back when (`CachedFile.Backs`).  A recount on such a file succeeds, no matter what stands behind these
slots (`openOn_covered`).  Both together say what a crash leaves, even one in the middle of a flush
(`recorded_slots_are_on_disk`).
-/

namespace RecordStore

open Bytes StorageView

theorem Layout.Tracks.fits {layout : Layout} {img : Image} {stop : Nat} (h : layout.Tracks img stop)
    (hsupported : SupportedPageSize img.pageSize) : ({ pageSize := img.pageSize, stop } : Region).Fits img :=
  ⟨rfl, hsupported, h.size_le_stop, h.bound, h.stop_mod⟩

theorem Session.Serves.sound {session : Session Image} {layout : Layout} {store : Store}
    (h : session.Serves layout store) : session.Sound := by
  refine ⟨h.opened, ?_⟩
  rw [h.region_eq]
  exact h.keeps.tracks.fits (h.keeps.pageSize_eq ▸ h.keeps.supported)

/-- A recount over slots succeeds, whatever stands behind them. -/
theorem Region.recount_reads_of_tracks {img : Image} {layout : Layout} {stop : Nat} (hwf : img.WellFormed)
    (hsupported : SupportedPageSize img.pageSize) (h : layout.Tracks img stop) : ∃ counters, stop ≤ counters.size ∧
      Reads (fun σ _ => (Region.recount { pageSize := img.pageSize, stop } : SlotM σ Counters)) img (.ok counters) := by
  have hstart : layout.Tiles img.pageSize Census.start.offset layout.ids stop := h.tiles
  obtain ⟨census, hcounts, -, hreads⟩ := Region.extendCensus_reads ((h.fits hsupported).whole hwf)
    (Region.censusOf layout .start layout.ids)
  have hle := hcounts.le
  rw [Region.offset_censusOf h.tiles] at hle
  refine ⟨census.counters, hle, fun σ _ contract => ?_⟩
  unfold Region.recount
  refine (Region.takeCensus_answers hwf h rfl (fun _ hid => hid) hstart).bind ?_
  refine contract.size_answers.bind ?_
  exact (hreads σ contract).bind (Answers.pure _)

/-- The image has slots as far as the header says. -/
structure Image.Covers (img : Image) (header : FileHeader) : Prop where
  supported : SupportedPageSize img.pageSize
  pageSize : img.pageSize = header.pageSize
  tracks : ∃ layout : Layout, layout.Tracks img header.counters.size

/-- A file that was cut off is opened with a recount if the slots are there that its header records. -/
theorem Session.openOn_covered {σ : Type} [PagedStorage σ] {contract : StorageContract σ} {storage : σ}
    (husable : contract.Usable storage) {header : FileHeader} (h : (contract.image storage).Covers header)
    (hholds : (contract.image storage).Holds 0 (ofList header.encode)) (hvalid : header.Valid)
    (hstatus : header.status = .opened) (policy : CapacityPolicy) {options : Options}
    (hrecover : options.recover = true) :
    Opens contract storage policy options (fun session => header.counters.size ≤ session.counters.size)
      fun e _ => contract.fallible ∧ ∃ cause, e = .io cause := by
  obtain ⟨layout, htracks⟩ := h.tracks
  have hload := loadHeader_answers_of_holds contract hholds hvalid h.pageSize.symm h.supported htracks.size_le_stop
    htracks.bound htracks.stop_mod
  obtain ⟨counters, hle, hrecount⟩ :=
    Region.recount_reads_of_tracks (contract.wellFormed husable) h.supported htracks
  refine opens_of husable (hload.mono ?_)
  rintro result _ ⟨rfl, rfl | ⟨hfallible, cause, rfl⟩⟩
  · dsimp only
    rw [hrecover]
    have hclosed : decide (header.status = .closed) = false := by rw [hstatus]; rfl
    refine start_performs_counted hclosed (Nat.le_trans htracks.size_le_stop htracks.bound) (hrecount σ contract)
      (fun header' hheader' => ?_) fun hfallible _ cause => ⟨hfallible, cause, rfl⟩
    change header.counters.size ≤ header'.counters.size
    rw [hheader']
    exact hle
  · exact ⟨hfallible, cause, rfl⟩

/-! ### What is on disk -/

namespace CachedFile

variable {file file' : CachedFile} {header : FileHeader}

/-- What another process would find in the file. -/
def disk (file : CachedFile) : Image :=
  { pageSize := file.pageSize, size := file.onDisk.length, byte := file.onDisk.byteAt }

/-- The file when these frames have been written back, as a flush does with one after the other. -/
def writtenBack (file : CachedFile) (indices : List FrameIndex) : CachedFile :=
  { file with cache := (PageCache.writeBackAll indices file.cache).2 }

/-- Every page on disk has the slots that the header records. -/
structure Backs (file : CachedFile) (header : FileHeader) : Prop where
  usable : file.Usable
  covers : file.image.Covers header
  lags : file.Lags fun img => img.Covers header

/-- The file can be opened again, and the slots that the header records are in it. -/
structure Leaves (file : CachedFile) (header : FileHeader) : Prop where
  pages : file.onDisk.length % file.pageSize = 0
  reached : file.onDisk.length ≤ reach + file.pageSize
  covers : file.disk.Covers header

namespace Backs

/-- It starts when all is on disk. -/
theorem of_saved (husable : file.Usable) (hcovers : file.image.Covers header) (hsaved : file.Saved) :
    file.Backs header :=
  ⟨husable, hcovers, fun _ => ⟨file.image, hcovers, fun i _ => hsaved.byteAt i⟩⟩

/-- It goes on as long as the slots stay where they are. -/
theorem becomes (h : file.Backs header) {img : Image} (hbecomes : file.Becomes file' img)
    (hcovers : img.Covers header) : file'.Backs header := by
  refine ⟨hbecomes.usable, ?_, hbecomes.lags _ h.covers hcovers h.lags⟩
  rw [hbecomes.image]
  exact hcovers

theorem writtenBack (h : file.Backs header) (indices : List FrameIndex) :
    (file.writtenBack indices).Backs header := by
  obtain ⟨cache', hwrite, hsound, hkeeps, -⟩ := PageCache.writeBackAll_keeps h.usable.sound indices
  have hturns := h.usable.ready.turnsInto hsound hkeeps
  have hfile : file.writtenBack indices = { file with cache := cache' } := by
    unfold CachedFile.writtenBack
    rw [hwrite]
  rw [hfile]
  exact h.becomes (hturns.becomes h.usable rfl h.usable.reached) h.covers

/-- The slots are there if the pages are read from disk. -/
theorem leaves (h : file.Backs header) : file.Leaves header := by
  have hpages : file.onDisk.length % file.pageSize = 0 := h.usable.sound.pages
  have hlength : file.size = file.onDisk.length := h.usable.size
  obtain ⟨layout, htracks⟩ := h.covers.tracks
  have hpageSize : file.pageSize = header.pageSize := h.covers.pageSize
  have hbound : header.counters.size ≤ file.onDisk.length := hlength ▸ htracks.bound
  have hblank : ∀ i, file.onDisk.length ≤ i → file.onDisk.byteAt i = 0 := fun i hi => SparseFile.byteAt_of_le hi
  have hversions : ∀ page : Nat, ∃ (img : Image) (layout : Layout), img.pageSize = file.pageSize ∧
      layout.Tracks img header.counters.size ∧ ∀ i, i / file.pageSize = page → file.onDisk.byteAt i = img.byte i := by
    intro page
    obtain ⟨img, hcovers, hbytes⟩ := h.lags page
    obtain ⟨layout, htracks⟩ := hcovers.tracks
    exact ⟨img, layout, hcovers.pageSize.trans hpageSize.symm, htracks, hbytes⟩
  choose imgs layouts hpageSizes htracks' hbytes using hversions
  have hpaged : Paged file.disk header.counters.size imgs layouts fun _ => header.counters.size :=
    ⟨h.covers.supported, ⟨hpages, hblank⟩, hbound, htracks', fun _ => .inl rfl, hpageSizes, hbytes⟩
  exact ⟨hpages, hlength ▸ h.usable.reached, h.covers.supported, hpageSize, hpaged.tracks_recorded⟩

end Backs

namespace Leaves

theorem disk_eq_image (hsaved : file.Saved) : file.disk = file.image := by
  change Image.mk _ file.onDisk.length file.onDisk.byteAt = Image.mk _ file.size file.cache.byteAt
  rw [hsaved.length, funext hsaved.byteAt]
  rfl

/-- All that the file holds is on disk. -/
theorem of_saved (hsaved : file.Saved) (hpages : file.size % file.pageSize = 0)
    (hreached : file.size ≤ reach + file.pageSize) (hcovers : file.image.Covers header) : file.Leaves header :=
  ⟨hsaved.length ▸ hpages, hsaved.length ▸ hreached, disk_eq_image hsaved ▸ hcovers⟩

/-- If the header on disk is the one that records these slots, the file is opened with a recount. -/
theorem opens (path : String) (h : file.Leaves header) (hpageSize : checkPageSize file.pageSize = .ok ())
    (hholds : file.disk.Holds 0 (ofList header.encode)) (hvalid : header.Valid) (hstatus : header.status = .opened)
    (policy : CapacityPolicy) {options : Options} (hsuits : options.Suits file.pageSize)
    (hrecover : options.recover = true) :
    ∃ found, Session.openFile path (.regular file.onDisk) policy options = .ok found ∧
      header.counters.size ≤ found.counters.size := by
  obtain ⟨husable, himage⟩ := usable_behind file.cache.file h.covers.supported.large h.pages h.reached hsuits.frames
  have husable' : (contract options.frames hsuits.frames).Usable (behind file.cache.file options.frames) := husable
  have himage' : (contract options.frames hsuits.frames).image (behind file.cache.file options.frames) = file.disk :=
    himage
  have hopens : Session.Opens (contract options.frames hsuits.frames) (behind file.cache.file options.frames) policy
      options (fun session => header.counters.size ≤ session.counters.size) _ :=
    Session.openOn_covered husable' (himage' ▸ h.covers) (himage' ▸ hholds) hvalid hstatus policy hrecover
  obtain ⟨found, hopen, -, hle⟩ := hopens.exists_session fun e img hfailed => hfailed.1
  exact ⟨found, Session.openFile_regular path hpageSize h.pages hsuits.pageSize hopen, hle⟩

end Leaves

/-- A file behind a cache, any call on which may fail. -/
abbrev failing (frames : Nat) (hframes : 1 ≤ frames) : StorageContract (Unreliable CachedFile) :=
  Unreliable.contract (contract frames hframes)

end CachedFile

/-! ### Moments since the header was written -/

namespace CachedFile.Backs

variable {header : FileHeader}

/-- The slots stay on disk through a dialogue at whose moments they are in the file. -/
theorem run {α : Type} {dialogue : Dialogue α} {storage : Unreliable CachedFile} (h : storage.inner.Backs header)
    (hmoments : ∀ moment ∈ dialogue.moments storage, moment.faults.plan.Plain ∧ moment.inner.image.Covers header) :
    (dialogue.run storage).2.inner.Backs header := by
  refine Dialogue.run_induction (Q := fun moment => moment.inner.Backs header) hmoments
    (fun call moment hbefore hafter hbacks => ?_) h
  have hinner := Unreliable.inner_run hbefore.1 call
  generalize (call.run moment).2 = next at hinner hafter ⊢
  rcases hinner with hsame | hrun
  · rw [hsame]
    exact hbacks
  · rcases run_becomes hbacks.usable call with hsame | hbecomes
    · rw [hrun, hsame]
      exact hbacks
    · rw [← hrun] at hbecomes
      exact hbacks.becomes hbecomes hafter.2

/-- A file header that is written leaves the slots alone. -/
theorem writeHeader {session : Session (Unreliable CachedFile)} (h : session.storage.inner.Backs header)
    (hplain : session.storage.faults.plan.Plain) : (Session.writeHeader session).2.storage.inner.Backs header := by
  obtain ⟨layout, htracks⟩ := h.covers.tracks
  have hbound : 0 + (ofList session.header.encode).size ≤ session.storage.inner.size := by
    simp only [size_ofList, FileHeader.length_encode, Nat.zero_add]
    exact Nat.le_trans htracks.size_le_stop htracks.bound
  have hinner := Unreliable.inner_run hplain (.write 0 (ofList session.header.encode))
  change ((SlotCall.write 0 (ofList session.header.encode)).run session.storage).2.inner.Backs header
  rcases hinner with hsame | hrun
  · rw [hsame]
    exact h
  · obtain ⟨file', hwrite, hbecomes⟩ := write_becomes h.usable hbound
    have hfile : ((SlotCall.write 0 (ofList session.header.encode)).run session.storage.inner).2 = file' :=
      congrArg Prod.snd hwrite
    rw [hrun, hfile]
    exact h.becomes hbecomes
      ⟨h.covers.supported, h.covers.pageSize, layout, htracks.of_header (.write _ (Nat.le_refl _) (by simp))⟩

end CachedFile.Backs

namespace Session

open CachedFile (failing)

variable {frames : Nat} {hframes : 1 ≤ frames} {layout : Layout} {store : Store} {header : FileHeader}
  {written last session : Session (Unreliable CachedFile)} {event : Event}

/-- `last` is what a run has come to, on a file any call on which may fail, and `written` the session as it was when
the file header was last written: when it was opened, or after an event that writes the header and succeeded.  Where
the file is opened again it is behind a cache of any size.  No recount was asked for while something stood behind the
slots. -/
inductive SinceWritten : Session (Unreliable CachedFile) → Session (Unreliable CachedFile) → Prop
  | opened {frames : Nat} (hframes : 1 ≤ frames) {storage : Unreliable CachedFile} {policy : CapacityPolicy}
      {options : Options} {session : Session (Unreliable CachedFile)} {layout : Layout} {store : Store}
      (husable : (failing frames hframes).Usable storage) (hopen : openOn storage policy options = .ok session)
      (hserves : (session.seen (failing frames hframes).toStorageView).Serves layout store) :
      SinceWritten session session
  | handled {written last : Session (Unreliable CachedFile)} (h : SinceWritten written last) {event : Event}
      (hreopen : ∀ policy options, event ≠ .reopen policy options)
      (hrecover : event = .recover → last.storage.inner.image.BlankFrom last.counters.size) :
      SinceWritten written (handle (fun storage => storage) event last).2
  | written {frames : Nat} (hframes : 1 ≤ frames) {written last : Session (Unreliable CachedFile)}
      (h : SinceWritten written last) {event : Event} {reply : Reply} (hsyncs : event.Syncs)
      (hrecover : event = .recover → last.storage.inner.image.BlankFrom last.counters.size)
      (hok : (handle (failing frames hframes).reopen event last).1 = .ok reply) :
      SinceWritten (handle (failing frames hframes).reopen event last).2
        (handle (failing frames hframes).reopen event last).2

/-- The session goes on, and the slots that `header` records are on disk.  What is usable, and how it is seen, is the
same for any number of frames. -/
structure Recorded (header : FileHeader) (session : Session (Unreliable CachedFile)) : Prop where
  valid : header.Valid
  status : header.status = .opened
  usable : (failing 1 (Nat.le_refl 1)).Usable session.storage
  serves : ∃ layout store, (session.seen (failing 1 (Nat.le_refl 1)).toStorageView).Serves layout store ∧
    layout.Boundary store.stop header.counters.size
  backs : session.storage.inner.Backs header

/-- What serves a store has the slots up to every boundary between them. -/
theorem Serves.covers {session : Session Image} (h : session.Serves layout store)
    (hpageSize : header.pageSize = store.pageSize) (hboundary : layout.Boundary store.stop header.counters.size) :
    session.storage.Covers header := by
  obtain ⟨before, htracks⟩ := h.keeps.tracks.exists_cut hboundary
  exact ⟨h.keeps.pageSize_eq ▸ h.keeps.supported, h.keeps.pageSize_eq.trans hpageSize.symm, _, htracks⟩

namespace Recorded

/-- It starts when all is on disk. -/
theorem of_saved (husable : (failing frames hframes).Usable session.storage)
    (hserves : (session.seen (failing frames hframes).toStorageView).Serves layout store)
    (hsaved : session.storage.inner.Saved) : Recorded session.header session := by
  have hheader : session.header = store.fileHeader .opened := hserves.header
  rw [hheader]
  exact ⟨hserves.keeps.valid_fileHeader .opened, rfl, husable, ⟨layout, store, hserves, .inl rfl⟩,
    .of_saved husable.1 (hserves.covers rfl (.inl rfl)) hsaved⟩

/-- And it goes on with every event that does not end the session. -/
theorem handle (h : Recorded header session) (hreopen : ∀ policy options, event ≠ .reopen policy options)
    (hrecover : event = .recover → session.storage.inner.image.BlankFrom session.counters.size) :
    Recorded header (handle (fun storage => storage) event session).2 := by
  obtain ⟨layout, store, hserves, hboundary⟩ := h.serves
  have hstop : session.counters.size = store.stop := congrArg Counters.size hserves.counters_eq
  rw [hstop] at hrecover
  have hpageSize : header.pageSize = store.pageSize := h.backs.covers.pageSize.symm.trans hserves.keeps.pageSize_eq
  obtain ⟨dialogue, hstorage, hmoments⟩ := moments_advance (fun storage => storage) h.usable hserves hreopen hrecover
  have hbacks : (Session.handle (fun storage => storage) event session).2.storage.inner.Backs header := by
    rw [hstorage]
    refine h.backs.run fun moment hmoment => ?_
    obtain ⟨husable', result, session', layout', store', himage, hadvances, hstore⟩ := hmoments moment hmoment
    have hpageSize' : header.pageSize = store'.pageSize := by
      rcases hstore with rfl | rfl
      · exact hpageSize
      · exact hpageSize.trans (store.pageSize_respond event).symm
    have hcovers := hadvances.serves.covers hpageSize' (hadvances.boundary _ hboundary)
    rw [himage] at hcovers
    exact ⟨husable'.2.2, hcovers⟩
  have hperforms : Performs (failing 1 (Nat.le_refl 1)).toStorageView (Session.handle (fun storage => storage) event)
      _ _ := handle_performs hserves (fun storage => storage) event hreopen hrecover
  obtain ⟨husable', layout', store', hadvances, -⟩ := hperforms session h.usable rfl
  exact ⟨h.valid, h.status, husable', ⟨layout', store', hadvances.serves, hadvances.boundary _ hboundary⟩, hbacks⟩

/-- And it starts anew with every event that writes the file header. -/
theorem of_event (h : Recorded header session) (hframes : 1 ≤ frames) {reply : Reply} (hsyncs : event.Syncs)
    (hrecover : event = .recover → session.storage.inner.image.BlankFrom session.counters.size)
    (hok : (Session.handle (failing frames hframes).reopen event session).1 = .ok reply) :
    Recorded (Session.handle (failing frames hframes).reopen event session).2.header
      (Session.handle (failing frames hframes).reopen event session).2 := by
  obtain ⟨layout, store, hserves, -⟩ := h.serves
  have hstop : session.counters.size = store.stop := congrArg Counters.size hserves.counters_eq
  rw [hstop] at hrecover
  have husable : (failing frames hframes).Usable session.storage := h.usable
  have hserves' : (session.seen (failing frames hframes).toStorageView).Serves layout store := hserves
  have hsaved := handle_saved (fun _ => CachedFile.Usable.ready) husable hserves'.sound hsyncs hok
  have hensues := handle_ensues husable hserves' event hrecover
  generalize Session.handle (failing frames hframes).reopen event session = run at hok hsaved hensues ⊢
  obtain ⟨result, after⟩ := run
  dsimp only at hok hsaved hensues ⊢
  cases hensues with
  | lost => cases hok
  | served husable' hserves'' => exact .of_saved husable' hserves'' hsaved

end Recorded

theorem SinceWritten.recorded (h : SinceWritten written last) : Recorded written.header last := by
  induction h with
  | opened hframes husable hopen hserves =>
    have hsaved := openOn_saved (fun _ => CachedFile.Usable.ready) husable hopen
    exact .of_saved ((openOn_sound husable _ _).of_eq_ok hopen).1 hserves hsaved
  | handled h hreopen hrecover ih => exact ih.handle hreopen hrecover
  | written hframes h hsyncs hrecover hok ih => exact ih.of_event hframes hsyncs hrecover hok

/-! ### What a crash leaves -/

/-- The file as a crash may find it after a run that came to `last`: between two events, while a flush, a recount or a
close writes the cache back after it wrote the header there, or when the session was closed.  In the middle of another
operation it is as that operation leaves it if all calls from there on fail. -/
inductive Moment (last : Session (Unreliable CachedFile)) : CachedFile → Prop
  | resting : Moment last last.storage.inner
  | flushing (indices : List FrameIndex) : Moment last ((writeHeader last).2.storage.inner.writtenBack indices)
  | recovering (indices : List FrameIndex) :
      Moment last (((do recount; writeHeader : SessionM (Unreliable CachedFile) Unit) last).2.storage.inner.writtenBack
        indices)
  | closing (indices : List FrameIndex) :
      Moment last ((writeHeader (marked last)).2.storage.inner.writtenBack indices)
  | closed : Moment last (close last).2.storage.inner

namespace Recorded

theorem recount_leaves (h : Recorded header session) (indices : List FrameIndex) :
    (((do recount; writeHeader : SessionM (Unreliable CachedFile) Unit) session).2.storage.inner.writtenBack
      indices).Leaves header := by
  obtain ⟨layout, store, hserves, -⟩ := h.serves
  have huniform : UniformIn (session.on ()) fun σ _ _ => (recount : SessionM σ Unit) := recount_uniform
  have hkeeps : ∀ {σ : Type} [PagedStorage σ] (contract : StorageContract σ),
      Performs contract.toStorageView recount (session.seen (failing 1 (Nat.le_refl 1)).toStorageView)
        fun _ after => after.storage = session.storage.inner.image :=
    fun contract => (recount_sound hserves.sound).mono fun _ _ hafter => hafter.2
  obtain ⟨dialogue, hstorage, hmoments⟩ := moments_perform huniform h.usable (hkeeps _)
  have hplain := (hkeeps (failing 1 (Nat.le_refl 1)) session h.usable rfl).1.2.2
  have hbacks : (recount session).2.storage.inner.Backs header := by
    rw [hstorage]
    refine h.backs.run fun moment hmoment => ?_
    obtain ⟨husable', result, after, himage, hafter⟩ := hmoments moment hmoment
    have hcovers := h.backs.covers
    rw [← hafter, himage] at hcovers
    exact ⟨husable'.2.2, hcovers⟩
  rw [bind_apply]
  rcases hrecount : recount session with ⟨e | ⟨⟩, counted⟩
  · rw [hrecount] at hbacks
    exact (hbacks.writtenBack indices).leaves
  · rw [hrecount] at hbacks hplain
    exact ((hbacks.writeHeader hplain).writtenBack indices).leaves

theorem writeHeader_marked_backs (h : Recorded header session) :
    (writeHeader (marked session)).2.storage.inner.Backs header := by
  have hbacks : (marked session).storage.inner.Backs header := h.backs
  exact hbacks.writeHeader h.usable.2.2

theorem close_leaves (h : Recorded header session) : (close session).2.storage.inner.Leaves header := by
  obtain ⟨layout, store, hserves, -⟩ := h.serves
  have hbacks := h.writeHeader_marked_backs
  have hcloses := close_closes hserves.opened hbacks.usable.ready
  generalize (writeHeader (marked session)).2.storage = written at hbacks hcloses
  generalize (close session).2.storage.inner = file at hcloses ⊢
  generalize (close session).1 = result at hcloses
  have hreleased : file.Saved → file.image = written.inner.image → file.Leaves header := by
    intro hsaved himage
    have hsize : file.size = written.inner.size := congrArg Image.size himage
    have hpageSize : file.pageSize = written.inner.pageSize := congrArg Image.pageSize himage
    refine .of_saved hsaved ?_ ?_ (himage ▸ hbacks.covers)
    · rw [hsize, hpageSize]
      exact hbacks.usable.ready.size_mod
    · rw [hsize, hpageSize]
      exact hbacks.usable.reached
  cases hcloses with
  | done hwrite hsaved himage => exact hreleased hsaved himage
  | kept e => exact hbacks.leaves
  | unwritten hwrite hsaved himage => exact hreleased hsaved himage

/-- A session that could be closed has all on disk, its header as well. -/
theorem close_saves (h : Recorded header session) (hok : (close session).1 = .ok ()) :
    (close session).2.storage.inner.Saved ∧
      (close session).2.storage.inner.disk.Holds 0 (ofList (marked session).header.encode) ∧
      (close session).2.storage.inner.disk.Covers (marked session).header := by
  obtain ⟨layout, store, hserves, -⟩ := h.serves
  have hopened : session.closed = false := hserves.opened
  have hsaved : (close session).2.storage.inner.Saved := by
    have hcloses := close_closes hopened h.writeHeader_marked_backs.usable.ready
    rw [hok] at hcloses
    cases hcloses with
    | done hwrite hsaved himage => exact hsaved
  have hheader : (marked session).header = store.fileHeader .closed := by
    change { (session.seen (failing 1 (Nat.le_refl 1)).toStorageView).header with status := .closed } = _
    rw [hserves.header]
    rfl
  have hclose := close_serves h.usable hserves
  rw [hheader]
  rcases hrun : close session with ⟨e | ⟨⟩, closed⟩
  · rw [hrun] at hok
    cases hok
  · rw [hrun] at hclose hsaved
    obtain ⟨husable, hkeeps, -⟩ := hclose
    obtain ⟨-, himage⟩ := CachedFile.usable_behind closed.storage.inner.cache.file husable.1.large
      husable.1.sound.pages (husable.1.size ▸ husable.1.reached) (Nat.le_refl 1)
    have hreopen : (failing 1 (Nat.le_refl 1)).image ((failing 1 (Nat.le_refl 1)).reopen closed.storage) =
        closed.storage.inner.disk := himage
    rw [hreopen] at hkeeps
    obtain ⟨header', hholds, hstatus, hdescribes⟩ := hkeeps.header
    rw [hdescribes.eq_fileHeader hstatus] at hholds
    exact ⟨hsaved, hholds, hkeeps.pageSize_eq ▸ hkeeps.supported, hkeeps.pageSize_eq, layout, hkeeps.tracks⟩

end Recorded

/-- Whatever is on disk: the slots are there that the last header records of which it is known that it was written.  If
it is this header that is on disk, the file can be opened again with a recount, which finds no fewer slots.  A session
that could be closed has all on disk, and its header says so. -/
theorem recorded_slots_are_on_disk (h : SinceWritten written last) :
    written.header.status = .opened ∧
    (∀ file, Moment last file → file.disk.Covers written.header ∧
      (file.disk.Holds 0 (ofList written.header.encode) → checkPageSize file.pageSize = .ok () →
        ∀ (path : String) (policy : CapacityPolicy) (options : Options), options.Suits file.pageSize →
          options.recover = true → ∃ found, openFile path (.regular file.onDisk) policy options = .ok found ∧
            written.header.counters.size ≤ found.counters.size)) ∧
    ((close last).1 = .ok () → (close last).2.storage.inner.Saved ∧
      (close last).2.storage.inner.disk.Holds 0 (ofList (marked last).header.encode) ∧
      (close last).2.storage.inner.disk.Covers (marked last).header) := by
  have hrecorded := h.recorded
  refine ⟨hrecorded.status, fun file hmoment => ?_, hrecorded.close_saves⟩
  have hleaves : file.Leaves written.header := by
    cases hmoment with
    | resting => exact hrecorded.backs.leaves
    | flushing indices => exact ((hrecorded.backs.writeHeader hrecorded.usable.2.2).writtenBack indices).leaves
    | recovering indices => exact hrecorded.recount_leaves indices
    | closing indices => exact (hrecorded.writeHeader_marked_backs.writtenBack indices).leaves
    | closed => exact hrecorded.close_leaves
  refine ⟨hleaves.covers, fun hholds hpageSize path policy options hsuits hrecover => ?_⟩
  exact hleaves.opens path hpageSize hholds hrecorded.valid hrecorded.status policy hsuits hrecover

/-- An empty file behind a cache of two frames, the fourth flush of which fails. -/
private def faultyFile : Unreliable CachedFile :=
  let plan : FaultPlan := fun before call _ =>
    if call = .flush ∧ before.count .flush = 3 then .fail else .proceed
  { inner := .behind { content := .empty, pageSize := 256 } 2, reported := none
    faults := { plan, decided := [], log := [] }, lost := false }

private theorem supported_faultyFile : SupportedPageSize 256 := ⟨by decide, by decide, by decide⟩

private theorem usable_faultyFile : (failing 2 (by decide)).Usable faultyFile := by
  obtain ⟨husable, -⟩ := CachedFile.blank_behind supported_faultyFile (show 1 ≤ 2 by decide)
  refine ⟨husable, rfl, fun before call offset value => ?_⟩
  unfold faultyFile
  dsimp only
  split <;> nofun

private theorem blank_faultyFile : ((failing 2 (by decide)).image faultyFile).Blank :=
  (CachedFile.blank_behind supported_faultyFile (show 1 ≤ 2 by decide)).2

/-- The pages that the cache still has to write back. -/
def changedPages (file : CachedFile) : List (Option PageNumber) :=
  (file.cache.frames.toList.filter (·.dirty)).map (·.page)

/-- A record on the second page. -/
def secondPageRecord : ByteArray := ⟨Array.replicate 170 2⟩

/-- In the middle of a flush that fails, the header with the new end has been written back, but not the page of the new
slot. -/
theorem failed_flush_leaves_slots : ∃ written last, SinceWritten written last ∧
    (handle (fun storage => storage) (.request .flush) last).1 = .error (.io (.io (.injected .flush))) ∧
      let file := (writeHeader last).2.storage.inner
      changedPages file = [some 0, some 1] ∧ changedPages (file.writtenBack [0]) = [some 1] ∧
        (file.writtenBack [0]).disk.Covers written.header := by
  have hrun : (openOn faultyFile .exactDefault .default).toOption.map (fun session =>
      let inserted := (handle (fun storage => storage) (.request (.insert ⟨#[1]⟩)) session).2
      let flushed := handle (failing 2 (by decide)).reopen (.request .flush) inserted
      let last := (handle (fun storage => storage) (.request (.insert secondPageRecord)) flushed.2).2
      let file := (writeHeader last).2.storage.inner
      (flushed.1, (handle (fun storage => storage) (.request .flush) last).1, changedPages file,
        changedPages (file.writtenBack [0]))) =
        some (.ok .done, .error (.io (.io (.injected .flush))), [some 0, some 1], [some 1]) := by
    decide +kernel
  rcases hopen : openOn faultyFile .exactDefault .default with e | session
  · rw [hopen] at hrun
    cases hrun
  · rw [hopen] at hrun
    obtain ⟨hflushed, hrest⟩ := Prod.mk.inj (Option.some.inj hrun)
    obtain ⟨hfailed, hchanged⟩ := Prod.mk.inj hrest
    obtain ⟨hbefore, hafter⟩ := Prod.mk.inj hchanged
    obtain ⟨-, hserves, -⟩ :=
      (openOn_blank usable_faultyFile blank_faultyFile .exactDefault .default).of_eq_ok hopen
    have hinserted : SinceWritten session
        (handle (fun storage => storage) (.request (.insert ⟨#[1]⟩)) session).2 :=
      .handled (.opened (by decide) usable_faultyFile hopen hserves) (fun _ _ => nofun) nofun
    have hsyncs : Event.Syncs (.request .flush) := trivial
    have hwritten := SinceWritten.written (by decide) hinserted hsyncs nofun hflushed
    have hlast : SinceWritten _
        (handle (fun storage => storage) (.request (.insert secondPageRecord)) _).2 :=
      hwritten.handled (fun _ _ => nofun) nofun
    refine ⟨_, _, hlast, hfailed, hbefore, hafter, ?_⟩
    exact ((recorded_slots_are_on_disk hlast).2.1 _ (.flushing [0])).1

end Session

end RecordStore
