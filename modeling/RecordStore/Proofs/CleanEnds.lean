import RecordStore.Proofs.BoundedFiles
import RecordStore.Proofs.HonestHeaders
import RecordStore.Proofs.RecordedSlots

/-!
# Clean ends

The life of a file under a path: it is opened with one page size or another, used and closed by one session after the
other, while calls fail, pages that were changed in a cache only are lost, and no session need come to a clean end
(`Life`).  What is on disk never claims a clean end that there was not: at rest the header is honest about the last
session (`Rests`), and as long as a session is in use no page on disk says that the file was closed (`Ongoing`).  So
whoever opens the file notices every end that was not clean (`unclean_ends_are_noticed`).
-/

namespace RecordStore

open Bytes StorageView
open CachedFile (failingFile)

/-! ### Files at rest -/

/-- A file that no session uses, and that tells the truth about the end of the last one. -/
structure Rests (last : Option Counters) (content : SparseFile) : Prop where
  length : content.length ≤ maxFileSize
  honest : ∀ img : Image, img.byte = content.byteAt → img.Honest last

namespace CachedFile

variable {file : CachedFile} {last : Option Counters}

theorem Bounded.rests (h : file.Bounded) (hlags : file.Lags (Image.Honest last)) : Rests last file.onDisk := by
  refine ⟨h.ready.size ▸ h.length, fun img hbytes => ?_⟩
  obtain ⟨other, hhonest, hsame⟩ := hlags.header h.large
  refine hhonest.congr fun i _ hi => ?_
  rw [hbytes]
  exact hsame i hi

theorem Saved.rests (h : file.Saved) (hlength : file.image.size ≤ maxFileSize) (hhonest : file.image.Honest last) :
    Rests last file.onDisk := by
  refine ⟨h.length ▸ hlength, fun img hbytes => hhonest.congr fun i _ _ => ?_⟩
  rw [hbytes]
  exact h.byteAt i

end CachedFile

namespace Session

variable {storage : Unreliable CachedFile} {session : Session (Unreliable CachedFile)} {last : Option Counters}

/-- Releasing a storage leaves what was on disk, or what was in the cache. -/
theorem release_rests (hbounded : storage.inner.Bounded) (hlags : storage.inner.Lags (Image.Honest last))
    (hhonest : storage.inner.image.Honest last) : Rests last (release storage).inner.onDisk := by
  rcases release_cases hbounded.ready with ⟨-, hsame⟩ | ⟨-, hsaved, himage⟩
  · rw [hsame]
    exact hbounded.rests hlags
  · rw [← himage] at hhonest
    refine hsaved.rests ?_ hhonest
    rw [himage]
    exact hbounded.length

/-! ### Sessions in use -/

/-- A session in use, with no page on disk that says that the file was closed. -/
structure Ongoing (session : Session (Unreliable CachedFile)) : Prop where
  usable : failingFile.Usable session.storage
  marking : (session.seen failingFile.toStorageView).Marking
  lags : session.storage.inner.Lags (Image.Honest none)

/-- A session that starts on an honest file leaves it honest. -/
private theorem start_ends (husable : failingFile.Usable session.storage)
    (hsound : (session.seen failingFile.toStorageView).Sound)
    (hversion : session.header.version = FileHeader.currentVersion)
    (hpageSize : SupportedPageSize session.header.pageSize) (hlags : session.storage.inner.Lags (Image.Honest last))
    (hhonest : session.storage.inner.image.Honest last) (recover : Bool) :
    failingFile.Usable (start recover session).2.storage ∧
      (start recover session).2.storage.inner.Lags (Image.Honest last) ∧
      Starts last (session.seen failingFile.toStorageView) (start recover session).1
        ((start recover session).2.seen failingFile.toStorageView) := by
  have hstart : ∀ {σ : Type} [PagedStorage σ] (contract : StorageContract σ), Performs contract.toStorageView
      (start recover) (session.seen failingFile.toStorageView) (Starts last (session.seen failingFile.toStorageView)) :=
    fun contract => start_starts hsound hversion hpageSize hhonest recover
  have hlagging := lags_perform (start_uniform recover) husable
    ((hstart (Unreliable.contract failingFile)).mono fun _ _ hstarts => hstarts.honest) hlags
  obtain ⟨husable', hstarts⟩ := hstart failingFile session husable rfl
  exact ⟨husable', hlagging, hstarts⟩

/-- Looking for the header of an honest file leaves it honest. -/
private theorem loadHeader_ends (husable : failingFile.Usable storage)
    (hlags : storage.inner.Lags (Image.Honest last)) (hhonest : storage.inner.image.Honest last)
    {result : Except StoreError (FileHeader × Bool)} {storage' : Unreliable CachedFile}
    (hload : loadHeader (failingFile.image storage).pageSize storage = (result, storage')) :
    failingFile.Usable storage' ∧ Loads (failingFile.image storage) result storage'.inner.image ∧
      storage'.inner.Lags (Image.Honest last) ∧ storage'.inner.image.Honest last := by
  have hloading : ∀ {σ : Type} [PagedStorage σ] (contract : StorageContract σ),
      contract.Runs (loadHeader (failingFile.image storage).pageSize) (failingFile.image storage)
        (Loads (failingFile.image storage)) := fun contract => loadHeader_loads contract _
  have hlags' := CachedFile.lags_run (loadHeader_uniform (failingFile.image storage).pageSize) husable
    ((hloading (Unreliable.contract failingFile)).mono fun _ _ hloads => hloads.honest hhonest) hlags
  obtain ⟨husable', hloads⟩ := hloading failingFile storage husable rfl
  rw [hload] at husable' hloads hlags'
  exact ⟨husable', hloads, hlags', hloads.honest hhonest⟩

/-- A session starts with a header that was accepted. -/
private theorem begun_ends {policy : CapacityPolicy} {options : Options} (husable : failingFile.Usable storage)
    (hlags : storage.inner.Lags (Image.Honest last)) (hhonest : storage.inner.image.Honest last)
    {found : FileHeader × Bool} {begun : Session (Unreliable CachedFile)}
    (hfound : loadHeader (failingFile.image storage).pageSize storage = (.ok found, begun.storage))
    (hseen : begun.seen failingFile.toStorageView = beginning (failingFile.image begun.storage) policy options
      (failingFile.image storage).pageSize found) :
    Accepted last (failingFile.image storage) begun.header begun.wasClosedProperly ∧
      failingFile.Usable (start options.recover begun).2.storage ∧
      (start options.recover begun).2.storage.inner.Lags (Image.Honest last) ∧
      Starts last (begun.seen failingFile.toStorageView) (start options.recover begun).1
        ((start options.recover begun).2.seen failingFile.toStorageView) := by
  obtain ⟨husable', hloads, hlags', hhonest'⟩ := loadHeader_ends husable hlags hhonest hfound
  have hheader : begun.header = found.1 := congrArg Session.header hseen
  have hclosed : begun.wasClosedProperly = found.2 := congrArg Session.wasClosedProperly hseen
  have hsound : (begun.seen failingFile.toStorageView).Sound := hseen ▸ ⟨rfl, hloads.fits.1⟩
  have haccepted : Accepted last _ begun.header begun.wasClosedProperly :=
    hheader ▸ hclosed ▸ hloads.accepted hhonest
  exact ⟨haccepted, start_ends husable' hsound haccepted.version haccepted.supported hlags' hhonest' options.recover⟩

/-- Opening an honest file: what a session is told is true, and where none comes about the file stays honest. -/
theorem openOn_ends (policy : CapacityPolicy) (options : Options) (husable : failingFile.Usable storage)
    (hlags : storage.inner.Lags (Image.Honest last)) (hhonest : storage.inner.image.Honest last) :
    match openOn storage policy options with
    | .ok session => Ongoing session ∧ (session.wasClosedProperly = true →
        ((∀ i < FileHeader.size, storage.inner.image.byte i = 0) ∧
          session.header = FileHeader.new storage.inner.pageSize) ∨
        ∃ held, last = some held ∧ session.counters = held.inWords)
    | .error (_, storage') => Rests last storage'.inner.onDisk := by
  have hsaved : ∀ session, openOn storage policy options = .ok session → session.storage.inner.Saved :=
    fun _ => openOn_saved (fun _ => CachedFile.Bounded.ready) husable
  have hattempt := openOn_attempt husable policy options
  generalize openOn storage policy options = result at hattempt hsaved ⊢
  cases hattempt with
  | refused hfound =>
    obtain ⟨husable', -, hlags', hhonest'⟩ := loadHeader_ends husable hlags hhonest hfound
    exact release_rests husable'.1 hlags' hhonest'
  | failed hfound hseen hstart =>
    obtain ⟨-, husable', hlags', hstarts⟩ := begun_ends husable hlags hhonest hfound hseen
    rw [hstart] at husable' hlags' hstarts
    exact release_rests husable'.1 hlags' hstarts.honest
  | @opened _ begun started hfound hseen hstart =>
    obtain ⟨haccepted, husable', -, hstarts⟩ := begun_ends husable hlags hhonest hfound hseen
    rw [hstart] at husable' hstarts
    -- the header marks the file as opened from here on
    have hmarking := hstarts.marking rfl
    obtain ⟨hsame, hkept⟩ := hstarts.loaded rfl
    refine ⟨⟨husable', hmarking, fun _ => ⟨started.storage.inner.image, hmarking.marked.honest,
      fun i _ => (hsaved _ rfl).byteAt i⟩⟩, fun htrusted => ?_⟩
    change started.wasClosedProperly = begun.wasClosedProperly at hsame
    rw [hsame] at htrusted
    have hheader : started.header = { begun.header with status := .opened } := hkept htrusted
    refine (haccepted.trusted htrusted).imp (fun ⟨hbare, hnew⟩ => ⟨hbare, ?_⟩) fun ⟨held, hlast, hcounters⟩ =>
      ⟨held, hlast, ?_⟩
    · rw [hheader, hnew]
      rfl
    · unfold counters
      rw [hheader]
      exact hcounters

namespace Ongoing

/-- A session stays in use through whatever keeps the file marked. -/
private theorem perform {α : Type} (h : Ongoing session) {act : ∀ (σ : Type) [PagedStorage σ], SessionM σ α}
    (huniform : UniformIn (session.on ()) fun σ _ _ => act σ)
    (hkeeps : ∀ {σ : Type} [PagedStorage σ] (contract : StorageContract σ), Performs contract.toStorageView (act σ)
      (session.seen failingFile.toStorageView) fun _ after => after.Marking) : Ongoing (act _ session).2 := by
  obtain ⟨husable, hmarking⟩ := hkeeps failingFile session h.usable rfl
  refine ⟨husable, hmarking, lags_perform huniform h.usable ?_ h.lags⟩
  exact (hkeeps (Unreliable.contract failingFile)).mono fun _ _ hafter => hafter.marked.honest

theorem handle (h : Ongoing session) {event : Event} (hreopen : ∀ policy options, event ≠ .reopen policy options) :
    Ongoing (handle (fun storage => storage) event session).2 := by
  have hfits : (session.on ()).pageSize < 2 ^ 32 := by
    have hpageSize : session.pageSize = session.storage.inner.pageSize := h.marking.sound.fits.pageSize
    change session.pageSize < 2 ^ 32
    rw [hpageSize]
    exact Nat.lt_of_le_of_lt h.usable.1.small (by decide)
  have huniform : UniformIn (session.on ()) fun σ _ _ =>
      (Session.handle (fun storage => storage) event : SessionM σ Reply) := handle_uniform hfits hreopen
  exact h.perform huniform fun contract => handle_marking h.marking (fun storage => storage) event hreopen

theorem scanSlot (h : Ongoing session) {cursor : Cursor}
    (hfits : ({ pageSize := session.pageSize, stop := cursor.stop } : Region).Fits session.storage.inner.image)
    (hoffset : cursor.offset < cursor.stop) : Ongoing (scanSlot cursor session).2 := by
  have huniform : UniformIn (session.on ()) fun σ _ _ => (Session.scanSlot cursor : SessionM σ ScannedSlot) :=
    scanSlot_uniform cursor
  refine h.perform huniform fun contract => ?_
  have hkeeps : Performs contract.toStorageView (Session.scanSlot cursor) (session.seen failingFile.toStorageView) _ :=
    scanSlot_keeps h.marking.sound.opened hfits hoffset
  refine hkeeps.mono ?_
  rintro _ _ ⟨rfl, -⟩
  exact h.marking

end Ongoing

/-! ### The end of a session -/

/-- The counters that a session closes the file with, if it does. -/
def closing (session : Session (Unreliable CachedFile)) : Option Counters :=
  match (close session).1 with
  | .ok () => some session.counters
  | .error _ => none

/-- A file header is in the cache only until the file is flushed. -/
private theorem lags_writeHeader {version : Image → Prop} (husable : failingFile.Usable session.storage)
    (hsize : FileHeader.size ≤ session.storage.inner.size) (hversion : version session.storage.inner.image)
    (hlags : session.storage.inner.Lags version) : (writeHeader session).2.storage.inner.Lags version := by
  have hbounded : session.storage.inner.Bounded := husable.1
  have hinner := Unreliable.inner_run husable.2.2 (.write 0 (ofList session.header.encode))
  change ((SlotCall.write 0 (ofList session.header.encode)).run session.storage).2.inner.Lags version
  rcases hinner with hsame | hrun
  · rw [hsame]
    exact hlags
  · have hlength : (ofList session.header.encode).size = FileHeader.size := by simp
    rw [hrun]
    refine CachedFile.lags_write_front hbounded.ready ?_ ?_ ?_ hversion hlags
    · rw [hlength]
      decide
    · rw [hlength]
      exact Nat.le_trans (by decide) hbounded.large
    · rw [hlength]
      exact hsize

/-- The header of a closed file is in the cache only until the file is flushed by closing it. -/
private theorem writeHeader_marked_ends (h : Ongoing session) :
    failingFile.Usable (writeHeader (marked session)).2.storage ∧
      (writeHeader (marked session)).2.storage.inner.Lags (Image.Honest none) ∧
      match (writeHeader (marked session)).1 with
      | .ok () => (writeHeader (marked session)).2.storage.inner.image.Honest (some session.counters)
      | .error _ => (writeHeader (marked session)).2.storage.inner.image.Honest none := by
  have hbounded := h.usable.1
  have hsize : FileHeader.size ≤ session.storage.inner.size :=
    Nat.le_trans h.marking.sound.fits.start h.marking.sound.fits.bound
  have hwrites : Performs failingFile.toStorageView writeHeader ((marked session).seen failingFile.toStorageView)
      fun result after => match result with
        | .ok () => after.storage.Honest (some session.counters)
        | .error _ => after.storage.Honest none := by
    have hversion : (marked session).header.version = FileHeader.currentVersion := h.marking.version
    have hpageSize : SupportedPageSize (marked session).header.pageSize := h.marking.pageSize
    have hclosed := Image.honest_write hversion hpageSize session.storage.inner.image
    have hopened : session.storage.inner.image.Honest none := h.marking.marked.honest
    exact writeHeader_writes _ hsize hclosed fun _ _ => hopened
  obtain ⟨husable, hhonest⟩ := hwrites (marked session) h.usable rfl
  refine ⟨husable, ?_, hhonest⟩
  have husable' : failingFile.Usable (marked session).storage := h.usable
  exact lags_writeHeader husable' hsize h.marking.marked.honest h.lags

/-- What a session leaves on disk that was closed, or that could not be. -/
theorem close_rests (h : Ongoing session) : Rests (closing session) (close session).2.storage.inner.onDisk := by
  obtain ⟨husable, hlags, hhonest⟩ := writeHeader_marked_ends h
  have hcloses := close_closes h.marking.sound.opened husable.1.ready
  have hlength : (writeHeader (marked session)).2.storage.inner.image.size ≤ maxFileSize := husable.1.length
  unfold closing
  generalize (close session).2.storage.inner = file at hcloses ⊢
  generalize (close session).1 = result at hcloses ⊢
  cases hcloses with
  | done hwrite hsaved himage =>
    rw [hwrite, ← himage] at hhonest
    exact hsaved.rests (himage ▸ hlength) hhonest
  | kept e => exact husable.1.rests hlags
  | unwritten hwrite hsaved himage =>
    rw [hwrite, ← himage] at hhonest
    exact hsaved.rests (himage ▸ hlength) hhonest

/-! ### Closed sessions -/

/-- A closed session does nothing about any event. -/
theorem handle_of_closed (hclosed : session.closed = true) {event : Event}
    (hreopen : ∀ policy options, event ≠ .reopen policy options) :
    (handle (fun storage => storage) event session).2 = session := by
  have hrefuses : ∀ {α β : Type} (next : SessionM (Unreliable CachedFile) α) (f : α → β),
      ((do ensureOpen; next) >>= fun a => pure (f a) : SessionM (Unreliable CachedFile) β) session =
        (.error .closed, session) := fun next f => by
    rw [SessionM.bind_pure_apply, ensureOpen_bind_of_closed hclosed]
    rfl
  cases event with
  | request request =>
    cases request with
    | insert payload => exact congrArg Prod.snd (hrefuses _ Reply.id)
    | update id payload => exact congrArg Prod.snd (hrefuses _ Reply.id)
    | delete id => exact congrArg Prod.snd (hrefuses _ fun _ => Reply.done)
    | read id => exact congrArg Prod.snd (hrefuses _ Reply.payload)
    | resolve id => exact congrArg Prod.snd (hrefuses _ Reply.id)
    | flush => exact congrArg Prod.snd (hrefuses _ fun _ => Reply.done)
  | recover => exact congrArg Prod.snd (hrefuses _ Reply.counters)
  | count => exact congrArg Prod.snd (hrefuses _ Reply.counters)
  | reopen policy options => exact absurd rfl (hreopen policy options)

theorem close_of_closed (hclosed : session.closed = true) : close session = (.ok (), session) := by
  unfold close
  rw [bind_apply]
  change (if session.closed then _ else _ : SessionM (Unreliable CachedFile) Unit) session = _
  rw [hclosed, if_pos rfl]
  rfl

end Session

/-! ### The life of a file -/

namespace CachedFile

variable {file : CachedFile} {last : Option Counters}

/-- A file that is created is empty, whatever stood there. -/
theorem openOrCreate_of_create {path : String} {entry : Entry} {pageSize frames : Nat}
    (h : create path entry pageSize frames = .ok file) : openOrCreate path .missing pageSize frames = .ok file := by
  unfold create PageFile.create at h
  unfold openOrCreate PageFile.openOrCreate
  rcases hpageSize : checkPageSize pageSize with e | ⟨⟩
  · rw [hpageSize] at h
    cases h
  · rw [hpageSize] at h
    cases entry with
    | blocked cause => cases h
    | missing => exact h
    | regular content => exact h

end CachedFile

/-- The file under a path is opened or created, with pages of any size and any number of frames, and with calls that
may fail. -/
structure Opening (entry : Entry) (storage : Unreliable CachedFile) : Prop where
  file : ∃ path pageSize frames, 1 ≤ frames ∧ (CachedFile.openOrCreate path entry pageSize frames = .ok storage.inner ∨
    CachedFile.create path entry pageSize frames = .ok storage.inner)
  reported : storage.reported = none
  plain : storage.faults.plan.Plain

/-- What opening finds if the file is honest. -/
theorem Opening.honest {entry : Entry} {storage : Unreliable CachedFile} {last : Option Counters}
    (h : Opening entry storage) (hrests : ∀ content, entry.Provides content → Rests last content) :
    failingFile.Usable storage ∧ storage.inner.Lags (Image.Honest last) ∧ storage.inner.image.Honest last ∧
      storage.inner.onDisk.byteAt = storage.inner.image.byte := by
  obtain ⟨path, pageSize, frames, hframes, hopen⟩ := h.file
  have hopened : ∃ entry, CachedFile.openOrCreate path entry pageSize frames = .ok storage.inner ∧
      ∀ content, entry.Provides content → Rests last content := by
    -- a file that is created is opened as if there had been none
    refine hopen.elim (fun hopen => ⟨entry, hopen, hrests⟩) fun hcreate =>
      ⟨.missing, CachedFile.openOrCreate_of_create hcreate, ?_⟩
    rintro content (hregular | ⟨-, rfl⟩)
    · cases hregular
    · refine ⟨Nat.zero_le _, fun img hbytes => Image.honest_of_bare fun i _ => ?_⟩
      rw [hbytes]
      rfl
  obtain ⟨entry, hopen, hrests⟩ := hopened
  obtain ⟨hbounded, -, hdisk, content, hentry, hbytes⟩ :=
    CachedFile.openOrCreate_bounded hopen hframes fun content hentry => (hrests content hentry).length
  have hhonest : storage.inner.image.Honest last := (hrests content hentry).honest _ hbytes
  exact ⟨⟨hbounded, h.reported, h.plain⟩, fun _ => ⟨_, hhonest, fun i _ => congrFun hdisk i⟩, hhonest, hdisk⟩

inductive Stage
  | resting (entry : Entry)
  | inUse (session : Session (Unreliable CachedFile))

open Session in
/-- A file that was never set up goes through the hands of sessions.  The first argument is what is to be known of the
last session that was opened: the counters that it held when it was closed, if that succeeded when it was first
tried. -/
inductive Life : Option Counters → Stage → Prop
  | unused {entry : Entry} (h : ∀ content, entry.Provides content →
      content.length ≤ maxFileSize ∧ ∀ i < FileHeader.size, content.byteAt i = 0) : Life none (.resting entry)
  | touched {last : Option Counters} {entry : Entry} {storage : Unreliable CachedFile} (h : Life last (.resting entry))
      (hopening : Opening entry storage) : Life last (.resting (.regular storage.inner.onDisk))
  | refused {last : Option Counters} {entry : Entry} {storage storage' : Unreliable CachedFile} {policy : CapacityPolicy}
      {options : Options} {e : StoreError} (h : Life last (.resting entry)) (hopening : Opening entry storage)
      (hrefused : openOn storage policy options = .error (e, storage')) :
      Life last (.resting (.regular storage'.inner.onDisk))
  | opened {last : Option Counters} {entry : Entry} {storage : Unreliable CachedFile} {policy : CapacityPolicy}
      {options : Options} {session : Session (Unreliable CachedFile)} (h : Life last (.resting entry))
      (hopening : Opening entry storage) (hopen : openOn storage policy options = .ok session) :
      Life none (.inUse session)
  | handled {last : Option Counters} {session : Session (Unreliable CachedFile)} (h : Life last (.inUse session))
      {event : Event} (hreopen : ∀ policy options, event ≠ .reopen policy options) :
      Life last (.inUse (handle (fun storage => storage) event session).2)
  | scanned {last : Option Counters} {session : Session (Unreliable CachedFile)} (h : Life last (.inUse session))
      {cursor : Cursor} (hoffset : cursor.offset < cursor.stop) (hstart : FileHeader.size ≤ cursor.stop)
      (hstop : cursor.stop ≤ session.storage.inner.size) (haligned : cursor.stop % alignment = 0) :
      Life last (.inUse (scanSlot cursor session).2)
  | closed {last : Option Counters} {session : Session (Unreliable CachedFile)} (h : Life last (.inUse session)) :
      Life (if session.closed then last else closing session) (.inUse (close session).2)
  /-- Pages that were changed in the cache only are lost. -/
  | left {last : Option Counters} {session : Session (Unreliable CachedFile)} (h : Life last (.inUse session)) :
      Life last (.resting (.regular session.storage.inner.onDisk))

namespace Life

open Session

/-- What is true of a file all its life. -/
inductive Holds : Option Counters → Stage → Prop
  | resting {last : Option Counters} {entry : Entry} (h : ∀ content, entry.Provides content → Rests last content) :
      Holds last (.resting entry)
  | ongoing {session : Session (Unreliable CachedFile)} (h : Ongoing session) : Holds none (.inUse session)
  | closed {last : Option Counters} {session : Session (Unreliable CachedFile)} (hclosed : session.closed = true)
      (h : Rests last session.storage.inner.onDisk) : Holds last (.inUse session)

variable {last : Option Counters} {entry : Entry} {session : Session (Unreliable CachedFile)}

theorem Holds.of_rests {content : SparseFile} (h : Rests last content) : Holds last (.resting (.regular content)) := by
  refine .resting ?_
  rintro _ (⟨⟨⟩⟩ | ⟨⟨⟩, -⟩)
  exact h

theorem Holds.rests (h : Holds last (.resting entry)) : ∀ content, entry.Provides content → Rests last content := by
  cases h with
  | resting h => exact h

theorem holds {stage : Stage} (h : Life last stage) : Holds last stage := by
  -- what one stage leaves in the file is what the next one finds there
  induction h with
  | unused h =>
    refine .resting fun content hentry => ?_
    obtain ⟨hlength, hbare⟩ := h content hentry
    refine ⟨hlength, fun img hbytes => Image.honest_of_bare fun i hi => ?_⟩
    rw [hbytes]
    exact hbare i hi
  | touched _ hopening ih =>
    obtain ⟨husable, hlags, -⟩ := hopening.honest ih.rests
    exact .of_rests (husable.1.rests hlags)
  | @refused _ _ _ _ policy options _ _ hopening hrefused ih =>
    obtain ⟨husable, hlags, hhonest, -⟩ := hopening.honest ih.rests
    have hends := openOn_ends policy options husable hlags hhonest
    rw [hrefused] at hends
    exact .of_rests hends
  | @opened _ _ _ policy options _ _ hopening hopen ih =>
    obtain ⟨husable, hlags, hhonest, -⟩ := hopening.honest ih.rests
    have hends := openOn_ends policy options husable hlags hhonest
    rw [hopen] at hends
    exact .ongoing hends.1
  | handled _ hreopen ih =>
    cases ih with
    | ongoing h => exact .ongoing (h.handle hreopen)
    | closed hclosed h =>
      rw [handle_of_closed hclosed hreopen]
      exact .closed hclosed h
  | scanned _ hoffset hstart hstop haligned ih =>
    cases ih with
    | ongoing h =>
      have hfits := h.marking.sound.fits
      exact .ongoing (h.scanSlot ⟨hfits.pageSize, hfits.supported, hstart, hstop, haligned⟩ hoffset)
    | closed hclosed h =>
      unfold scanSlot
      rw [ensureOpen_bind_of_closed hclosed]
      exact .closed hclosed h
  | @closed _ session _ ih =>
    cases ih with
    | ongoing h =>
      have hopened : session.closed = false := h.marking.sound.opened
      rw [if_neg (by rw [hopened]; decide)]
      exact .closed (closed_close hopened) (close_rests h)
    | closed hclosed h =>
      rw [if_pos hclosed, close_of_closed hclosed]
      exact .closed hclosed h
  | left _ ih =>
    cases ih with
    | ongoing h => exact .of_rests (h.usable.1.rests h.lags)
    | closed hclosed h => exact .of_rests h

end Life

open Session in
/-- Whoever opens a file notices that the last session did not come to a clean end.  A file that is said to have been
closed has no header yet and gets its first one, or it was closed by the last session that was opened, and its counters
are the ones that this session held, as the words of the header hold them. -/
theorem unclean_ends_are_noticed {last : Option Counters} {entry : Entry} {storage : Unreliable CachedFile}
    {policy : CapacityPolicy} {options : Options} {session : Session (Unreliable CachedFile)}
    (h : Life last (.resting entry)) (hopening : Opening entry storage)
    (hopen : openOn storage policy options = .ok session) (hclosed : session.wasClosedProperly = true) :
    ((∀ i < FileHeader.size, storage.inner.onDisk.byteAt i = 0) ∧
      session.header = FileHeader.new storage.inner.pageSize) ∨
    ∃ held, last = some held ∧ session.counters = held.inWords ∧ (held.FitWords → session.counters = held) := by
  obtain ⟨husable, hlags, hhonest, hdisk⟩ := hopening.honest h.holds.rests
  have hends := openOn_ends policy options husable hlags hhonest
  rw [hopen] at hends
  rw [hdisk]
  refine (hends.2 hclosed).imp_right fun ⟨held, hlast, hcounters⟩ => ⟨held, hlast, hcounters, fun hfit => ?_⟩
  rw [hcounters, hfit.inWords_eq]

namespace Session

/-- An empty file of small pages behind a cache of one frame, no call on which fails. -/
private def freshFile : Unreliable CachedFile :=
  { inner := .behind { content := .empty, pageSize := 256 } 1, reported := none, faults := .none, lost := false }

private abbrev calmFile : StorageContract (Unreliable CachedFile) :=
  Unreliable.calmContract CachedFile.boundedContract

/-- A session that was opened on the empty file and stored a record. -/
private theorem run_insertion : ∃ session layout store, Life none (.inUse session) ∧ calmFile.Usable session.storage ∧
    (session.seen calmFile.toStorageView).Serves layout store ∧ store.pageSize = 256 ∧ store.counters.allocated = 1 := by
  have hbehind := CachedFile.bounded_behind { content := .empty, pageSize := 256 } (by decide) (by decide) rfl
    (Nat.zero_le _) (Nat.le_refl 1)
  have hfresh : calmFile.Usable freshFile := ⟨hbehind.1, rfl, rfl, rfl⟩
  have himage : calmFile.image freshFile = _ := hbehind.2
  have hblank : (calmFile.image freshFile).Blank := by
    rw [himage]
    exact ⟨⟨by decide, by decide, by decide⟩, fun _ _ => rfl⟩
  obtain ⟨session, hopen, husable, hserves, -⟩ :=
    (openOn_blank hfresh hblank .exactDefault .default).exists_session fun _ _ hfailed => hfailed.1
  have hopening : Opening .missing freshFile := ⟨⟨"", 256, 1, Nat.le_refl 1, .inl rfl⟩, rfl, hfresh.2.plain⟩
  have hunused : Life none (.resting .missing) := by
    refine .unused ?_
    rintro content (⟨⟨⟩⟩ | ⟨-, rfl⟩)
    exact ⟨Nat.zero_le _, fun _ _ => rfl⟩
  have hinsert : ∀ policy options, Event.request (.insert ⟨#[1]⟩) ≠ .reopen policy options := fun _ _ => nofun
  have hperforms : Performs calmFile.toStorageView (handle (fun storage => storage) (.request (.insert ⟨#[1]⟩))) _ _ :=
    handle_performs hserves (fun storage => storage) (.request (.insert ⟨#[1]⟩)) hinsert nofun
  obtain ⟨husable', layout, store, hadvances, houtcome⟩ := hperforms session husable rfl
  have hpageSize : (calmFile.image freshFile).pageSize = 256 := congrArg Image.pageSize himage
  rw [hpageSize] at houtcome
  refine ⟨_, layout, store, (Life.opened hunused hopening hopen).handled hinsert, husable', hadvances.serves, ?_⟩
  have hstore : store = ((Store.empty 256 .exactDefault).respond (.request (.insert ⟨#[1]⟩))).2 := by
    rcases houtcome.respond_or_failed with hrespond | ⟨-, e, -, hexcuse⟩
    · exact (congrArg Prod.snd hrespond).symm
    · cases hexcuse with
      | io hfallible => exact absurd hfallible id
      | hops hrecord => exact absurd hrecord List.not_mem_nil
  rw [hstore]
  exact ⟨by decide +kernel, by decide +kernel⟩

/-- A file that was created, used and closed while no call failed. -/
theorem clean_end_is_trusted : ∃ held storage session, openOn storage .exactDefault .default = .ok session ∧
    session.wasClosedProperly = true ∧ session.counters.allocated = 1 ∧ session.counters = held.inWords ∧
      ∃ entry, Life (some held) (.resting entry) ∧ Opening entry storage := by
  obtain ⟨last, layout, store, hlife, husable, hserves, hpageSize, hallocated⟩ := run_insertion
  have hopened : last.closed = false := hserves.opened
  have hclose := close_serves husable hserves
  have hlife' := hlife.closed
  unfold closing at hlife'
  rw [if_neg (by rw [hopened]; decide)] at hlife'
  rcases hrun : close last with ⟨e | ⟨⟩, closed⟩
  · rw [hrun] at hclose
    exact absurd hclose.1 id
  rw [hrun] at hclose hlife'
  obtain ⟨husable', hkeeps, -⟩ := hclose
  obtain ⟨found, hopen, -, hserves', -, -, hclosed⟩ :=
    (openOn_closed husable' hkeeps .exactDefault .default).exists_session fun _ _ hfailed => hfailed.1
  have hcounters : found.counters = store.counters := hserves'.counters_eq
  have hfile : closed.storage.inner.cache.file.pageSize = 256 := hkeeps.pageSize_eq.trans hpageSize
  have hpages : closed.storage.inner.onDisk.length % 256 = 0 := hfile ▸ husable'.1.ready.sound.pages
  have hregular := CachedFile.openOrCreate_regular "" (show checkPageSize 256 = .ok () from rfl) hpages 1
  have hopening : Opening (.regular closed.storage.inner.onDisk) (calmFile.reopen closed.storage) := by
    refine ⟨⟨"", 256, 1, Nat.le_refl 1, .inl ?_⟩, husable'.2.reported, husable'.2.plain⟩
    rw [hregular, ← hfile]
    rfl
  rw [← hcounters] at hallocated
  rcases unclean_ends_are_noticed hlife'.left hopening hopen hclosed with ⟨-, hnew⟩ | ⟨held, hheld, hsame, -⟩
  · unfold counters at hallocated
    rw [hnew] at hallocated
    cases hallocated
  · exact ⟨held, _, found, hopen, hclosed, hallocated, hsame, _, hheld ▸ hlife'.left, hopening⟩

end Session

end RecordStore
