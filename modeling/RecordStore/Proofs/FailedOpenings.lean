import RecordStore.Proofs.Saving
import RecordStore.Proofs.SessionCuts
import RecordStore.Proofs.SlotWalks
import RecordStore.Proofs.Undisturbed

/-!
# Openings that fail

Opening a file may fail because calls fail, and it may be tried as often as one likes (`FailedOpenings`).  What stands
on disk afterwards can be opened like what stood there before (`Reopens.refused`).  So the opening that succeeds at last
finds the counters, the slots and the records that the first one would have found (`failed_openings_are_harmless`).
-/

namespace RecordStore

open Bytes StorageView
open CachedFile (failingFile boundedContract)

variable {version : Image → Prop} {pageSize : Nat} {counters : Counters} {settled : Prop} {path : String}
  {entry : Entry} {content : SparseFile} {policy : CapacityPolicy} {options : Options}

namespace Stored

variable {file : CachedFile}

/-- Behind a new cache. -/
theorem behind (h : Stored version pageSize content) (hpageSize : checkPageSize pageSize = .ok ()) {frames : Nat}
    (hframes : 1 ≤ frames) : (CachedFile.behind { content, pageSize } frames).Bounded ∧
      version (CachedFile.behind { content, pageSize } frames).image ∧
      (CachedFile.behind { content, pageSize } frames).Lags version := by
  obtain ⟨hlarge, hsmall⟩ := le_of_checkPageSize hpageSize
  obtain ⟨hbounded, himage⟩ :=
    CachedFile.bounded_behind { content, pageSize } hlarge hsmall h.pages h.length hframes
  exact ⟨hbounded, himage ▸ h.version, fun _ => ⟨content.image pageSize, h.version, fun _ _ => rfl⟩⟩

theorem of_disk (hbounded : file.Bounded) (hpageSize : file.pageSize = pageSize) (hversion : version file.disk) :
    Stored version pageSize file.onDisk := by
  subst hpageSize
  exact ⟨hbounded.ready.sound.pages, hbounded.ready.size ▸ hbounded.length, hversion⟩

end Stored

namespace Reopens

variable (h : Reopens version pageSize counters settled)

include h

/-- A file that is released is left as it was on disk, or as it was in the cache. -/
theorem release {storage : Unreliable CachedFile} (hbounded : storage.inner.Bounded)
    (hversion : version storage.inner.image) (hlags : storage.inner.Lags version) :
    Stored version pageSize (Session.release storage).inner.onDisk := by
  have hpageSize : storage.inner.pageSize = pageSize := h.pageSize_eq hversion
  rcases Session.release_cases hbounded.ready with ⟨-, hsame⟩ | ⟨-, hsaved, himage⟩
  · rw [hsame]
    exact .of_disk hbounded hpageSize (h.disk hbounded hversion hlags)
  · have hlength : (Session.release storage).inner.onDisk.length = storage.inner.size :=
      hsaved.length.trans (congrArg Image.size himage)
    have hdisk : (Session.release storage).inner.onDisk.image pageSize = storage.inner.image := by
      rw [← himage, ← CachedFile.Leaves.disk_eq_image hsaved, ← hpageSize]
      exact congrArg (SparseFile.image _) (congrArg Image.pageSize himage).symm
    refine ⟨?_, hlength ▸ hbounded.length, hdisk ▸ hversion⟩
    rw [hlength, ← hpageSize]
    exact hbounded.ready.size_mod

/-- An opening that fails leaves a version. -/
theorem refused {storage storage' : Unreliable CachedFile} (husable : failingFile.Usable storage)
    (hversion : version (failingFile.image storage)) (hlags : storage.inner.Lags version)
    (hrecover : options.recover = true ∨ settled) {e : StoreError}
    (hopen : Session.openOn storage policy options = .error (e, storage')) :
    Stored version pageSize storage'.inner.onDisk := by
  have hlagging := CachedFile.lags_run (Session.loadHeader_uniform (failingFile.image storage).pageSize) husable
    ((h.loads (Unreliable.contract failingFile) hversion).mono fun _ _ hloads => hloads.1) hlags
  obtain ⟨husable', hafter, hstarts⟩ := h.loads failingFile hversion storage husable rfl
  have hattempt := Session.openOn_attempt husable policy options
  rw [hopen] at hattempt
  cases hattempt with
  | refused hload =>
    rw [hload] at husable' hafter hlagging
    exact h.release husable'.1 hafter hlagging
  | @failed _ begun _ _ hload hseen hstart =>
    rw [hload] at husable' hstarts hlagging
    -- cut off anywhere, the start has written nothing or its header
    have hstarting : ∀ {σ : Type} [PagedStorage σ] (contract : StorageContract σ),
        Session.Performs contract.toStorageView (Session.start options.recover) (begun.seen failingFile.toStorageView)
          fun _ after => version after.storage :=
      fun contract => hseen ▸ (hstarts policy options hrecover contract).mono fun _ _ hstarted => hstarted.1
    have hlagging' := Session.lags_perform (Session.start_uniform options.recover) husable'
      (hstarting (Unreliable.contract failingFile)) hlagging
    obtain ⟨husable'', hversion'⟩ := hstarting failingFile begun husable' rfl
    rw [hstart] at husable'' hversion' hlagging'
    exact h.release husable''.1 hversion' hlagging'

/-- Where no call fails a session comes about, on a version. -/
theorem opens (hstored : Stored version pageSize content) (hentry : entry.Provides content)
    (hpageSize : checkPageSize options.pageSize = .ok ()) (hsame : options.pageSize = pageSize)
    (hframes : 1 ≤ options.frames) (hrecover : options.recover = true ∨ settled) (policy : CapacityPolicy) :
    ∃ session, Session.openFile path entry policy options = .ok session ∧ session.storage.Bounded ∧
      version session.storage.image ∧ (session.seen boundedContract.toStorageView).Reopened counters
        { policy, maxHops := options.maxHops, pageSize } := by
  subst hsame
  obtain ⟨hbounded, hversion, -⟩ := hstored.behind hpageSize hframes
  have husable : boundedContract.Usable (.behind { content, pageSize := options.pageSize } options.frames) := hbounded
  have hopens : Session.Opens boundedContract (.behind { content, pageSize := options.pageSize } options.frames) policy
      options (fun session => version session.storage ∧
        session.Reopened counters { policy, maxHops := options.maxHops, pageSize := options.pageSize })
      fun _ _ => False := by
    refine Session.opens_of husable ((h.loads boundedContract hversion).mono ?_)
    rintro (e | found) after ⟨-, hloads⟩
    · exact hloads
    · refine (hloads policy options hrecover boundedContract).mono ?_
      rintro (e | ⟨⟩) session ⟨hafter, hstarts⟩
      · exact hstarts
      · rw [h.pageSize_eq hversion] at hstarts
        exact ⟨hafter, hstarts⟩
  obtain ⟨session, hopen, hbounded', hversion', hreopened⟩ := hopens.exists_session fun _ _ => id
  have hfile := hentry.openOrCreate path hpageSize hstored.pages options.frames
  exact ⟨session, Session.openFile_eq_ok.2 ⟨_, hfile, hopen⟩, hbounded', hversion', hreopened⟩

end Reopens

/-! ### Sessions on versions -/

namespace Session

variable {session session' : Session CachedFile} {rules : Rules}

/-- A file with no slots shows none. -/
theorem Reopened.records_eq (h : (session.seen boundedContract.toStorageView).Reopened counters rules)
    (hsize : counters.size = FileHeader.size) : (records session).1 = (none, []) := by
  have hheader : session.header = { FileHeader.new rules.pageSize with counters } := h.header
  have hstop : session.counters.size = FileHeader.size := by
    unfold Session.counters
    rw [hheader]
    exact hsize
  have hcursor : ¬session.cursor.offset < session.cursor.stop := Nat.not_lt.2 (Nat.le_of_eq hstop)
  have hscan : ∀ visitor : ScannedSlot → List ScannedSlot → StateM (Session CachedFile) (Bool × List ScannedSlot),
      forEachFrom session.cursor visitor [] session = ((none, []), session) := fun visitor => by
    rw [forEachFrom, if_neg hcursor]
    rfl
  change ((forEachFrom session.cursor _ [] session).1.1, (forEachFrom session.cursor _ [] session).1.2.reverse) = _
  rw [hscan]
  rfl

/-- Nor does it have a record. -/
theorem Reopened.read_eq (h : (session.seen boundedContract.toStorageView).Reopened counters rules)
    (husable : boundedContract.Usable session.storage) (hsize : counters.size = FileHeader.size) (id : RecordId) :
    (read id session).1 = .error (.notFound id) := by
  have hheader : session.header = { FileHeader.new rules.pageSize with counters } := h.header
  have hstop : session.region.stop = FileHeader.size := by
    unfold Session.region
    rw [hheader]
    exact hsize
  have hnot : session.region.contains id = false := by
    unfold Region.contains
    rw [hstop]
    simp only [Bool.and_eq_false_iff, decide_eq_false_iff_not]
    omega
  have hslot : Reads (fun σ _ => (session.region.isSlot id : SlotM σ Bool)) (boundedContract.image session.storage)
      (.ok false) := fun σ _ contract => by
    unfold Region.isSlot
    rw [hnot]
    exact Answers.pure _
  have hopened : session.closed = false := h.opened
  rw [read_apply hopened]
  have hanswers := answers_onSlots husable (Region.lookUp_not_found hslot session.maxHops)
  exact hanswers.2.resolve_right fun hfailed => hfailed.1

end Session

namespace Reopens

variable (h : Reopens version pageSize counters settled)

include h

/-- Sessions on versions show the same. -/
theorem shows_alike {session session' : Session CachedFile} {rules : Session.Rules} (hbounded : session.storage.Bounded)
    (hbounded' : session'.storage.Bounded) (hversion : version session.storage.image)
    (hversion' : version session'.storage.image)
    (hreopened : (session.seen boundedContract.toStorageView).Reopened counters rules)
    (hreopened' : (session'.seen boundedContract.toStorageView).Reopened counters rules)
    (hfits : rules.pageSize < 2 ^ 32) :
    session'.counters = session.counters ∧ (Session.records session').1 = (Session.records session).1 ∧
      ∀ id, (Session.read id session').1 = (Session.read id session).1 := by
  have hheader : session'.header = session.header := hreopened'.header.trans hreopened.header.symm
  refine ⟨congrArg FileHeader.counters hheader, ?_⟩
  -- either the files have the same slots, or there are none
  rcases h.alike hversion hversion' with ⟨hslots, hreach⟩ | hempty
  · have hreach' : session'.storage.image.size ≤ reach + session'.storage.image.pageSize := by
      rw [hslots.size, hslots.pageSize]
      exact hreach
    have halike : Session.Alike rules session session' :=
      ⟨⟨hbounded.usable hreach, hbounded'.usable hreach', hslots⟩, hreopened.ruled, hreopened'.ruled, hheader,
        hreopened'.opened.trans hreopened.opened.symm, hfits⟩
    exact ⟨(Session.scanWhile_alike halike fun _ => true).1, fun id => (Session.read_matched halike id).1⟩
  · rw [hreopened.records_eq hempty, hreopened'.records_eq hempty]
    exact ⟨rfl, fun id => by rw [hreopened.read_eq hbounded hempty, hreopened'.read_eq hbounded' hempty]⟩

end Reopens

/-! ### Trying again -/

/-- The file under a path is opened any number of times, with pages of one size and a recount if one is needed, and
every opening fails.  Any call may fail, and then it has no effect. -/
inductive FailedOpenings (path : String) (pageSize : Nat) (entry : Entry) : Entry → Prop
  | none : FailedOpenings path pageSize entry entry
  | next {last : Entry} {policy : CapacityPolicy} {options : Options} {storage storage' : Unreliable CachedFile}
      {e : StoreError} (h : FailedOpenings path pageSize entry last) (hpageSize : options.pageSize = pageSize)
      (hframes : 1 ≤ options.frames) (hrecover : options.recover = true)
      (hfile : CachedFile.openOrCreate path last options.pageSize options.frames = .ok storage.inner)
      (hreported : storage.reported = Option.none) (hplain : storage.faults.plan.Plain)
      (hfailed : Session.openOn storage policy options = .error (e, storage')) :
      FailedOpenings path pageSize entry (.regular storage'.inner.onDisk)

theorem FailedOpenings.stored {left : Entry} (h : FailedOpenings path pageSize entry left)
    (hpageSize : checkPageSize pageSize = .ok ()) (hreopens : Reopens version pageSize counters settled)
    (hentry : entry.Provides content) (hstored : Stored version pageSize content) :
    ∃ content, left.Provides content ∧ Stored version pageSize content := by
  induction h with
  | none => exact ⟨content, hentry, hstored⟩
  | next _ hsame hframes hrecover hfile hreported hplain hfailed ih =>
    subst hsame
    obtain ⟨found, hprovides, hfound⟩ := ih
    rw [hprovides.openOrCreate path hpageSize hfound.pages] at hfile
    obtain ⟨hbounded, hversion, hlags⟩ := hfound.behind hpageSize hframes
    rw [Except.ok.inj hfile] at hbounded hversion hlags
    exact ⟨_, .inl rfl, hreopens.refused ⟨hbounded, hreported, hplain⟩ hversion hlags (.inl hrecover) hfailed⟩

open Session in
/-- Openings that fail are harmless.  A file that no failed call lies behind is opened any number of times, and every
opening fails.  It can still be opened where no call fails, and shows the counters, the slots and the records that it
would have shown without these openings.  If its last session was not cut off, this is so without a recount too. -/
theorem failed_openings_are_harmless {left : Entry} (hpageSize : checkPageSize pageSize = .ok ())
    (hbehind : LeftBehind path pageSize entry) (hattempts : FailedOpenings path pageSize entry left)
    (policy : CapacityPolicy) (hsame : options.pageSize = pageSize) (hframes : 1 ≤ options.frames)
    (hrecover : options.recover = true ∨ Undisturbed path pageSize (.resting entry)) :
    ∃ direct later, openFile path entry policy options = .ok direct ∧
      openFile path left policy options = .ok later ∧ later.counters = direct.counters ∧
      (records later).1 = (records direct).1 ∧ ∀ id, (read id later).1 = (read id direct).1 := by
  obtain ⟨version, counters, content, hreopens, hentry, hstored⟩ := hbehind.restartable hpageSize
  obtain ⟨content', hentry', hstored'⟩ := hattempts.stored hpageSize hreopens hentry hstored
  rw [← hsame] at hpageSize
  obtain ⟨direct, hdirect, hbounded, hversion, hreopened⟩ :=
    hreopens.opens hstored hentry hpageSize hsame hframes hrecover policy
  obtain ⟨later, hlater, hbounded', hversion', hreopened'⟩ :=
    hreopens.opens hstored' hentry' hpageSize hsame hframes hrecover policy
  rw [hsame] at hpageSize
  exact ⟨direct, later, hdirect, hlater, hreopens.shows_alike hbounded hbounded' hversion hversion' hreopened hreopened'
    (supported_of_checkPageSize hpageSize).fits⟩

namespace Session

private def smallPages : Options := { Options.default with pageSize := 256, frames := 1 }

/-! ### An opening without flushes -/

/-- A file that cannot be flushed, with the calls that were decided on and those written down. -/
private def unflushable (file : CachedFile) (decided : List StorageCall) (log : List LoggedCall) :
    Unreliable CachedFile :=
  let plan : FaultPlan := fun _ call _ => if call = .flush then .fail else .proceed
  { inner := file, reported := none, faults := { plan, decided, log }, lost := false }

section

variable {file file' : CachedFile} (decided : List StorageCall) (log : List LoggedCall)

private theorem size_unflushable (hready : file.Ready) :
    (PagedStorage.size : StorageM (Unreliable CachedFile) Nat) (unflushable file decided log) =
      (.ok file.size, unflushable file (.size :: decided) log) := by
  have happly : (PagedStorage.size : StorageM (Unreliable CachedFile) Nat) (unflushable file decided log) =
      ((PagedStorage.size file).1, unflushable (PagedStorage.size file).2 (.size :: decided) log) := rfl
  rw [happly, CachedFile.size_apply hready.opened]

private theorem read_unflushable {offset length : Nat} {raw : ByteArray}
    (h : PagedStorage.read offset length file = (.ok raw, file')) :
    PagedStorage.read offset length (unflushable file decided log) =
      (.ok raw, unflushable file' (.read :: decided) log) := by
  have happly : PagedStorage.read offset length (unflushable file decided log) =
      ((PagedStorage.read offset length file).1,
        unflushable (PagedStorage.read offset length file).2 (.read :: decided) log) := rfl
  rw [happly, h]

private theorem write_unflushable {offset : Nat} {data : ByteArray}
    (h : PagedStorage.write offset data file = (.ok (), file')) :
    PagedStorage.write offset data (unflushable file decided log) =
      (.ok (), unflushable file' (.write :: decided) (⟨.write, offset, data.size, false⟩ :: log)) := by
  have hguarded :
      Unreliable.guarded .write (some offset) (PagedStorage.write offset data) (unflushable file decided log) =
        ((PagedStorage.write offset data file).1,
          unflushable (PagedStorage.write offset data file).2 (.write :: decided) log) := rfl
  change Unreliable.logged .write offset data.size _ _ = _
  unfold Unreliable.logged
  rw [hguarded, h]
  rfl

private theorem release_unflushable (h : (PagedStorage.close : StorageM CachedFile Unit) file = (.ok (), file')) :
    (release (unflushable file decided log)).inner = file' := by
  have hguarded : Unreliable.guarded .close none PagedStorage.close (unflushable file decided log) =
      (((PagedStorage.close : StorageM CachedFile Unit) file).1,
        unflushable ((PagedStorage.close : StorageM CachedFile Unit) file).2 (.close :: decided) log) := rfl
  change (Unreliable.logged .close 0 0 _ _).2.inner = _
  unfold Unreliable.logged
  rw [hguarded, h]
  rfl

end

variable {file : CachedFile} {layout : Layout} {store : Store}

/-- The header of a file that was closed is found without a flush. -/
private theorem loadHeader_unflushable (husable : file.Usable) (h : file.image.Keeps layout store .closed) :
    ∃ (header : FileHeader) (file' : CachedFile), file'.Usable ∧ FileHeader.size ≤ file'.size ∧
      loadHeader file.pageSize (unflushable file [] []) = (.ok (header, true), unflushable file' [.read, .size] []) := by
  obtain ⟨header, hholds, hstatus, hdescribes⟩ := h.header
  obtain ⟨hlow, hhigh, hmod⟩ := hdescribes.boundary.bounds h.tracks
  have hbound : store.stop ≤ file.size := h.tracks.bound
  have hsize : FileHeader.size ≤ file.size := Nat.le_trans hlow (Nat.le_trans hhigh hbound)
  have hpageSize : file.pageSize = store.pageSize := h.pageSize_eq
  have hsame : header.pageSize = file.pageSize := hdescribes.pageSize.trans hpageSize.symm
  have hlarge := h.supported.large
  have haligned := h.supported.aligned
  have hfits := h.supported.fits
  rw [← hpageSize] at hlarge haligned hfits
  obtain ⟨file', hread, hbecomes⟩ := CachedFile.read_becomes husable (show 0 + FileHeader.size ≤ file.size by omega)
  have hsize' : file'.size = file.size := congrArg Image.size hbecomes.image
  refine ⟨header, file', hbecomes.usable, hsize' ▸ hsize, ?_⟩
  unfold loadHeader
  rw [if_neg (by omega)]
  dsimp only
  rw [bind_apply, SlotM.onStorage_apply, size_unflushable _ _ husable.ready]
  dsimp only [Except.mapError]
  rw [if_neg (by unfold FileHeader.size at hsize; omega), if_neg (by omega), bind_apply, SlotM.onStorage_apply,
    read_unflushable _ _ hread]
  dsimp only [Except.mapError]
  rw [Image.read_header hholds, FileHeader.decode_encode hdescribes.valid]
  dsimp only
  rw [if_neg (by simp [hsame]), if_neg (by omega), hstatus]
  rfl

/-- An opening of such a file writes the header and stops at the flush; then the header comes to the disk all the same,
when the file is closed. -/
private theorem openOn_unflushable (husable : file.Usable) (h : file.image.Keeps layout store .closed)
    (policy : CapacityPolicy) (options : Options) :
    ∃ (storage : Unreliable CachedFile) (header : FileHeader),
      openOn (unflushable file [] []) policy options = .error (.io (.io (.injected .flush)), storage) ∧
        header.status = .opened ∧
        ∀ pageSize, (storage.inner.onDisk.image pageSize).Holds 0 (ofList header.encode) := by
  obtain ⟨header, file₁, husable₁, hsize, hload⟩ := loadHeader_unflushable husable h
  let opened : FileHeader := { header with status := .opened }
  have hfits : 0 + (ofList opened.encode).size ≤ file₁.size := by
    simp only [size_ofList, FileHeader.length_encode]
    omega
  obtain ⟨file₂, hwrite, hbecomes⟩ := CachedFile.write_becomes husable₁ hfits
  obtain ⟨file₃, hclose, -, -, -, -, hdisk⟩ := CachedFile.close_apply hbecomes.usable.ready
  let found : Session (Unreliable CachedFile) :=
    { storage := unflushable file₁ [.read, .size] [], policy, maxHops := options.maxHops, pageSize := file.pageSize
      wasClosedProperly := true, header, closed := false }
  let log : List LoggedCall := [⟨.flush, 0, 0, true⟩, ⟨.write, 0, (ofList opened.encode).size, false⟩]
  let last : Unreliable CachedFile := unflushable file₂ [.flush, .write, .read, .size] log
  have hstart : start options.recover found =
      (.error (.io (.io (.injected .flush))), { found with header := opened, storage := last }) := by
    rw [start_of_closed rfl]
    unfold persist writeHeader
    rw [bind_apply, get_bind_apply]
    unfold onSlots
    rw [SlotM.onStorage_apply, write_unflushable _ _ hwrite]
    rfl
  refine ⟨release last, opened, ?_, rfl, fun pageSize i hi => ?_⟩
  · have hpageSize : PagedStorage.pageSize (unflushable file [] []) = file.pageSize := rfl
    unfold openOn
    dsimp only
    rw [hpageSize, hload]
    dsimp only
    rw [hstart]
  · have hholds := Image.holds_write file₁.image 0 (ofList opened.encode) i hi
    rw [← hbecomes.image] at hholds
    rw [release_unflushable _ _ hclose]
    exact (hdisk _).trans hholds

/-- Opening a file again closes it first. -/
private theorem handleFile_reopened {session direct : Session CachedFile}
    (hok : (handleFile path (.reopen policy options) session).1 = .ok .done)
    (hopen : openFile path (.regular (close session).2.storage.onDisk) policy options = .ok direct) :
    (handleFile path (.reopen policy options) session).2 = direct := by
  unfold handleFile at hok ⊢
  dsimp only at hok ⊢
  rcases hclose : close session with ⟨e | ⟨⟩, closed⟩
  · rw [hclose] at hok
    cases hok
  · rw [hclose] at hopen
    dsimp only at hopen ⊢
    rw [hopen]

/-- A file that was closed with a record in it.  The opening that fails leaves it marked as in use. -/
theorem record_outlasts_failed_opening : ∃ content left direct later, LeftBehind "store" 256 (.regular content) ∧
    FailedOpenings "store" 256 (.regular content) (.regular left) ∧
    (∃ header : FileHeader, header.status = .closed ∧ (content.image 256).Holds 0 (ofList header.encode)) ∧
    (∃ header : FileHeader, header.status = .opened ∧ (left.image 256).Holds 0 (ofList header.encode)) ∧
    openFile "store" (.regular content) .exactDefault smallPages = .ok direct ∧
    openFile "store" (.regular left) .exactDefault smallPages = .ok later ∧ later.counters = direct.counters ∧
    later.counters.allocated = 1 ∧ (records later).1 = (records direct).1 ∧ (read firstId later).1 = .ok ⟨#[1]⟩ := by
  have hpageSize : checkPageSize 256 = .ok () := by decide
  have hsuits : smallPages.Suits 256 := by decide
  obtain ⟨opened, hopen, hintact, -⟩ := openFile_missing "store" .exactDefault hpageSize hsuits
  obtain ⟨-, hinserted, -⟩ := handleFile_step "store" hintact hpageSize
    (show Event.Suits (.request (.insert ⟨#[1]⟩)) 256 from trivial)
  rw [handleFile_of_not_syncs "store" (show ¬Event.Syncs (.request (.insert ⟨#[1]⟩)) from id)] at hinserted
  have hlife := (Undisturbed.missing.opened rfl (Nat.le_refl 1) hopen).handled
    (show ∀ policy options, Event.request (.insert ⟨#[1]⟩) ≠ .reopen policy options from fun _ _ => nofun)
  generalize (handle (fun storage => storage) (.request (.insert ⟨#[1]⟩)) opened).2 = last at hinserted hlife
  -- the file is closed, and then an opening writes the header and fails
  have hrested : Undisturbed "store" 256 (.resting (.regular (close last).2.storage.onDisk)) := hlife.closed
  have hshut : Shut 256 (close last).2.storage.onDisk := by
    cases hrested.sound hpageSize with
    | shut h => exact h
  obtain ⟨layout, store, hkeeps, -⟩ := hshut.kept
  obtain ⟨header, hholds, hstatus, -⟩ := hkeeps.header
  obtain ⟨husable, himage⟩ := CachedFile.usable_behind { content := (close last).2.storage.onDisk, pageSize := 256 }
    (show minPageSize ≤ 256 by decide) hshut.pages hshut.reached (Nat.le_refl 1)
  have hcached : (CachedFile.behind { content := (close last).2.storage.onDisk, pageSize := 256 } 1).image.Keeps layout
      store .closed := by
    rw [himage]
    exact hkeeps
  obtain ⟨storage, header', hrefused, hstatus', hholds'⟩ :=
    openOn_unflushable husable hcached .exactDefault smallPages
  have hattempts : FailedOpenings "store" 256 (.regular (close last).2.storage.onDisk) _ :=
    FailedOpenings.none.next rfl (Nat.le_refl 1) rfl
      (CachedFile.openOrCreate_regular "store" hpageSize hshut.pages 1) rfl
      (fun _ call _ _ => by unfold unflushable; dsimp only; split <;> nofun) hrefused
  obtain ⟨direct, later, hdirect, hlater, hcounters, hrecords, hreads⟩ :=
    failed_openings_are_harmless hpageSize (.rested hrested) hattempts .exactDefault hsuits.pageSize hsuits.frames
      (.inl rfl)
  -- where no call fails a session goes on with the store
  have hpages' : (Store.respond _ _).2.pageSize = 256 :=
    (Store.empty 256 .exactDefault).pageSize_respond (.request (.insert ⟨#[1]⟩))
  obtain ⟨hresult, hreopened, -⟩ := handleFile_step "store" hinserted (hpages' ▸ hpageSize)
    (show Event.Suits (.reopen .exactDefault smallPages) _ from hpages' ▸ hsuits)
  have hsession := handleFile_reopened hresult hdirect
  rw [hsession] at hreopened
  obtain ⟨hread, -, -⟩ := handleFile_step "store" hreopened (hpages' ▸ hpageSize)
    (show Event.Suits (.request (.read firstId)) _ from trivial)
  have hanswer : ((read firstId >>= fun bytes => pure (Reply.payload bytes)) direct).1 = .ok (.payload ⟨#[1]⟩) :=
    hread.trans (by decide +kernel)
  rw [SessionM.bind_pure_apply] at hanswer
  have hpayload : (read firstId direct).1 = .ok ⟨#[1]⟩ := by
    rcases hfound : (read firstId direct).1 with e | payload
    · rw [hfound] at hanswer
      cases hanswer
    · rw [hfound] at hanswer
      cases hanswer
      rfl
  refine ⟨_, _, direct, later, .rested hrested, hattempts, ⟨header, hstatus, hholds⟩, ⟨header', hstatus', hholds' 256⟩,
    hdirect, hlater, hcounters, ?_, hrecords, (hreads firstId).trans hpayload⟩
  obtain ⟨layout, hserves, -⟩ := hreopened.served
  rw [hcounters]
  exact (congrArg Counters.allocated hserves.counters_eq).trans (by decide +kernel)

end Session

end RecordStore
