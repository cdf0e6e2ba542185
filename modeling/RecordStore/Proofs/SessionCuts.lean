import RecordStore.Proofs.AlikeSessions

/-!
# Cuts between sessions

A run on a file may be cut into sessions anywhere: closing the file and opening what is on disk then changes the
header in the file and the cache, and nothing that a session answers (`close_resumes`).  So a run that is cut answers
as the run that is not (`Parallel.run`).
-/

namespace RecordStore

open Bytes

/-! ### Tasks -/

/-- What may be done in an open session.  A scan shows the slots one after the other, as long as `goOn` says so of
those shown so far, the latest first. -/
inductive Task
  | request (request : Request)
  | recover
  | count
  | scan (goOn : List ScannedSlot → Bool)

inductive Answer
  | reply (result : Except StoreError Reply)
  | slots (failure : Option StoreError) (slots : List ScannedSlot)

namespace Session

variable {σ : Type} [PagedStorage σ]

/-- The slots shown by a scan that may be ended early. -/
def scanWhile (goOn : List ScannedSlot → Bool) : StateM (Session σ) (Option StoreError × List ScannedSlot) := do
  let (failure, seen) ← forEach (fun slot seen => return (goOn (slot :: seen), slot :: seen)) []
  return (failure, seen.reverse)

/-- A scan that is not ended early shows all slots. -/
theorem records_eq_scanWhile : (records : StateM (Session σ) _) = scanWhile fun _ => true := rfl

/-- The answer to a task, and the counters after it. -/
def answer (task : Task) (session : Session σ) : (Answer × Counters) × Session σ :=
  let replying (act : SessionM σ Reply) := ((.reply (act session).1, (act session).2.counters), (act session).2)
  match task with
  | .request request => replying (perform request)
  | .recover => replying (return .counters (← recover))
  | .count => replying (return .counters (← countSlots))
  | .scan goOn =>
    let ((failure, slots), session) := scanWhile goOn session
    ((.slots failure slots, session.counters), session)

end Session

/-! ### Sessions in service -/

namespace Session

variable {rules : Rules} {session session' : Session CachedFile} {layout : Layout} {store : Store}

/-- How a session on a file is seen, whatever the size of its cache is. -/
abbrev seenOnFile (session : Session CachedFile) : Session Image :=
  session.seen (CachedFile.contract 1 (Nat.le_refl 1)).toStorageView

/-- A session on a file that serves a store without failing calls. -/
structure InService (session : Session CachedFile) : Prop where
  usable : session.storage.Usable
  served : ∃ layout store, session.seenOnFile.Serves layout store ∧ session.storage.image.Clean layout store

namespace InService

/-- A record that is found has its origin among the slots. -/
theorem anchored (h : session.InService) : Anchored session := by
  obtain ⟨layout, store, hserves, -⟩ := h.served
  have hlookup : ∀ id, Performs (CachedFile.contract 1 (Nat.le_refl 1)).toStorageView (resolveSlot id)
      session.seenOnFile fun result _ => ∀ found capacity length origin, result = .ok found →
        found.header = .live capacity length (some origin) → FileHeader.size ≤ origin.offset := by
    intro id
    refine resolveSlot_performs hserves id ?_ ?_ ?_ ?_
    · rintro record payload passed hlive - _ capacity length origin ⟨⟩ hheader
      obtain ⟨hrecord, -, -⟩ := Store.live_eq_ok hlive
      obtain ⟨-, -, horigin⟩ := SlotHeader.live.inj hheader
      have hmem : origin ∈ record.ids := List.mem_cons_of_mem _ (List.mem_of_getLast? horigin)
      exact hserves.keeps.tracks.size_le_offset (hserves.keeps.represents.mem_ids hrecord hmem)
    · rintro last capacity length relocated passed - _ _ _ _ ⟨⟩ ⟨⟩
    · rintro - _ _ _ _ ⟨⟩
    · rintro e - _ _ _ _ ⟨⟩
  intro id found capacity length origin hfound hheader
  exact (hlookup id session h.usable rfl).2 found capacity length origin hfound hheader

theorem fits (h : session.InService) : session.pageSize < 2 ^ 32 := by
  obtain ⟨layout, store, hserves, -⟩ := h.served
  have hpageSize : store.pageSize = session.pageSize := hserves.pageSize
  rw [← hpageSize]
  exact hserves.keeps.supported.fits

private theorem of_handle (h : session.InService) (event : Event) :
    (handle (CachedFile.contract 1 (Nat.le_refl 1)).reopen event session).2.InService := by
  obtain ⟨layout, store, hserves, hclean⟩ := h.served
  have hensues : Ensues (CachedFile.contract 1 (Nat.le_refl 1)) session layout store event _ _ :=
    handle_ensues h.usable hserves event fun _ => hclean.blank
  generalize (handle (CachedFile.contract 1 (Nat.le_refl 1)).reopen event session).1 = result at hensues
  generalize (handle (CachedFile.contract 1 (Nat.le_refl 1)).reopen event session).2 = after at hensues ⊢
  cases hensues with
  | served husable hserves' hmaxHops houtcome hclean' hworn htrails =>
    exact ⟨husable, _, _, hserves', hclean' hclean id⟩
  | lost hreopen hfallible hkeeps hworn => exact absurd hfallible id

private theorem of_scanWhile (h : session.InService) (goOn : List ScannedSlot → Bool) :
    (scanWhile goOn session).2.InService := by
  obtain ⟨layout, store, hserves, hclean⟩ := h.served
  have hstop : session.counters.size = store.stop := by
    have hcounters : session.counters = store.counters := hserves.counters_eq
    rw [hcounters]
    rfl
  have htracks : layout.Tracks session.storage.image session.counters.size := by
    rw [hstop]
    exact hserves.keeps.tracks
  have hpageSize : session.pageSize = session.storage.image.pageSize :=
    hserves.pageSize.symm.trans hserves.keeps.pageSize_eq.symm
  have hsupported : SupportedPageSize session.storage.image.pageSize :=
    hserves.keeps.pageSize_eq ▸ hserves.keeps.supported
  have hwalks : session.seenOnFile.Walks layout := ⟨hserves.opened, hpageSize, hsupported, htracks⟩
  obtain ⟨husable, hseen⟩ : (scanWhile goOn session).2.storage.Usable ∧
      (scanWhile goOn session).2.seenOnFile = session.seenOnFile :=
    hwalks.forEachFrom_stays (fun _ _ _ => rfl) h.usable (fun id hid => hid) rfl htracks.tiles []
  rw [← hseen] at hserves
  have himage : (scanWhile goOn session).2.storage.image = session.storage.image := congrArg storage hseen
  rw [← himage] at hclean
  exact ⟨husable, layout, store, hserves, hclean⟩

theorem step (h : session.InService) (task : Task) : (session.answer task).2.InService := by
  cases task with
  | request request => exact h.of_handle (.request request)
  | recover => exact h.of_handle .recover
  | count => exact h.of_handle .count
  | scan goOn => exact h.of_scanWhile goOn

end InService

/-! ### Tasks in alike sessions -/

theorem scanWhile_alike (h : Alike rules session session') (goOn : List ScannedSlot → Bool) :
    (scanWhile goOn session').1 = (scanWhile goOn session).1 ∧
      Alike rules (scanWhile goOn session).2 (scanWhile goOn session').2 := by
  have hvisitor : Even rules fun slot (seen : List ScannedSlot) => return (goOn (slot :: seen), slot :: seen) :=
    fun _ _ _ _ h => ⟨rfl, h⟩
  obtain ⟨hresult, hafter⟩ := forEach_matched hvisitor [] h
  exact ⟨congrArg (fun found => (found.1, found.2.reverse)) hresult, hafter⟩

theorem answer_alike (h : Alike rules session session') (hservice : session.InService) (task : Task) :
    (session'.answer task).1 = (session.answer task).1 ∧
      Alike rules (session.answer task).2 (session'.answer task).2 := by
  have hreplying : ∀ {act : SessionM CachedFile Reply}, Matched (Alike rules) act act session session' →
      (Answer.reply (act session').1, (act session').2.counters) =
          (Answer.reply (act session).1, (act session).2.counters) ∧ Alike rules (act session).2 (act session').2 := by
    rintro act ⟨hresult, hafter⟩
    rw [hresult, hafter.counters]
    exact ⟨rfl, hafter⟩
  cases task with
  | request request => exact hreplying (perform_matched h hservice.anchored request)
  | recover => exact hreplying (.bind (recover_matched h) fun _ _ h => .pure h _)
  | count => exact hreplying (.bind (countSlots_matched h) fun _ _ h => .pure h _)
  | scan goOn =>
    obtain ⟨hresult, hafter⟩ := scanWhile_alike h goOn
    refine ⟨?_, hafter⟩
    change (Answer.slots (scanWhile goOn session').1.1 (scanWhile goOn session').1.2,
      (scanWhile goOn session').2.counters) = _
    rw [hresult, hafter.counters]
    rfl

/-! ### Cuts -/

theorem InService.header_le (h : session.InService) : FileHeader.size ≤ session.storage.size := by
  obtain ⟨layout, store, hserves, -⟩ := h.served
  exact Nat.le_trans hserves.keeps.tracks.size_le_stop hserves.keeps.tracks.bound

/-- Closing brings all that the session holds to disk, behind a header that says so. -/
private theorem close_file_apply (husable : session.storage.Usable) (hopened : session.closed = false)
    (hsize : FileHeader.size ≤ session.storage.size) :
    ∃ file, close session = (.ok (), { marked session with storage := file }) ∧
      file.cache.file.pageSize = session.storage.pageSize ∧ file.onDisk.length = session.storage.size ∧
      ∀ i, FileHeader.size ≤ i → file.onDisk.byteAt i = session.storage.image.byte i := by
  have hmarked : (marked session).storage.Usable := husable
  obtain ⟨file₁, hwrite, hbecomes⟩ := writeHeader_apply hmarked hsize
  have hslots : session.storage.image.SameSlots file₁.image := by
    rw [hbecomes.image]
    exact .of_write_header _ _
  obtain ⟨file₂, hclose, -, -, hpageSize, hlength, hdisk⟩ := CachedFile.close_apply hbecomes.usable.ready
  refine ⟨file₂, ?_, hpageSize.trans hslots.pageSize, hlength.trans hslots.size, fun i hi => ?_⟩
  · rw [close_apply hopened, hwrite]
    dsimp only
    rw [release_apply, release, hclose]
    rfl
  · rw [hdisk]
    exact hslots.byte i hi

/-- Opening a file that was closed changes its header only. -/
private theorem openOn_kept {storage : CachedFile} (husable : storage.Usable)
    (hkeeps : storage.image.Keeps layout store .closed) (policy : CapacityPolicy) (options : Options) :
    ∃ session, openOn storage policy options = .ok session ∧ session.wasClosedProperly = true ∧
      session.storage.Usable ∧ session.seenOnFile.Serves layout { store with policy } ∧
      session.maxHops = options.maxHops ∧ storage.image.SameSlots session.storage.image := by
  obtain ⟨header, -, -, hload⟩ := loadHeader_answers (CachedFile.contract 1 (Nat.le_refl 1)) hkeeps
  obtain ⟨husable₁, himage, hresult⟩ :
      (loadHeader (PagedStorage.pageSize storage) storage).2.Usable ∧
      (loadHeader (PagedStorage.pageSize storage) storage).2.image = storage.image ∧
      ((loadHeader (PagedStorage.pageSize storage) storage).1 = .ok (header, true) ∨ False ∧ _) :=
    hload storage husable rfl
  rcases hloaded : loadHeader (PagedStorage.pageSize storage) storage with ⟨result, loaded⟩
  rw [hloaded] at husable₁ himage hresult
  obtain rfl : result = .ok (header, true) := hresult.resolve_right fun hfailed => hfailed.1
  have hlow : FileHeader.size ≤ loaded.size := by
    rw [show loaded.size = storage.image.size from congrArg Image.size himage]
    exact Nat.le_trans hkeeps.tracks.size_le_stop hkeeps.tracks.bound
  obtain ⟨session, hopen, hproperly, himage', -⟩ := openOn_apply hloaded husable₁ hlow policy options
  have hopens : Opens (CachedFile.contract 1 (Nat.le_refl 1)) storage policy options _ _ :=
    openOn_closed husable hkeeps policy options
  obtain ⟨husable', hserves, hmaxHops, -⟩ := hopens.of_eq_ok hopen
  refine ⟨session, hopen, hproperly, husable', hserves, hmaxHops, ?_⟩
  rw [himage', show loaded.image = storage.image from himage]
  exact .of_write_header _ _

/-- What stands under the path is opened as a session like this one, whatever the size of the cache is. -/
def Resumes (session : Session CachedFile) (path : String) (entry : Entry) : Prop :=
  ∀ options : Options, options.pageSize = session.pageSize → options.maxHops = session.maxHops → 1 ≤ options.frames →
    ∃ session', openFile path entry session.policy options = .ok session' ∧ session'.wasClosedProperly = true ∧
      session'.InService ∧ Alike session.rules session session'

theorem Alike.trans {session₁ session₂ session₃ : Session CachedFile} (h : Alike rules session₁ session₂)
    (h' : Alike rules session₂ session₃) : Alike rules session₁ session₃ :=
  ⟨⟨h.storage.left, h'.storage.right, h.storage.slots.trans h'.storage.slots⟩, h.left, h'.right,
    h'.header.trans h.header, h'.closed.trans h.closed, h.fits⟩

theorem Resumes.of_alike {path : String} {entry : Entry} (h : session'.Resumes path entry)
    (halike : Alike rules session session') : session.Resumes path entry := by
  intro options hpageSize hmaxHops hframes
  rw [← halike.pageSize] at hpageSize
  rw [← halike.maxHops] at hmaxHops
  rw [← halike.policy]
  obtain ⟨later, hopen, hproperly, hservice, hlater⟩ := h options hpageSize hmaxHops hframes
  rw [halike.right] at hlater
  rw [halike.left]
  exact ⟨later, hopen, hproperly, hservice, halike.trans hlater⟩

/-- A session in service can be closed and goes on from what is on disk then. -/
theorem close_resumes (path : String) (h : session.InService) (hpageSize : checkPageSize session.pageSize = .ok ()) :
    ∃ closed, close session = (.ok (), closed) ∧ session.Resumes path (.regular closed.storage.onDisk) := by
  obtain ⟨layout, store, hserves, hclean⟩ := h.served
  have hopened : session.closed = false := hserves.opened
  have hpages : session.storage.pageSize = session.pageSize := hserves.keeps.pageSize_eq.trans hserves.pageSize
  obtain ⟨file, hclose, hfilePages, hlength, hdisk⟩ := close_file_apply h.usable hopened h.header_le
  refine ⟨_, hclose, fun options hoptions hmaxHops hframes => ?_⟩
  have husable : (CachedFile.contract options.frames hframes).Usable session.storage := h.usable
  have hcloses := close_serves husable hserves
  rw [hclose] at hcloses
  obtain ⟨husable₁, hkeeps, -⟩ := hcloses
  change (CachedFile.behind file.cache.file options.frames).Usable at husable₁
  change (CachedFile.behind file.cache.file options.frames).image.Keeps layout store .closed at hkeeps
  obtain ⟨session', hopen, hproperly, husable', hserves', hmaxHops', hslots'⟩ :=
    openOn_kept husable₁ hkeeps session.policy options
  have hwhole : file.onDisk.length % file.cache.file.pageSize = 0 := by
    rw [hlength, hfilePages]
    exact h.usable.ready.size_mod
  -- closing has written the image to the disk, and opening changes no slot
  have hslots : session.storage.image.SameSlots session'.storage.image := by
    have hlarge : minPageSize ≤ file.cache.file.pageSize := hfilePages ▸ h.usable.large
    have hreach : file.onDisk.length ≤ reach + file.cache.file.pageSize := by
      rw [hlength, hfilePages]
      exact h.usable.reached
    obtain ⟨-, himage⟩ := CachedFile.usable_behind file.cache.file hlarge hwhole hreach hframes
    rw [himage] at hslots'
    exact Image.SameSlots.trans ⟨hfilePages, hlength, hdisk⟩ hslots'
  have hpageSize' : session'.pageSize = session.pageSize := hserves'.pageSize.symm.trans hserves.pageSize
  have hpolicy' : session'.policy = session.policy := hserves'.policy.symm
  refine ⟨session', ?_, hproperly, ⟨husable', layout, _, hserves', hclean.tidy, fun i hi => ?_⟩,
    ⟨h.usable, husable', hslots⟩, rfl, ?_, hserves'.header.trans hserves.header.symm,
    hserves'.opened.trans hserves.opened.symm, h.fits⟩
  · rw [← hpages, ← hfilePages] at hpageSize hoptions
    exact openFile_regular path hpageSize hwhole hoptions hopen
  · rw [hslots.byte i (Nat.le_trans hserves.keeps.tracks.size_le_stop hi)]
    exact hclean.blank i hi
  · unfold Session.rules
    rw [hpolicy', hpageSize', hmaxHops', hmaxHops]

/-! ### The first session -/

/-- An empty file is set up. -/
private theorem loadHeader_of_empty {storage : CachedFile} (husable : storage.Usable)
    (hsupported : SupportedPageSize storage.pageSize) (hempty : storage.size = 0) :
    loadHeader storage.pageSize storage =
      (do return (← setUp storage.pageSize, true) : SlotM CachedFile (FileHeader × Bool)) storage := by
  have hlarge := hsupported.large
  have haligned := hsupported.aligned
  have hfits := hsupported.fits
  have hsize : SlotM.onStorage PagedStorage.size storage = (.ok 0, storage) := by
    rw [SlotM.onStorage_apply, CachedFile.size_apply husable.opened, hempty]
    rfl
  unfold loadHeader
  rw [if_neg (by omega)]
  refine (bind_apply _ _ _).trans ?_
  rw [hsize]
  rfl

private theorem setUp_blind {pageSize : Nat} (hreach : pageSize ≤ reach) :
    Blind (setUp pageSize) fun _ => True := by
  unfold setUp
  exact .bind (.grow hreach) fun _ _ => .bind (.write _ _) fun _ _ => .bind .flush fun _ _ => .pure trivial

/-- Creating a file as an empty store. -/
private theorem openFile_created (path : String) (policy : CapacityPolicy) {options : Options}
    (hpageSize : checkPageSize options.pageSize = .ok ()) (hframes : 1 ≤ options.frames) :
    ∃ session, openFile path .missing policy options = .ok session ∧ session.wasClosedProperly = true ∧
      session.InService ∧ session.seenOnFile.Serves .empty (.empty options.pageSize policy) ∧ session.maxHops = options.maxHops ∧
      ∃ file : CachedFile, file.Usable ∧
        file.image = { pageSize := options.pageSize, size := 0, byte := SparseFile.empty.byteAt } ∧
        (setUp options.pageSize file).2.image.SameSlots session.storage.image := by
  have hsupported := supported_of_checkPageSize hpageSize
  let created : PageFile := { content := .empty, pageSize := options.pageSize }
  have hreach : created.content.length ≤ reach + created.pageSize := Nat.zero_le _
  obtain ⟨husable, himage⟩ :=
    CachedFile.usable_behind created hsupported.large (Nat.zero_mod _) hreach hframes
  have hempty : (CachedFile.behind created options.frames).size = 0 := congrArg Image.size himage
  have hfile := CachedFile.openOrCreate_missing path hpageSize options.frames
  change _ = Except.ok (CachedFile.behind created options.frames) at hfile
  generalize CachedFile.behind created options.frames = file at *
  have hpages : file.pageSize = options.pageSize := congrArg Image.pageSize himage
  -- a file that is created is empty, and so it is blank
  have hblank : file.image.Blank := by
    rw [himage]
    exact ⟨hsupported, fun i _ => rfl⟩
  obtain ⟨husable₁, ⟨header, hresult⟩, hsize⟩ := loadHeader_of_blank hblank file husable rfl
  have hloaded : loadHeader (PagedStorage.pageSize file) file = (.ok (header, true), (setUp options.pageSize file).2) := by
    refine Prod.ext hresult ?_
    change (loadHeader file.pageSize file).2 = _
    rw [loadHeader_of_empty husable (hpages ▸ hsupported) hempty, bind_apply, hpages]
    rcases setUp options.pageSize file with ⟨_ | _, _⟩ <;> rfl
  have hafter : (loadHeader file.image.pageSize file).2 = (setUp options.pageSize file).2 := congrArg Prod.snd hloaded
  rw [hafter] at husable₁ hsize
  obtain ⟨session, hopen, hproperly, hslots, -⟩ := openOn_apply hloaded husable₁ hsize policy options
  have hopens : Opens (CachedFile.contract 1 (Nat.le_refl 1)) file policy options _ _ :=
    openOn_blank husable hblank policy options
  obtain ⟨husable', hserves, hmaxHops, hzeros⟩ := hopens.of_eq_ok hopen
  change session.seenOnFile.Serves .empty (.empty file.pageSize policy) at hserves
  rw [hpages] at hserves
  refine ⟨session, openFile_eq_ok.2 ⟨file, hfile, hopen⟩, hproperly, ⟨husable', _, _, hserves, .empty hzeros⟩, hserves,
    hmaxHops, file, husable, himage, ?_⟩
  rw [hslots]
  exact .of_write_header _ _

/-- A file that is not there yet is created as an empty store, and alike whatever the size of the cache is. -/
theorem openFile_resumes (path : String) (policy : CapacityPolicy) {options : Options}
    (hpageSize : checkPageSize options.pageSize = .ok ()) (hframes : 1 ≤ options.frames) :
    ∃ session, openFile path .missing policy options = .ok session ∧ session.InService ∧
      session.rules = { policy, maxHops := options.maxHops, pageSize := options.pageSize } ∧
      session.Resumes path .missing := by
  obtain ⟨session, hopen, -, hservice, hserves, hmaxHops, file, husable, himage, hslots⟩ :=
    openFile_created path policy hpageSize hframes
  have hpolicy : session.policy = policy := hserves.policy.symm
  have hpages : session.pageSize = options.pageSize := hserves.pageSize.symm
  refine ⟨session, hopen, hservice, ?_, fun options' hpageSize' hmaxHops' hframes' => ?_⟩
  · unfold Session.rules
    rw [hpolicy, hpages, show session.maxHops = options.maxHops from hmaxHops]
  rw [hpages] at hpageSize'
  obtain ⟨session', hopen', hproperly, hservice', hserves', hhops', file', husable', himage', hslots'⟩ :=
    openFile_created path policy (hpageSize' ▸ hpageSize) hframes'
  rw [hpageSize'] at hserves' himage' hslots'
  have hreach := (supported_of_checkPageSize hpageSize).le_reach
  have hfiles : file.Alike file' := ⟨husable, husable', by rw [himage, himage']; exact .refl _⟩
  have hsetUp := (setUp_blind hreach file file' hfiles).2.1.slots
  rw [hpolicy]
  refine ⟨session', hopen', hproperly, hservice',
    ⟨hservice.usable, hservice'.usable, (hslots.symm.trans hsetUp).trans hslots'⟩, rfl, ?_,
    hserves'.header.trans hserves.header.symm, hserves'.opened.trans hserves.opened.symm, hservice.fits⟩
  have hpolicy' : session'.policy = policy := hserves'.policy.symm
  have hpages' : session'.pageSize = options.pageSize := hserves'.pageSize.symm
  unfold Session.rules
  rw [hpolicy', hpolicy, hpages', hpages, show session'.maxHops = options'.maxHops from hhops', hmaxHops']

end Session

/-! ### Runs -/

/-- A task, or the end of a session and the beginning of the next. -/
inductive CutStep
  | task (task : Task)
  | cut (frames : Nat) (recover : Bool)

def CutStep.task? : CutStep → Option Task
  | .task asked => some asked
  | .cut .. => none

inductive Report
  | answered (answer : Answer × Counters)
  /-- Whether the session was closed that was open before, unless the file could not be opened again. -/
  | reopened (result : Except StoreError Bool)

def Report.answered? : Report → Option (Answer × Counters)
  | .answered answer => some answer
  | .reopened _ => none

namespace Session

variable {session session' : Session CachedFile}

/-- A step of a run on the file under `path`, in a new session on the same terms after a cut. -/
def takeStep (path : String) (step : CutStep) (session : Session CachedFile) : Report × Session CachedFile :=
  match step with
  | .task task => (.answered (session.answer task).1, (session.answer task).2)
  | .cut frames recover =>
    let options : Options := { pageSize := session.pageSize, frames, maxHops := session.maxHops, recover }
    match handleFile path (.reopen session.policy options) session with
    | (.ok _, session) => (.reopened (.ok session.wasClosedProperly), session)
    | (.error e, session) => (.reopened (.error e), session)

/-- Two sessions in service that answer alike from now on. -/
structure Parallel (session session' : Session CachedFile) : Prop where
  alike : Alike session.rules session session'
  left : session.InService
  right : session'.InService

namespace Parallel

theorem answer (h : session.Parallel session') (task : Task) :
    (session'.answer task).1 = (session.answer task).1 ∧ (session.answer task).2.rules = session.rules ∧
      (session.answer task).2.Parallel (session'.answer task).2 := by
  obtain ⟨hresult, hafter⟩ := answer_alike h.alike h.left task
  refine ⟨hresult, hafter.left, ?_, h.left.step task, h.right.step task⟩
  rw [hafter.left]
  exact hafter

/-- A cut in one of two sessions. -/
theorem cut (h : session.Parallel session') (path : String) (hpageSize : checkPageSize session.pageSize = .ok ())
    {frames : Nat} (hframes : 1 ≤ frames) (recover : Bool) :
    ∃ later, session'.takeStep path (.cut frames recover) = (.reopened (.ok true), later) ∧
      session.Parallel later := by
  obtain ⟨closed, hclose, hresumes⟩ := close_resumes path h.right (h.alike.pageSize ▸ hpageSize)
  let options : Options := { pageSize := session'.pageSize, frames, maxHops := session'.maxHops, recover }
  obtain ⟨later, hopen, hproperly, hservice, halike⟩ := hresumes options rfl rfl hframes
  rw [h.alike.right] at halike
  refine ⟨later, ?_, h.alike.trans halike, h.left, hservice⟩
  have hreopen : handleFile path (.reopen session'.policy options) session' = (.ok .done, later) := by
    unfold handleFile
    dsimp only
    rw [hclose]
    dsimp only
    rw [hopen]
  unfold takeStep
  dsimp only
  rw [hreopen]
  dsimp only
  rw [hproperly]

/-- The answers in a run with cuts are those of the run without. -/
theorem run (path : String) (h : session.Parallel session') (hpageSize : checkPageSize session.pageSize = .ok ())
    {steps : List CutStep} (hframes : ∀ frames recover, .cut frames recover ∈ steps → 1 ≤ frames) :
    (runAll (takeStep path) steps session').1.filterMap Report.answered? =
        (runAll Session.answer (steps.filterMap CutStep.task?) session).1 ∧
      (∀ result, .reopened result ∈ (runAll (takeStep path) steps session').1 → result = .ok true) ∧
      (runAll Session.answer (steps.filterMap CutStep.task?) session).2.Parallel
        (runAll (takeStep path) steps session').2 := by
  -- a cut leaves the sessions as parallel as they were
  induction steps generalizing session session' with
  | nil => exact ⟨rfl, nofun, h⟩
  | cons step rest ih =>
    have hrest : ∀ frames recover, .cut frames recover ∈ rest → 1 ≤ frames := fun frames recover hmem =>
      hframes frames recover (List.mem_cons_of_mem _ hmem)
    rw [runAll_cons]
    cases step with
    | task task =>
      obtain ⟨hresult, hrules, hafter⟩ := h.answer task
      rw [← show (session.answer task).2.pageSize = session.pageSize from congrArg Rules.pageSize hrules] at hpageSize
      obtain ⟨hanswers, hcuts, hlast⟩ := ih hafter hpageSize hrest
      refine ⟨congrArg₂ List.cons hresult hanswers, ?_, hlast⟩
      rintro result (⟨⟩ | ⟨-, hmem⟩)
      exact hcuts result hmem
    | cut frames recover =>
      obtain ⟨later, hstep, hlater⟩ := h.cut path hpageSize (hframes frames recover List.mem_cons_self) recover
      obtain ⟨hanswers, hcuts, hlast⟩ := ih hlater hpageSize hrest
      rw [hstep]
      refine ⟨hanswers, ?_, hlast⟩
      rintro result (⟨⟩ | ⟨-, hmem⟩)
      · rfl
      · exact hcuts result hmem

end Parallel

end Session

end RecordStore
