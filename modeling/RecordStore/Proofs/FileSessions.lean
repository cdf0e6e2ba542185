import RecordStore.Proofs.CachedStorage
import RecordStore.Proofs.Uniform

/-!
# Sessions on files

A session on a file behind a cache.  Closing the file and opening it again is to read what is on disk then.  An event
that writes the file header leaves all that the session holds on disk (`handleFile_synced`), and so does opening the
file for the first time (`openFile_missing`).
-/

namespace RecordStore

open Bytes StorageView

/-- Options for a file with pages of this size. -/
structure Options.Suits (options : Options) (pageSize : Nat) : Prop where
  pageSize : options.pageSize = pageSize
  frames : 1 ≤ options.frames
  maxHops : 2 ≤ options.maxHops

instance (options : Options) (pageSize : Nat) : Decidable (options.Suits pageSize) :=
  decidable_of_iff (options.pageSize = pageSize ∧ 1 ≤ options.frames ∧ 2 ≤ options.maxHops)
    ⟨fun h => ⟨h.1, h.2.1, h.2.2⟩, fun h => ⟨h.pageSize, h.frames, h.maxHops⟩⟩

namespace Event

/-- A file with pages of this size is opened with options for it, if the event opens it. -/
def Suits : Event → Nat → Prop
  | .reopen _ options, pageSize => options.Suits pageSize
  | _, _ => True

instance : (event : Event) → (pageSize : Nat) → Decidable (event.Suits pageSize)
  | .reopen _ options, pageSize => inferInstanceAs (Decidable (options.Suits pageSize))
  | .request _, _ => inferInstanceAs (Decidable True)
  | .recover, _ => inferInstanceAs (Decidable True)
  | .count, _ => inferInstanceAs (Decidable True)

instance : (event : Event) → Decidable event.Syncs
  | .reopen .. => inferInstanceAs (Decidable True)
  | .recover => inferInstanceAs (Decidable True)
  | .count => inferInstanceAs (Decidable False)
  | .request .flush => inferInstanceAs (Decidable True)
  | .request (.insert _) => inferInstanceAs (Decidable False)
  | .request (.update ..) => inferInstanceAs (Decidable False)
  | .request (.delete _) => inferInstanceAs (Decidable False)
  | .request (.read _) => inferInstanceAs (Decidable False)
  | .request (.resolve _) => inferInstanceAs (Decidable False)

theorem suits_of_not_syncs {event : Event} (h : ¬event.Syncs) (pageSize : Nat) : event.Suits pageSize := by
  cases event with
  | reopen policy options => exact absurd trivial h
  | _ => trivial

end Event

/-- The page sizes of files are the powers of two from 2^8 to 2^24. -/
theorem log_of_checkPageSize {pageSize : Nat} (h : checkPageSize pageSize = .ok ()) :
    ∃ log, 8 ≤ log ∧ log ≤ 24 ∧ pageSize = 2 ^ log := by
  unfold checkPageSize at h
  split_ifs at h with hpower hlarge hsmall
  have hpower' : pageSize = 2 ^ pageSize.log2 := by
    simp only [isPowerOfTwo, Bool.not_eq_true, Bool.not_eq_false', Bool.and_eq_true, decide_eq_true_eq] at hpower
    rw [← Nat.one_shiftLeft]
    exact hpower.2.symm
  have hlow : 2 ^ 8 ≤ 2 ^ pageSize.log2 := hpower' ▸ Nat.not_lt.1 hlarge
  have hhigh : 2 ^ pageSize.log2 ≤ 2 ^ 24 := hpower' ▸ Nat.not_lt.1 hsmall
  have hone : 1 < 2 := by decide
  exact ⟨_, (Nat.pow_le_pow_iff_right hone).1 hlow, (Nat.pow_le_pow_iff_right hone).1 hhigh, hpower'⟩

theorem le_of_checkPageSize {pageSize : Nat} (h : checkPageSize pageSize = .ok ()) :
    minPageSize ≤ pageSize ∧ pageSize ≤ maxPageSize := by
  obtain ⟨log, hlow, hhigh, rfl⟩ := log_of_checkPageSize h
  exact ⟨Nat.pow_le_pow_right (n := 2) (by decide) hlow, Nat.pow_le_pow_right (n := 2) (by decide) hhigh⟩

/-- They can be those of a store. -/
theorem supported_of_checkPageSize {pageSize : Nat} (h : checkPageSize pageSize = .ok ()) :
    SupportedPageSize pageSize := by
  obtain ⟨hlarge, hsmall⟩ := le_of_checkPageSize h
  have hmax : maxPageSize < 2 ^ 32 := by decide
  refine ⟨hlarge, ?_, Nat.lt_of_le_of_lt hsmall hmax⟩
  obtain ⟨log, hlow, -, rfl⟩ := log_of_checkPageSize h
  exact Nat.mod_eq_zero_of_dvd (Nat.pow_dvd_pow 2 (show 3 ≤ log by omega))

/-- A file that has just been created. -/
theorem CachedFile.blank_behind {pageSize frames : Nat} (hsupported : SupportedPageSize pageSize)
    (hframes : 1 ≤ frames) : (behind { content := .empty, pageSize } frames).Usable ∧
      (behind { content := .empty, pageSize } frames).image.Blank := by
  obtain ⟨husable, himage⟩ := usable_behind { content := .empty, pageSize } hsupported.large (Nat.zero_mod _)
    (Nat.zero_le _) hframes
  refine ⟨husable, ?_⟩
  rw [himage]
  exact ⟨hsupported, fun _ _ => rfl⟩

namespace Session

variable {frames : Nat} {hframes : 1 ≤ frames} {session : Session CachedFile} {store : Store}

/-- What a session on the file under `path` does about an event. -/
def handleFile (path : String) : Event → SessionM CachedFile Reply
  | .reopen policy options => fun session =>
    match close session with
    | (.error e, session) => (.error e, session)
    | (.ok (), session) =>
      match openFile path (.regular session.storage.onDisk) policy options with
      | .error (e, _) => (.error e, session)
      | .ok session => (.ok .done, session)
  | event => handle (fun storage => storage) event

theorem handleFile_of_not_syncs (path : String) {event : Event} (h : ¬event.Syncs) :
    handleFile path event = handle (fun storage => storage) event := by
  cases event with
  | reopen policy options => exact absurd trivial h
  | _ => rfl

/-- What the session holds is on disk, its file header as well. -/
structure Synced (session : Session CachedFile) : Prop where
  disk : ∀ i, session.storage.onDisk.byteAt i = session.storage.image.byte i
  header : session.storage.image.Holds 0 (ofList session.header.encode)

theorem writeHeader_apply (husable : session.storage.Usable) (hsize : FileHeader.size ≤ session.storage.size) :
    ∃ file, writeHeader session = (.ok (), { session with storage := file }) ∧
      session.storage.Becomes file (session.storage.image.write 0 (ofList session.header.encode)) := by
  have hbound : 0 + (ofList session.header.encode).size ≤ session.storage.size := by
    simp only [size_ofList, FileHeader.length_encode]
    omega
  obtain ⟨file, hwrite, hbecomes⟩ := CachedFile.write_becomes husable hbound
  refine ⟨file, ?_, hbecomes⟩
  unfold writeHeader
  rw [bind_apply]
  change onSlots (SlotM.onStorage (PagedStorage.write 0 (ofList session.header.encode))) session = _
  unfold onSlots
  rw [SlotM.onStorage_apply, hwrite]
  rfl

/-- Writing the header and flushing. -/
theorem persist_apply (husable : session.storage.Usable) (hsize : FileHeader.size ≤ session.storage.size) :
    ∃ file, persist session = (.ok (), { session with storage := file }) ∧
      file.image = session.storage.image.write 0 (ofList session.header.encode) ∧
      ({ session with storage := file } : Session CachedFile).Synced := by
  obtain ⟨file₁, hheader, hbecomes₁⟩ := writeHeader_apply husable hsize
  obtain ⟨file₂, hflush, hbecomes₂, hdisk⟩ := CachedFile.flush_becomes hbecomes₁.usable
  have himage : file₂.image = session.storage.image.write 0 (ofList session.header.encode) := by
    rw [hbecomes₂.image, hbecomes₁.image]
  refine ⟨file₂, ?_, himage, fun i => ?_, ?_⟩
  · unfold persist
    rw [bind_apply, hheader]
    change onSlots (SlotM.onStorage PagedStorage.flush) { session with storage := file₁ } = _
    unfold onSlots
    rw [SlotM.onStorage_apply, hflush]
    rfl
  · rw [hdisk, hbecomes₂.image]
  · change file₂.image.Holds 0 (ofList session.header.encode)
    rw [himage]
    exact Image.holds_write _ _ _

theorem persist_synced (husable : session.storage.Usable) (hsize : FileHeader.size ≤ session.storage.size) :
    (persist session).1 = .ok () ∧ (persist session).2.Synced := by
  obtain ⟨file, hpersist, -, hsynced⟩ := persist_apply husable hsize
  rw [hpersist]
  exact ⟨rfl, hsynced⟩

/-- Starting on a file that was closed. -/
theorem start_of_closed {σ : Type} [PagedStorage σ] {session : Session σ} (hclosed : session.wasClosedProperly = true)
    (recover : Bool) :
    start recover session = persist { session with header := { session.header with status := .opened } } := by
  have hskip : (!session.wasClosedProperly && recover) = false := by
    rw [hclosed]
    rfl
  unfold start
  rw [bind_apply]
  change ((if !session.wasClosedProperly && recover then _ else _) : SessionM σ Unit) session = _
  rw [hskip]
  rfl

/-- Opening a file that counts as closed writes the header and nothing else. -/
theorem openOn_apply {storage loaded : CachedFile} {header : FileHeader}
    (hload : loadHeader (PagedStorage.pageSize storage) storage = (.ok (header, true), loaded))
    (husable : loaded.Usable) (hsize : FileHeader.size ≤ loaded.size) (policy : CapacityPolicy) (options : Options) :
    ∃ session, openOn storage policy options = .ok session ∧ session.wasClosedProperly = true ∧
      session.storage.image = loaded.image.write 0 (ofList session.header.encode) ∧ session.Synced := by
  let found : Session CachedFile :=
    { storage := loaded, policy, maxHops := options.maxHops, pageSize := PagedStorage.pageSize storage
      wasClosedProperly := true, header, closed := false }
  let started : Session CachedFile := { found with header := { header with status := .opened } }
  obtain ⟨file, hpersist, himage, hsynced⟩ : ∃ file, persist started = (.ok (), { started with storage := file }) ∧
      file.image = loaded.image.write 0 (ofList started.header.encode) ∧
      ({ started with storage := file } : Session CachedFile).Synced := persist_apply husable hsize
  have hstart : start options.recover found = persist started := start_of_closed rfl options.recover
  refine ⟨{ started with storage := file }, ?_, rfl, himage, hsynced⟩
  unfold openOn
  dsimp only
  rw [hload]
  dsimp only
  rw [hstart, hpersist]

/-- A file that is opened without a recount. -/
theorem synced_of_openOn {storage : CachedFile} (husable : storage.Usable)
    (hload : (CachedFile.contract frames hframes).Runs (loadHeader storage.pageSize) storage.image
      fun result img => (∃ header, result = .ok (header, true)) ∧ FileHeader.size ≤ img.size)
    {policy : CapacityPolicy} {options : Options} (hopen : openOn storage policy options = .ok session) :
    session.Synced := by
  obtain ⟨husable₁, ⟨header, hresult⟩, hsize⟩ := hload storage husable rfl
  have hload' : loadHeader (PagedStorage.pageSize storage) storage =
    (.ok (header, true), (loadHeader storage.pageSize storage).2) := Prod.ext hresult rfl
  obtain ⟨session', hopen', -, -, hsynced⟩ := openOn_apply hload' husable₁ hsize policy options
  rw [hopen] at hopen'
  cases hopen'
  exact hsynced

/-- A blank file gets its first header. -/
theorem loadHeader_of_blank {img : Image} (hblank : img.Blank) :
    (CachedFile.contract 1 (Nat.le_refl 1)).Runs (loadHeader img.pageSize) img
      fun result after => (∃ header, result = .ok (header, true)) ∧ FileHeader.size ≤ after.size :=
  loadHeader_runs_blank hblank .exactDefault (fun _ hfresh => ⟨⟨_, rfl⟩, hfresh.keeps.tracks.bound⟩)
    fun hfallible => absurd hfallible id

/-- A file that is set up. -/
theorem synced_of_blank {storage : CachedFile} (husable : storage.Usable) (hblank : storage.image.Blank)
    {policy : CapacityPolicy} {options : Options} (hopen : openOn storage policy options = .ok session) :
    session.Synced := synced_of_openOn husable (loadHeader_of_blank hblank) hopen

/-- A file that was closed. -/
theorem synced_of_closed {storage : CachedFile} {layout : Layout} (husable : storage.Usable)
    (hkeeps : storage.image.Keeps layout store .closed) {policy : CapacityPolicy} {options : Options}
    (hopen : openOn storage policy options = .ok session) : session.Synced := by
  obtain ⟨header, -, -, hload⟩ := loadHeader_answers (CachedFile.contract 1 (Nat.le_refl 1)) hkeeps
  refine synced_of_openOn husable (hload.mono ?_) hopen
  rintro result _ ⟨rfl, rfl | ⟨hfallible, -⟩⟩
  · exact ⟨⟨header, rfl⟩, Nat.le_trans hkeeps.tracks.size_le_stop hkeeps.tracks.bound⟩
  · exact absurd hfallible id

theorem openFile_eq_ok {path : String} {entry : Entry} {policy : CapacityPolicy} {options : Options} :
    openFile path entry policy options = .ok session ↔
      ∃ file, CachedFile.openOrCreate path entry options.pageSize options.frames = .ok file ∧
        openOn file policy options = .ok session := by
  unfold openFile
  rcases CachedFile.openOrCreate path entry options.pageSize options.frames with e | file
  · simp
  · rcases hopen : openOn file policy options with ⟨e, after⟩ | opened <;> simp [hopen]

/-- Opening what is on disk behind a new cache. -/
theorem openFile_regular (path : String) {file : PageFile} (hpageSize : checkPageSize file.pageSize = .ok ())
    (hpages : file.content.length % file.pageSize = 0) {policy : CapacityPolicy} {options : Options}
    (hoptions : options.pageSize = file.pageSize)
    (hopen : openOn (CachedFile.behind file options.frames) policy options = .ok session) :
    openFile path (.regular file.content) policy options = .ok session := by
  refine openFile_eq_ok.2 ⟨_, ?_, hopen⟩
  rw [hoptions]
  exact CachedFile.openOrCreate_regular path hpageSize hpages options.frames

/-- A file that is not there yet is created as an empty store. -/
theorem openFile_missing (path : String) (policy : CapacityPolicy) {options : Options}
    (hpageSize : checkPageSize options.pageSize = .ok ()) (hsuits : options.Suits options.pageSize) :
    ∃ session, openFile path .missing policy options = .ok session ∧
      Intact (CachedFile.contract options.frames hsuits.frames) session (.empty options.pageSize policy) ∧
      session.Synced := by
  let file : PageFile := { content := .empty, pageSize := options.pageSize }
  obtain ⟨husable, hblank⟩ := CachedFile.blank_behind (supported_of_checkPageSize hpageSize) hsuits.frames
  obtain ⟨session, hopen, hintact⟩ : ∃ session,
      openOn (CachedFile.behind file options.frames) policy options = .ok session ∧
      Intact (CachedFile.contract options.frames hsuits.frames) session (.empty options.pageSize policy) :=
    Intact.of_openOn id husable hblank policy hsuits.maxHops
  have hfile := CachedFile.openOrCreate_missing path hpageSize options.frames
  exact ⟨session, openFile_eq_ok.2 ⟨_, hfile, hopen⟩, hintact, synced_of_blank husable hblank hopen⟩

/-! ### Events -/

/-- Closing the file and opening what is on disk then. -/
private theorem handleFile_reopen (path : String) (h : Intact (CachedFile.contract frames hframes) session store)
    (hpageSize : checkPageSize store.pageSize = .ok ()) (policy : CapacityPolicy) {options : Options}
    (hsuits : options.Suits store.pageSize) :
    ∃ session', handleFile path (.reopen policy options) session = (.ok .done, session') ∧ session'.Synced ∧
      handle (CachedFile.contract options.frames hsuits.frames).reopen (.reopen policy options) session =
        (.ok .done, session') := by
  obtain ⟨layout, hserves, -⟩ := h.served
  have husable₀ : (CachedFile.contract options.frames hsuits.frames).Usable session.storage := h.usable
  have hclose := close_serves husable₀ hserves
  rcases hrun : close session with ⟨e | ⟨⟩, closed⟩
  · rw [hrun] at hclose
    exact absurd hclose.1 id
  · rw [hrun] at hclose
    obtain ⟨husable, hkeeps, -⟩ := hclose
    change (CachedFile.behind closed.storage.cache.file options.frames).Usable at husable
    change (CachedFile.behind closed.storage.cache.file options.frames).image.Keeps layout store .closed at hkeeps
    have hfile : closed.storage.cache.file.pageSize = store.pageSize := hkeeps.pageSize_eq
    -- what is closed is opened again from the bytes on the disk
    have hopens : Opens (CachedFile.contract options.frames hsuits.frames) _ policy options _ _ :=
      openOn_closed husable hkeeps policy options
    obtain ⟨session', hopen, -⟩ := hopens.exists_session fun e img hfailed => hfailed.1
    have hpages : closed.storage.onDisk.length % closed.storage.cache.file.pageSize = 0 := husable.sound.pages
    rw [← hfile] at hpageSize
    have hfound : openFile path (.regular closed.storage.onDisk) policy options = .ok session' :=
      openFile_regular path hpageSize hpages (hsuits.pageSize.trans hfile.symm) hopen
    have hrenewed : openOn ((CachedFile.contract options.frames hsuits.frames).reopen closed.storage) policy options =
      .ok session' := hopen
    refine ⟨session', ?_, ?_, ?_⟩
    · unfold handleFile
      dsimp only
      rw [hrun]
      dsimp only
      rw [hfound]
    · exact synced_of_closed husable hkeeps hopen
    · unfold handle renew
      dsimp only
      rw [hrun]
      dsimp only
      rw [hrenewed]

/-- What comes behind the flush does not matter if it leaves the session alone. -/
private theorem persist_bind_synced {α : Type} {next : Unit → SessionM CachedFile α}
    (hnext : ∀ session, (next () session).2 = session) (husable : session.storage.Usable)
    (hsize : FileHeader.size ≤ session.storage.size) : ((persist >>= next) session).2.Synced := by
  obtain ⟨hok, hsynced⟩ := persist_synced husable hsize
  rw [bind_apply]
  rcases hrun : persist session with ⟨e | ⟨⟩, after⟩
  · rw [hrun] at hok
    cases hok
  · rw [hrun] at hsynced
    dsimp only
    rw [hnext]
    exact hsynced

section

variable {layout : Layout} (husable : session.storage.Usable)
  (hserves : (session.seen (CachedFile.contract frames hframes).toStorageView).Serves layout store)

include husable hserves

private theorem flush_synced : (flush session).2.Synced := by
  have hopened : session.closed = false := hserves.opened
  obtain ⟨-, hsynced⟩ := persist_synced husable
    (Nat.le_trans hserves.keeps.tracks.size_le_stop hserves.keeps.tracks.bound)
  unfold flush
  rw [ensureOpen_bind hopened]
  exact hsynced

private theorem recover_synced (hclean : session.storage.image.Clean layout store) : (recover session).2.Synced := by
  have hopened : session.closed = false := hserves.opened
  have hboundary : layout.Boundary store.stop session.header.counters.size := by
    have hheader : session.header = store.fileHeader .opened := hserves.header
    rw [hheader]
    exact .inl rfl
  have hrecount : Performs (CachedFile.contract frames hframes).toStorageView recount
      (session.seen (CachedFile.contract frames hframes).toStorageView)
      fun result session' => result = .ok () ∧ session'.storage = session.storage.image :=
    recount_performs hserves.keeps hserves.pageSize hboundary .whole hserves.keeps.tracks (.blank hclean.blank)
      ⟨rfl, rfl⟩ fun hfallible => absurd hfallible id
  obtain ⟨husable', hresult, hstorage⟩ := hrecount session husable rfl
  unfold recover
  rw [ensureOpen_bind hopened, bind_apply]
  rcases hrun : recount session with ⟨e | ⟨⟩, counted⟩
  · rw [hrun] at hresult
    cases hresult
  · rw [hrun] at husable' hstorage
    have himage : counted.storage.image = session.storage.image := hstorage
    refine persist_bind_synced (fun session => rfl) husable' ?_
    change FileHeader.size ≤ counted.storage.image.size
    rw [himage]
    exact Nat.le_trans hserves.keeps.tracks.size_le_stop hserves.keeps.tracks.bound

/-- All is on disk after an event that writes the file header. -/
theorem handle_synced (hclean : session.storage.image.Clean layout store) {event : Event} (hsyncs : event.Syncs)
    (hreopen : ∀ policy options, event ≠ .reopen policy options) :
    (handle (fun storage => storage) event session).2.Synced := by
  cases event with
  | reopen policy options => exact absurd rfl (hreopen policy options)
  | recover =>
    change ((recover >>= fun counters => pure (Reply.counters counters)) session).2.Synced
    rw [SessionM.bind_pure_apply]
    exact recover_synced husable hserves hclean
  | count => exact absurd hsyncs id
  | request request =>
    cases request with
    | flush =>
      change ((flush >>= fun _ => pure Reply.done) session).2.Synced
      rw [SessionM.bind_pure_apply]
      exact flush_synced husable hserves
    | _ => exact absurd hsyncs id

end

/-- An event is answered as by the store, and if it writes the file header all is on disk afterwards. -/
theorem handleFile_step (path : String) (h : Intact (CachedFile.contract frames hframes) session store)
    (hpageSize : checkPageSize store.pageSize = .ok ()) {event : Event} (hsuits : event.Suits store.pageSize) :
    (handleFile path event session).1 = (store.respond event).1 ∧
      Intact (CachedFile.contract frames hframes) (handleFile path event session).2 (store.respond event).2 ∧
      (event.Syncs → (handleFile path event session).2.Synced) := by
  obtain ⟨layout, hserves, hclean⟩ := h.served
  cases event with
  | reopen policy options =>
    obtain ⟨session', hfile, hsynced, hhandle⟩ := handleFile_reopen path h hpageSize policy hsuits
    have hintact : Intact (CachedFile.contract options.frames hsuits.frames) session store :=
      ⟨h.usable, h.hops, h.served⟩
    obtain ⟨hresult, hintact'⟩ := hintact.step id (show (Event.reopen policy options).Allows 2 from hsuits.maxHops)
    rw [hhandle] at hresult hintact'
    rw [hfile]
    exact ⟨hresult, ⟨hintact'.usable, hintact'.hops, hintact'.served⟩, fun _ => hsynced⟩
  | recover =>
    obtain ⟨hresult, hintact⟩ := h.step id (show Event.recover.Allows 2 from trivial)
    exact ⟨hresult, hintact, fun hsyncs => handle_synced h.usable hserves hclean hsyncs fun _ _ => nofun⟩
  | count =>
    obtain ⟨hresult, hintact⟩ := h.step id (show Event.count.Allows 2 from trivial)
    exact ⟨hresult, hintact, nofun⟩
  | request request =>
    obtain ⟨hresult, hintact⟩ := h.step id (show (Event.request request).Allows 2 from trivial)
    exact ⟨hresult, hintact, fun hsyncs => handle_synced h.usable hserves hclean hsyncs fun _ _ => nofun⟩

/-- And so is every event of a run. -/
theorem handleFile_run (path : String) (h : Intact (CachedFile.contract frames hframes) session store)
    (hpageSize : checkPageSize store.pageSize = .ok ()) {events : List Event}
    (hsuits : ∀ event ∈ events, event.Suits store.pageSize) :
    (runAll (handleFile path) events session).1 = (runAll Store.respond events store).1 ∧
      Intact (CachedFile.contract frames hframes) (runAll (handleFile path) events session).2
        (runAll Store.respond events store).2 := by
  induction events generalizing session store with
  | nil => exact ⟨rfl, h⟩
  | cons event rest ih =>
    obtain ⟨hresult, hintact, -⟩ := handleFile_step path h hpageSize (hsuits event List.mem_cons_self)
    rw [← store.pageSize_respond event] at hpageSize hsuits
    obtain ⟨hresults, hlast⟩ := ih hintact hpageSize fun event hevent => hsuits event (List.mem_cons_of_mem _ hevent)
    rw [runAll_cons, runAll_cons]
    exact ⟨congrArg₂ List.cons hresult hresults, hlast⟩

/-- All is on disk after a run that ends with an event that writes the file header. -/
theorem handleFile_run_synced (path : String) (h : Intact (CachedFile.contract frames hframes) session store)
    (hpageSize : checkPageSize store.pageSize = .ok ()) {front : List Event} {event : Event}
    (hsuits : ∀ other ∈ front ++ [event], other.Suits store.pageSize) (hsyncs : event.Syncs) :
    (runAll (handleFile path) (front ++ [event]) session).2.Synced := by
  obtain ⟨-, hintact⟩ := handleFile_run path h hpageSize
    fun event hevent => hsuits event (List.mem_append_left _ hevent)
  have hevent := hsuits event (List.mem_append_right _ (List.mem_singleton_self event))
  rw [← store.pageSize_runAll front] at hpageSize hevent
  rw [runAll_append]
  exact (handleFile_step path hintact hpageSize hevent).2.2 hsyncs

end Session

end RecordStore
