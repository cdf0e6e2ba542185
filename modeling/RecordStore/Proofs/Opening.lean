import RecordStore.Proofs.Requests

/-!
# Opening and closing

Opening finds the store that a closed file holds (`openOn_closed`), makes a blank file an empty store
(`openOn_blank`), and recovers what a session left behind that was cut off (`openOn_recovering`).  Closing writes the
counters as they are.  In each case a call that fails changes nothing behind the file header.
-/

namespace RecordStore

open Bytes StorageView

/-- The first header of a file. -/
theorem FileHeader.valid_new {pageSize : Nat} (h : SupportedPageSize pageSize) : (FileHeader.new pageSize).Valid := by
  have hcounters : ({ Counters.zero with size := FileHeader.size } : Counters).FitWords := by constructor <;> decide
  exact ⟨rfl, h.fits, hcounters⟩

namespace Layout.Boundary

variable {layout : Layout} {img : Image} {stop at' : Nat}

theorem bounds (h : layout.Boundary stop at') (htracks : layout.Tracks img stop) :
    FileHeader.size ≤ at' ∧ at' ≤ stop ∧ at' % alignment = 0 := by
  rcases h with rfl | ⟨id, hid, rfl⟩
  · exact ⟨htracks.size_le_stop, Nat.le_refl _, htracks.stop_mod⟩
  · exact ⟨htracks.size_le_offset hid, Nat.le_of_lt (htracks.offset_lt hid), id.offset_mod⟩

end Layout.Boundary

namespace Image

variable {img img' : Image} {layout : Layout} {store : Store} {status : FileStatus}

theorem Keeps.withPolicy (h : img.Keeps layout store status) (policy : CapacityPolicy) :
    img.Keeps layout { store with policy } status := by
  obtain ⟨header, hholds, hstatus, hdescribes⟩ := h.header
  exact ⟨h.pageSize_eq, h.supported, h.tracks, h.represents, header, hholds, hstatus, hdescribes.valid,
    hdescribes.pageSize, hdescribes.boundary, hdescribes.closed⟩

/-- An image without anything in it. -/
structure Blank (img : Image) : Prop where
  supported : SupportedPageSize img.pageSize
  zeros : img.BlankFrom 0

/-- What there is of a store that was just set up. -/
structure Fresh (img : Image) (pageSize : Nat) (policy : CapacityPolicy) : Prop where
  keeps : img.Keeps .empty (.empty pageSize policy) .opened
  zeros : img.BlankFrom FileHeader.size

/-- Writing the first header makes a store without records. -/
theorem Blank.setUp (h : img.Blank) (hsize : img.pageSize ≤ img.size) (policy : CapacityPolicy) :
    (img.write 0 (ofList (FileHeader.new img.pageSize).encode)).Fresh img.pageSize policy := by
  have hlow := Nat.le_trans h.supported.header_le hsize
  have hchanged : img.ChangedWithin (img.write 0 (ofList (FileHeader.new img.pageSize).encode)) 0 FileHeader.size :=
    .write img (Nat.le_refl _) (by simp)
  have htracks : Layout.empty.Tracks (img.write 0 (ofList (FileHeader.new img.pageSize).encode)) FileHeader.size :=
    .empty_of_size_le (Nat.le_trans hlow hchanged.size)
  have hdescribes : (FileHeader.new img.pageSize).Describes .empty (.empty img.pageSize policy) :=
    ⟨FileHeader.valid_new h.supported, rfl, .inl rfl, nofun⟩
  refine ⟨⟨hchanged.pageSize, h.supported, htracks, .nil, FileHeader.new img.pageSize, img.holds_write _ _, rfl,
    hdescribes⟩, fun i hi => ?_⟩
  rw [hchanged.byte i (.inr hi)]
  exact h.zeros i (Nat.zero_le _)

theorem read_header {header : FileHeader} (h : img.Holds 0 (ofList header.encode)) :
    (img.read 0 FileHeader.size).data.toList = header.encode := by
  have hread := h.read_eq
  rw [size_ofList, FileHeader.length_encode] at hread
  rw [hread]
  simp [ofList]

end Image

namespace Session

variable {σ : Type} [PagedStorage σ] {contract : StorageContract σ} {img : Image} {session : Session Image}
  {layout : Layout} {store : Store} {status : FileStatus}

/-- A header that fits its file is accepted. -/
theorem loadHeader_answers_of_holds (contract : StorageContract σ) {header : FileHeader}
    (hholds : img.Holds 0 (ofList header.encode)) (hvalid : header.Valid) (hpageSize : header.pageSize = img.pageSize)
    (hsupported : SupportedPageSize img.pageSize) (hlow : FileHeader.size ≤ header.counters.size)
    (hhigh : header.counters.size ≤ img.size) (hmod : header.counters.size % alignment = 0) :
    contract.Answers (loadHeader img.pageSize) img (.ok (header, header.status = .closed)) := by
  have hlarge := hsupported.large
  have haligned := hsupported.aligned
  have hfits := hsupported.fits
  unfold loadHeader
  rw [if_neg (by omega)]
  refine contract.size_answers.bind ?_
  rw [if_neg (by unfold FileHeader.size at hlow; omega), if_neg (by omega)]
  refine (contract.read_answers (by omega)).bind ?_
  rw [Image.read_header hholds, FileHeader.decode_encode hvalid]
  dsimp only
  rw [if_neg (by rw [hpageSize]; simp), if_neg (by omega)]
  exact Answers.pure _

/-- The header of a file that holds a store is accepted. -/
theorem loadHeader_answers (contract : StorageContract σ) (h : img.Keeps layout store status) : ∃ header : FileHeader,
    header.Describes layout store ∧ header.status = status ∧
      contract.Answers (loadHeader img.pageSize) img (.ok (header, status = .closed)) := by
  obtain ⟨header, hholds, hstatus, hdescribes⟩ := h.header
  refine ⟨header, hdescribes, hstatus, ?_⟩
  obtain ⟨hlow, hhigh, hmod⟩ := hdescribes.boundary.bounds h.tracks
  rw [← hstatus]
  exact loadHeader_answers_of_holds contract hholds hdescribes.valid (hdescribes.pageSize.trans h.pageSize_eq.symm)
    (h.pageSize_eq ▸ h.supported) hlow (Nat.le_trans hhigh h.tracks.bound) hmod

/-- Setting up a blank file. -/
private theorem setUp_runs (h : img.Blank) (policy : CapacityPolicy)
    {post : Except StoreError FileHeader → Image → Prop}
    (hok : ∀ after, after.Fresh img.pageSize policy → post (.ok (FileHeader.new img.pageSize)) after)
    (hio : contract.fallible → ∀ after cause, after.pageSize = img.pageSize →
      after.Blank ∨ after.Fresh img.pageSize policy → post (.error (.io cause)) after) :
    contract.Runs (setUp img.pageSize) img post := by
  have hreach := h.supported.le_reach
  have hlow := h.supported.header_le
  unfold setUp
  refine Runs.step (contract.grow_runs hreach (fun size htarget hsize => ?_) fun hfallible cause =>
    hio hfallible _ cause rfl (.inl h))
  have hgrown : ({ img with size } : Image).Blank := ⟨h.supported, h.zeros⟩
  have hfresh := hgrown.setUp htarget policy
  have hbound : 0 + (ofList (FileHeader.new img.pageSize).encode).size ≤ size := by
    simp only [size_ofList, FileHeader.length_encode]
    omega
  refine Runs.step (contract.write_runs hbound ?_ fun hfallible cause => hio hfallible _ cause rfl (.inl hgrown))
  refine Runs.step (contract.flush_answers.mono ?_)
  rintro result _ ⟨rfl, rfl | ⟨hfallible, cause, rfl⟩⟩
  · exact Runs.pure (hok _ hfresh)
  · exact hio hfallible _ cause rfl (.inr hfresh)

/-- A blank file counts as closed and gets a header. -/
theorem loadHeader_runs_blank (h : img.Blank) (policy : CapacityPolicy)
    {post : Except StoreError (FileHeader × Bool) → Image → Prop}
    (hok : ∀ after, after.Fresh img.pageSize policy →
      post (.ok (FileHeader.new img.pageSize, true)) after)
    (hio : contract.fallible → ∀ after cause, after.pageSize = img.pageSize →
      after.Blank ∨ after.Fresh img.pageSize policy → post (.error (.io cause)) after) :
    contract.Runs (loadHeader img.pageSize) img post := by
  refine contract.runs_of_wellFormed fun hwf => ?_
  have hlarge := h.supported.large
  have haligned := h.supported.aligned
  have hfits := h.supported.fits
  have hsetUp : contract.Runs (do return (← setUp img.pageSize, true)) img post :=
    Runs.step (setUp_runs h policy (fun after hfresh => Runs.pure (hok after hfresh)) hio)
  unfold loadHeader
  rw [if_neg (by omega)]
  refine contract.size_answers.bind_runs ?_ fun hfallible cause => hio hfallible _ cause rfl (.inl h)
  by_cases hempty : img.size = 0
  · rw [if_pos hempty]
    exact hsetUp
  · have hsize : FileHeader.size ≤ img.size := by
      have hle : img.pageSize ≤ img.size := Nat.le_of_dvd (by omega) (Nat.dvd_of_mod_eq_zero hwf.pages)
      exact Nat.le_trans h.supported.header_le hle
    rw [if_neg hempty, if_neg (by omega)]
    refine (contract.read_answers (by omega)).bind_runs ?_ fun hfallible cause => hio hfallible _ cause rfl (.inl h)
    rw [Image.toList_read_of_zeros fun i hlow _ => h.zeros i hlow]
    exact hsetUp

theorem markOpened_performs {post : Except StoreError Unit → Session Image → Prop}
    (h : post (.ok ()) { session with header := { session.header with status := .opened } }) :
    Performs contract.toStorageView
      (modify fun session => { session with header := { session.header with status := .opened } }) session post := by
  rintro actual husable rfl
  exact ⟨husable, h⟩

/-- Starting on a file that is up to date. -/
private theorem start_performs (recover : Bool) (hclosed : session.wasClosedProperly = true)
    (hheader : session.header = store.fileHeader status) {status' : FileStatus}
    (h : session.storage.Keeps layout store status') {post : Except StoreError Unit → Session Image → Prop}
    (hok : ∀ img, img.Keeps layout store .opened → session.storage.ChangedWithin img 0 FileHeader.size →
      post (.ok ()) { session with storage := img, header := store.fileHeader .opened })
    (hio : contract.fallible → ∀ session' cause, session.storage = session'.storage ∨
      (session'.storage.Keeps layout store .opened ∧
        session.storage.ChangedWithin session'.storage 0 FileHeader.size) → post (.error (.io cause)) session') :
    Performs contract.toStorageView (start recover) session post := by
  unfold start
  refine Performs.get_bind fun actual hactual => ?_
  have hactual' : actual.wasClosedProperly = true := by
    rw [← hclosed, ← hactual]
    rfl
  rw [hactual']
  refine Performs.step (markOpened_performs ?_)
  have hopened : { session.header with status := .opened } = store.fileHeader .opened := by
    rw [hheader]
    rfl
  rw [hopened]
  exact persist_performs { session with header := store.fileHeader .opened } rfl h hok
    fun hfallible img cause hstorage => hio hfallible _ cause hstorage

/-- Starting on a file that was cut off, with a recount. -/
private theorem start_performs_recovering {header : FileHeader} (hclosed : session.wasClosedProperly = false)
    (hheader : session.header = header) (hdescribes : header.Describes layout store)
    (hpageSize : store.pageSize = session.pageSize) (h : session.storage.Keeps layout store .opened) {base : Layout}
    {stop' : Nat} (hpadded : layout.Padded store.stop base stop') (hbase : base.Tracks session.storage stop')
    (hends : base.Ends session.storage stop') {post : Except StoreError Unit → Session Image → Prop}
    (hok : ∀ img, img.Keeps base { store with stop := stop' } .opened →
      session.storage.ChangedWithin img 0 FileHeader.size →
      post (.ok ())
        { session with storage := img, header := ({ store with stop := stop' } : Store).fileHeader .opened })
    (hio : contract.fallible → ∀ session' cause, post (.error (.io cause)) session') :
    Performs contract.toStorageView (start true) session post := by
  have hrep := hpadded.represents h.tracks h.represents
  -- the padding that was found behind the slots changes no record
  have hkeeps : session.storage.Keeps base { store with stop := stop' } .opened :=
    h.advance rfl rfl (fun _ _ => rfl) hbase hrep fun at' => hpadded.boundary
  unfold start
  refine Performs.get_bind fun actual hactual => ?_
  have hactual' : actual.wasClosedProperly = false := by
    rw [← hclosed, ← hactual]
    rfl
  rw [hactual']
  have hboundary : layout.Boundary store.stop session.header.counters.size := by
    rw [hheader]
    exact hdescribes.boundary
  refine Performs.step (recount_performs h hpageSize hboundary hpadded hbase hends ?_ fun hfallible cause =>
    hio hfallible _ cause)
  refine Performs.step (markOpened_performs ?_)
  have hopened : ({ { session.header with counters := { store.counters with size := stop' } } with status := .opened } :
      FileHeader) = ({ store with stop := stop' } : Store).fileHeader .opened := by
    rw [hheader, Store.fileHeader, ← hdescribes.pageSize, ← hdescribes.valid.version]
    rfl
  rw [hopened]
  exact persist_performs { session with header := ({ store with stop := stop' } : Store).fileHeader .opened } rfl
    hkeeps hok fun hfallible img cause _ => hio hfallible _ cause

/-- Opening ends in a session as `ok` says, or fails and leaves an image as `failed` says. -/
def Opens (contract : StorageContract σ) (storage : σ) (policy : CapacityPolicy) (options : Options)
    (ok : Session Image → Prop) (failed : StoreError → Image → Prop) : Prop :=
  match openOn storage policy options with
  | .ok session => contract.Usable session.storage ∧ ok (session.seen contract.toStorageView)
  | .error (e, storage') => failed e (contract.image storage')

namespace Opens

variable {storage : σ} {policy : CapacityPolicy} {options : Options} {ok : Session Image → Prop}
  {failed : StoreError → Image → Prop}

theorem of_eq_ok (h : Opens contract storage policy options ok failed) {session : Session σ}
    (hopen : openOn storage policy options = .ok session) :
    contract.Usable session.storage ∧ ok (session.seen contract.toStorageView) := by
  unfold Opens at h
  rw [hopen] at h
  exact h

theorem of_eq_error (h : Opens contract storage policy options ok failed) {e : StoreError} {storage' : σ}
    (hopen : openOn storage policy options = .error (e, storage')) : failed e (contract.image storage') := by
  unfold Opens at h
  rw [hopen] at h
  exact h

/-- Where opening cannot fail there is a session. -/
theorem exists_session (h : Opens contract storage policy options ok failed) (hfailed : ∀ e img, ¬failed e img) :
    ∃ session, openOn storage policy options = .ok session ∧ contract.Usable session.storage ∧
      ok (session.seen contract.toStorageView) := by
  rcases hopen : openOn storage policy options with ⟨e, storage'⟩ | session
  · exact absurd (h.of_eq_error hopen) (hfailed _ _)
  · exact ⟨session, rfl, h.of_eq_ok hopen⟩

end Opens

/-- The session that opening starts with. -/
def beginning (img : Image) (policy : CapacityPolicy) (options : Options) (pageSize : Nat)
    (found : FileHeader × Bool) : Session Image :=
  { storage := img, policy, maxHops := options.maxHops, pageSize, wasClosedProperly := found.2, header := found.1
    closed := false }

/-- How opening goes: the file header is read, and a session starts on what was found. -/
inductive Attempt (contract : StorageContract σ) (storage : σ) (policy : CapacityPolicy) (options : Options) :
    Except (StoreError × σ) (Session σ) → Prop
  | refused {e : StoreError} {loaded : σ}
      (hload : loadHeader (contract.image storage).pageSize storage = (.error e, loaded)) :
      Attempt contract storage policy options (.error (e, release loaded))
  | failed {found : FileHeader × Bool} {begun after : Session σ} {e : StoreError}
      (hload : loadHeader (contract.image storage).pageSize storage = (.ok found, begun.storage))
      (hseen : begun.seen contract.toStorageView =
        beginning (contract.image begun.storage) policy options (contract.image storage).pageSize found)
      (hstart : start options.recover begun = (.error e, after)) :
      Attempt contract storage policy options (.error (e, release after.storage))
  | opened {found : FileHeader × Bool} {begun after : Session σ}
      (hload : loadHeader (contract.image storage).pageSize storage = (.ok found, begun.storage))
      (hseen : begun.seen contract.toStorageView =
        beginning (contract.image begun.storage) policy options (contract.image storage).pageSize found)
      (hstart : start options.recover begun = (.ok (), after)) :
      Attempt contract storage policy options (.ok after)

theorem openOn_attempt {storage : σ} (husable : contract.Usable storage) (policy : CapacityPolicy) (options : Options) :
    Attempt contract storage policy options (openOn storage policy options) := by
  unfold openOn
  simp only [contract.pageSize_eq husable]
  rcases hload : loadHeader (contract.image storage).pageSize storage with ⟨e | ⟨header, wasClosedProperly⟩, loaded⟩
  · exact .refused hload
  · dsimp only
    generalize hbegin : ({ storage := loaded, policy, maxHops := options.maxHops
                           pageSize := (contract.image storage).pageSize, wasClosedProperly, header
                           closed := false } : Session σ) = begun
    have hload' : loadHeader (contract.image storage).pageSize storage =
        (.ok (header, wasClosedProperly), begun.storage) := by rw [← hbegin]; exact hload
    have hseen : begun.seen contract.toStorageView = beginning (contract.image begun.storage) policy options
        (contract.image storage).pageSize (header, wasClosedProperly) := by rw [← hbegin]; rfl
    rcases hstart : start options.recover begun with ⟨e | ⟨⟩, after⟩
    · exact .failed hload' hseen hstart
    · exact .opened hload' hseen hstart

theorem opens_of {storage : σ} (husable : contract.Usable storage) {policy : CapacityPolicy} {options : Options}
    {ok : Session Image → Prop} {failed : StoreError → Image → Prop}
    (hload : contract.Runs (loadHeader (contract.image storage).pageSize) (contract.image storage) fun result img =>
      match result with
      | .ok found => Performs contract.toStorageView (start options.recover)
          (beginning img policy options (contract.image storage).pageSize found) fun result session =>
            match result with
            | .ok _ => ok session
            | .error e => failed e session.storage
      | .error e => failed e img) : Opens contract storage policy options ok failed := by
  have hrelease : ∀ {after}, contract.Usable after → contract.image (release after) = contract.image after :=
    fun hafter => (contract.close hafter).1
  obtain ⟨husable₁, hpost⟩ := hload storage husable rfl
  have hattempt := openOn_attempt husable policy options
  unfold Opens
  generalize openOn storage policy options = result at hattempt ⊢
  cases hattempt with
  | refused hload =>
    rw [hload] at husable₁ hpost
    dsimp only at husable₁ hpost ⊢
    rw [hrelease husable₁]
    exact hpost
  | failed hload hseen hstart =>
    rw [hload] at husable₁ hpost
    obtain ⟨husable₂, hpost⟩ := hpost _ husable₁ hseen
    rw [hstart] at husable₂ hpost
    dsimp only at husable₂ hpost ⊢
    rw [hrelease husable₂]
    exact hpost
  | opened hload hseen hstart =>
    rw [hload] at husable₁ hpost
    obtain ⟨husable₂, hpost⟩ := hpost _ husable₁ hseen
    rw [hstart] at husable₂ hpost
    exact ⟨husable₂, hpost⟩

/-- A file that was closed opens as the store that it holds. -/
theorem openOn_closed {storage : σ} (husable : contract.Usable storage)
    (h : (contract.image storage).Keeps layout store .closed) (policy : CapacityPolicy) (options : Options) :
    Opens contract storage policy options
      (fun session => session.Serves layout { store with policy } ∧ session.maxHops = options.maxHops ∧
        (contract.image storage).ChangedWithin session.storage 0 FileHeader.size ∧ session.wasClosedProperly = true)
      (fun e img => contract.fallible ∧ (∃ cause, e = .io cause) ∧ ∃ status, img.Keeps layout store status ∧
        (contract.image storage).ChangedWithin img 0 FileHeader.size) := by
  obtain ⟨header, hdescribes, hstatus, hload⟩ := loadHeader_answers contract h
  have hheader : header = store.fileHeader .closed := hdescribes.eq_fileHeader hstatus
  refine opens_of husable (hload.mono ?_)
  rintro result _ ⟨rfl, rfl | ⟨hfallible, cause, rfl⟩⟩
  · refine start_performs options.recover rfl hheader h (fun img hkeeps hchanged => ?_)
      fun hfallible session' cause hstorage => ⟨hfallible, ⟨cause, rfl⟩, ?_⟩
    · exact ⟨⟨rfl, rfl, h.pageSize_eq.symm, rfl, hkeeps.withPolicy policy⟩, rfl, hchanged, rfl⟩
    · rcases hstorage with hstorage | ⟨hkeeps, hchanged⟩
      · rw [← hstorage]
        exact ⟨.closed, h, .refl ..⟩
      · exact ⟨.opened, hkeeps, hchanged⟩
  · exact ⟨hfallible, ⟨cause, rfl⟩, .closed, h, .refl ..⟩

/-- A blank file opens as a store without records. -/
theorem openOn_blank {storage : σ} (husable : contract.Usable storage) (h : (contract.image storage).Blank)
    (policy : CapacityPolicy) (options : Options) :
    Opens contract storage policy options
      (fun session => session.Serves .empty (.empty (contract.image storage).pageSize policy) ∧
        session.maxHops = options.maxHops ∧ session.storage.BlankFrom FileHeader.size)
      (fun e img => contract.fallible ∧ (∃ cause, e = .io cause) ∧ img.pageSize = (contract.image storage).pageSize ∧
        (img.Blank ∨ img.Fresh (contract.image storage).pageSize policy)) := by
  refine opens_of husable (loadHeader_runs_blank h policy (fun after hfresh => ?_)
    fun hfallible after cause hpageSize hafter => ⟨hfallible, ⟨cause, rfl⟩, hpageSize, hafter⟩)
  have hblank : ∀ {img}, after.ChangedWithin img 0 FileHeader.size → img.BlankFrom FileHeader.size :=
    fun hchanged => hchanged.blankFrom hfresh.zeros (Nat.le_refl _)
  have hheader : FileHeader.new (contract.image storage).pageSize =
      (Store.empty (contract.image storage).pageSize policy).fileHeader .opened := rfl
  refine start_performs options.recover rfl hheader hfresh.keeps (fun img hkeeps hchanged => ?_)
    fun hfallible session' cause hstorage => ⟨hfallible, ⟨cause, rfl⟩, ?_⟩
  · exact ⟨⟨rfl, rfl, rfl, rfl, hkeeps⟩, rfl, hblank hchanged⟩
  · rcases hstorage with hstorage | ⟨hkeeps, hchanged⟩
    · rw [← hstorage]
      exact ⟨hfresh.keeps.pageSize_eq, .inr hfresh⟩
    · exact ⟨hkeeps.pageSize_eq, .inr ⟨hkeeps, hblank hchanged⟩⟩

/-- A file that was cut off opens with a recount as the store that its slots make up. -/
theorem openOn_recovering {storage : σ} (husable : contract.Usable storage)
    (h : (contract.image storage).Keeps layout store .opened) {base : Layout} {stop' : Nat}
    (hpadded : layout.Padded store.stop base stop') (hbase : base.Tracks (contract.image storage) stop')
    (hends : base.Ends (contract.image storage) stop') (policy : CapacityPolicy) {options : Options}
    (hrecover : options.recover = true) :
    Opens contract storage policy options
      (fun session => session.Serves base { store with stop := stop', policy } ∧ session.maxHops = options.maxHops ∧
        (contract.image storage).ChangedWithin session.storage 0 FileHeader.size)
      (fun e _ => contract.fallible ∧ ∃ cause, e = .io cause) := by
  obtain ⟨header, hdescribes, hstatus, hload⟩ := loadHeader_answers contract h
  refine opens_of husable (hload.mono ?_)
  rintro result _ ⟨rfl, rfl | ⟨hfallible, cause, rfl⟩⟩
  · dsimp only
    rw [hrecover]
    refine start_performs_recovering rfl rfl hdescribes h.pageSize_eq.symm h hpadded hbase hends
      (fun img hkeeps hchanged => ?_) fun hfallible session' cause => ⟨hfallible, cause, rfl⟩
    exact ⟨⟨rfl, rfl, h.pageSize_eq.symm, rfl, hkeeps.withPolicy policy⟩, rfl, hchanged⟩
  · exact ⟨hfallible, cause, rfl⟩

/-! ### Closing -/

omit [PagedStorage σ] in
private theorem tryCatch_apply (act : SessionM σ Unit) (handler : StoreError → SessionM σ Unit) (session : Session σ) :
    tryCatch act handler session =
      match act session with
      | (.ok (), session') => (.ok (), session')
      | (.error e, session') => handler e session' := by
  simp only [tryCatch, tryCatchThe, MonadExceptOf.tryCatch, ExceptT.tryCatch, ExceptT.mk, bind, StateT.bind]
  rcases act session with ⟨_ | ⟨⟩, session'⟩ <;> rfl

/-- The session whose header says that the file is closed. -/
def marked (session : Session σ) : Session σ :=
  { session with closed := true, header := { session.header with status := .closed } }

theorem release_apply (session : Session σ) :
    onSlots (SlotM.onStorage PagedStorage.close) session =
      (((PagedStorage.close : StorageM σ Unit) session.storage).1.mapError StoreError.io,
        { session with storage := release session.storage }) := rfl

theorem close_apply {session : Session σ} (hopened : session.closed = false) :
    close session =
      match writeHeader (marked session) with
      | (.ok (), session') => onSlots (SlotM.onStorage PagedStorage.close) session'
      | (.error e, session') => (.error e, { session' with storage := release session'.storage }) := by
  unfold close
  rw [bind_apply]
  change (if session.closed then _ else _ : SessionM σ Unit) session = _
  rw [hopened, if_neg (by decide), bind_apply]
  change (tryCatch writeHeader _ >>= _ : SessionM σ Unit) (marked session) = _
  rw [bind_apply, tryCatch_apply]
  rcases writeHeader (marked session) with ⟨e | ⟨⟩, session'⟩
  · dsimp only
    rw [bind_apply, tryCatch_apply]
    rw [release_apply]
    rcases ((PagedStorage.close : StorageM σ Unit) session'.storage).1 with _ | ⟨⟩ <;> rfl
  · rfl

/-- A session that serves a store closes the file with that store in it; if that fails, the store is in the file all
the same. -/
theorem close_serves {session : Session σ} (husable : contract.Usable session.storage)
    (h : (session.seen contract.toStorageView).Serves layout store) :
    match close session with
    | (.ok (), session') => contract.Usable (contract.reopen session'.storage) ∧
        (contract.image (contract.reopen session'.storage)).Keeps layout store .closed ∧
        (contract.image session.storage).ChangedWithin (contract.image (contract.reopen session'.storage)) 0
          FileHeader.size
    | (.error e, session') => contract.fallible ∧ (∃ cause, e = .io cause) ∧ ∃ status,
        (contract.image session'.storage).Keeps layout store status ∧
        (contract.image session.storage).ChangedWithin (contract.image session'.storage) 0 FileHeader.size := by
  have hheader : ((marked session).seen contract.toStorageView).header = store.fileHeader .closed := by
    change { (session.seen contract.toStorageView).header with status := .closed } = _
    rw [h.header]
    rfl
  have hwriting : Performs contract.toStorageView writeHeader ((marked session).seen contract.toStorageView)
      fun result session' => match result with
        | .ok _ => session'.storage.Keeps layout store .closed ∧
            (contract.image session.storage).ChangedWithin session'.storage 0 FileHeader.size
        | .error e => contract.fallible ∧ (∃ cause, e = .io cause) ∧
            session'.storage = contract.image session.storage :=
    writeHeader_performs _ hheader h.keeps (fun img hkeeps hchanged => ⟨hkeeps, hchanged⟩)
      fun hfallible cause => ⟨hfallible, ⟨cause, rfl⟩, rfl⟩
  obtain ⟨husable₁, hpost⟩ := hwriting (marked session) husable rfl
  have hopened : session.closed = false := h.opened
  rw [close_apply hopened]
  rcases hwrite : writeHeader (marked session) with ⟨e | ⟨⟩, session'⟩
  · rw [hwrite] at husable₁ hpost
    dsimp only at husable₁ hpost ⊢
    obtain ⟨hfallible, hcause, himage⟩ := hpost
    -- the header could not be written, and the storage is given up as it was
    have hrelease : contract.image (release session'.storage) = contract.image session.storage :=
      (contract.close husable₁).1.trans himage
    rw [hrelease]
    exact ⟨hfallible, hcause, .opened, h.keeps, .refl ..⟩
  · rw [hwrite] at husable₁ hpost
    dsimp only at husable₁ hpost ⊢
    obtain ⟨hkeeps, hchanged⟩ := hpost
    have hkeeps' : (contract.image session'.storage).Keeps layout store .closed := hkeeps
    have hchanged' : (contract.image session.storage).ChangedWithin (contract.image session'.storage) 0
      FileHeader.size := hchanged
    obtain ⟨himage, hclose⟩ := contract.close husable₁
    rw [release_apply, release]
    rcases hrun : (PagedStorage.close : StorageM σ Unit) session'.storage with ⟨e | ⟨⟩, after⟩
    · rw [hrun] at himage hclose
      dsimp only at himage hclose
      refine ⟨hclose, ⟨e, rfl⟩, .closed, ?_⟩
      change (contract.image after).Keeps layout store .closed ∧ _
      rw [himage]
      exact ⟨hkeeps', hchanged'⟩
    · rw [hrun] at hclose
      dsimp only at hclose
      refine ⟨hclose.1, ?_⟩
      change (contract.image (contract.reopen after)).Keeps layout store .closed ∧ _
      rw [hclose.2]
      exact ⟨hkeeps', hchanged'⟩

end Session

end RecordStore
