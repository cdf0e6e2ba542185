import RecordStore.Proofs.AlikeSessions
import RecordStore.Proofs.BoundedFiles
import RecordStore.Proofs.RepeatedRecovery

/-!
# Openings that are tried again

What an opening that fails leaves to the next one.  It has written a file header, if anything, and that header either is
the one that it found or says what a recount comes to (`Image.Stands`).  So opening keeps what it opens on, whatever
calls fail, and comes to the same counters each time (`Reopens`).  There are two cases: a file that was never set up
(`Image.Unused`), and one that has a header and slots that stay as they are (`Image.Left`).
-/

namespace RecordStore

open Bytes StorageView

/-! ### Counters of a recount -/

/-- No total is larger than the offset reached. -/
structure Census.Small (census : Census) : Prop where
  allocated : census.counters.allocated ≤ census.offset
  deleted : census.counters.deleted ≤ census.offset
  relocated : census.counters.relocated ≤ census.offset
  payload : census.counters.payload ≤ census.offset
  capacity : census.counters.capacity ≤ census.offset

namespace Census.Small

variable {census : Census}

theorem start : Census.start.Small := by constructor <;> decide

/-- A slot has room for what it adds to the totals. -/
theorem count (h : census.Small) {header : SlotHeader} {offset : Nat} (hvalid : header.Valid offset) :
    (census.count header).Small := by
  obtain ⟨hallocated, hdeleted, hrelocated, hpayload, hcapacity⟩ := h
  have hpos := header.slotSize_pos
  have hsize := header.size_le_slotSize
  have hoffset : (census.count header).offset = census.offset + header.slotSize := rfl
  cases header with
  | live capacity length origin =>
    have hlength : length ≤ capacity := hvalid.2.1
    change SlotHeader.fullSize + capacity ≤ _ at hsize
    constructor <;> rw [hoffset] <;> simp only [Census.count, Counters.account] <;> omega
  | moved capacity target =>
    constructor <;> rw [hoffset] <;> simp only [Census.count, Counters.account] <;> omega
  | deleted capacity length relocated =>
    cases relocated <;> constructor <;> rw [hoffset] <;> simp only [Census.count, Counters.account] <;> omega
  | padding capacity =>
    constructor <;> rw [hoffset] <;> simp only [Census.count, Counters.account] <;> omega

theorem fitWords (h : census.Small) (hoffset : census.offset < 2 ^ 64) : census.counters.FitWords :=
  ⟨Nat.lt_of_le_of_lt h.allocated hoffset, Nat.lt_of_le_of_lt h.deleted hoffset, Nat.lt_of_le_of_lt h.relocated hoffset,
    Nat.lt_of_le_of_lt h.payload hoffset, Nat.lt_of_le_of_lt h.capacity hoffset, hoffset⟩

end Census.Small

namespace Region

variable {region : Region} {img : Image} {census census' : Census}

theorem Counts.small (h : Counts region img census census') (hsmall : census.Small) : census'.Small := by
  induction h with
  | refl => exact hsmall
  | step _ hseen _ ih => exact ih (hsmall.count (SlotHeader.decode_facts (slotSeen_eq_ok hseen).1).1)

theorem Recounted.fitWords (h : region.Recounted img census) (hsize : img.size < 2 ^ 64) :
    census.counters.FitWords :=
  (h.counts.small .start).fitWords (Nat.lt_of_le_of_lt h.reached.stop hsize)

/-- What a recount comes to on a storage with this image. -/
theorem recounted_of_answers {σ : Type} [PagedStorage σ] {contract : StorageContract σ} (hreliable : ¬contract.fallible)
    {storage : σ} (husable : contract.Usable storage) (himage : contract.image storage = img) (hfits : region.Fits img)
    {counters : Counters} (h : contract.Answers region.recount img (.ok counters)) :
    ∃ census, region.Recounted img census ∧ census.counters = counters := by
  obtain ⟨-, -, hresult⟩ := h storage husable himage
  obtain ⟨-, -, hrecounted⟩ := recount_runs contract hfits storage husable himage
  exact hrecounted counters (hresult.resolve_right fun hfailed => hreliable hfailed.1)

end Region

/-! ### Starting -/

/-- The header of a file in use with these counters. -/
def FileHeader.inUse (header : FileHeader) (counters : Counters) : FileHeader :=
  { header with status := .opened, counters }

namespace Session

variable {σ : Type} [PagedStorage σ] {contract : StorageContract σ} {session : Session Image} {counters : Counters}

/-- The session with these counters, on a file that says that it is in use. -/
def restarted (session : Session Image) (counters : Counters) : Session Image :=
  { session with
    header := session.header.inUse counters
    storage := session.storage.write 0 (ofList (session.header.inUse counters).encode) }

/-- How a session starts that comes to these counters: it writes its header, unless a call fails. -/
inductive Restarts (fallible : Prop) (session : Session Image) (counters : Counters) :
    Except StoreError Unit → Session Image → Prop
  | done : Restarts fallible session counters (.ok ()) (session.restarted counters)
  | failed {e : StoreError} {after : Session Image} (hfallible : fallible)
      (hstorage : after.storage = session.storage ∨ after.storage = (session.restarted counters).storage) :
      Restarts fallible session counters (.error e) after

theorem start_restarts (hsize : FileHeader.size ≤ session.storage.size) {recover : Bool}
    (hcounted : (!session.wasClosedProperly && recover) = true →
      contract.Answers session.region.recount session.storage (.ok counters))
    (hkept : (!session.wasClosedProperly && recover) = false → session.counters = counters) :
    Performs contract.toStorageView (start recover) session (Restarts contract.fallible session counters) := by
  have hpersist : Performs contract.toStorageView persist { session with header := session.header.inUse counters }
      (Restarts contract.fallible session counters) := by
    unfold persist
    refine Performs.step (writeHeader_writes { session with header := session.header.inUse counters } hsize ?_
      fun hfallible cause => Restarts.failed hfallible (.inl rfl))
    refine Performs.onSlots (contract.flush_answers.mono ?_)
    rintro result _ ⟨rfl, rfl | ⟨hfallible, cause, rfl⟩⟩
    · exact .done
    · exact .failed hfallible (.inr rfl)
  -- with the counters that it goes on with
  have hrest : Performs contract.toStorageView (do
      modify fun session => { session with header := { session.header with status := .opened } }
      persist) { session with header := { session.header with counters } }
        (Restarts contract.fallible session counters) := Performs.step (markOpened_performs hpersist)
  unfold start
  refine Performs.get_bind fun actual hactual => ?_
  have hclosed : actual.wasClosedProperly = session.wasClosedProperly := by
    rw [← hactual]
    rfl
  rw [hclosed]
  cases hcut : !session.wasClosedProperly && recover with
  | false =>
    obtain rfl : session.counters = counters := hkept hcut
    exact hrest
  | true =>
    refine Performs.step ?_
    unfold recount
    refine Performs.get_bind fun actual hactual => ?_
    have hregion : actual.region = session.region := by
      rw [← hactual]
      rfl
    rw [hregion]
    refine Performs.step (Performs.onSlots ((hcounted hcut).mono ?_))
    rintro result _ ⟨rfl, rfl | ⟨hfallible, cause, rfl⟩⟩
    · exact Performs.setCounters hrest
    · exact .failed hfallible (.inl rfl)

/-- What a session is that was opened with these rules and comes to these counters. -/
structure Reopened (session : Session Image) (counters : Counters) (rules : Rules) : Prop where
  opened : session.closed = false
  ruled : session.rules = rules
  header : session.header = { FileHeader.new rules.pageSize with counters }

end Session

/-- Opening keeps `version`, whatever calls fail, and comes to `counters` if none does: with a recount, or without one
if the counters are `settled`.  Pages on disk that are from versions make up a version, and versions are alike as far
as there are slots. -/
structure Reopens (version : Image → Prop) (pageSize : Nat) (counters : Counters) (settled : Prop) : Prop where
  pageSize_eq : ∀ {img : Image}, version img → img.pageSize = pageSize
  loads : ∀ {σ : Type} [PagedStorage σ] (contract : StorageContract σ) {img : Image}, version img →
    contract.Runs (Session.loadHeader img.pageSize) img fun result after => version after ∧ match result with
      | .error _ => contract.fallible
      | .ok found => ∀ (policy : CapacityPolicy) (options : Options), options.recover = true ∨ settled →
          ∀ {σ : Type} [PagedStorage σ] (contract : StorageContract σ),
            Session.Performs contract.toStorageView (Session.start options.recover)
              (Session.beginning after policy options img.pageSize found) fun result session =>
                version session.storage ∧ match result with
                | .error _ => contract.fallible
                | .ok () => session.Reopened counters { policy, maxHops := options.maxHops, pageSize := img.pageSize }
  disk : ∀ {file : CachedFile}, file.Bounded → version file.image → file.Lags version → version file.disk
  alike : ∀ {img img' : Image}, version img → version img' →
    img.SameSlots img' ∧ img.size ≤ reach + img.pageSize ∨ counters.size = FileHeader.size

theorem Reopens.of_settled {version : Image → Prop} {pageSize : Nat} {counters : Counters} {settled settled' : Prop}
    (h : Reopens version pageSize counters settled) (himp : settled' → settled) :
    Reopens version pageSize counters settled' where
  pageSize_eq := h.pageSize_eq
  loads contract _ hversion := by
    refine (h.loads contract hversion).mono ?_
    rintro (e | found) after ⟨hafter, hresult⟩
    · exact ⟨hafter, hresult⟩
    · exact ⟨hafter, fun policy options hrecover => hresult policy options (hrecover.imp_right himp)⟩
  disk := h.disk
  alike := h.alike

namespace Image

variable {img img' slots : Image} {header : FileHeader} {counters : Counters} {settled : Prop} {pageSize : Nat}

/-! ### Files with slots -/

/-- The region that the header records. -/
def region (img : Image) (header : FileHeader) : Region := { pageSize := img.pageSize, stop := header.counters.size }

/-- The image has this header, which fits it.  A recount comes to `counters`, and the header of a file that was closed
has them already. -/
structure Stands (img : Image) (header : FileHeader) (counters : Counters) : Prop where
  holds : img.Holds 0 (ofList header.encode)
  valid : header.Valid
  pageSize : header.pageSize = img.pageSize
  small : img.size < 2 ^ 64
  fits : (img.region header).Fits img
  recounted : ∃ census, (img.region header).Recounted img census ∧ census.counters = counters
  counted : header.counters = counters ∨ header.status = .opened ∧
    Reads (fun σ _ => ((img.region header).recount : SlotM σ Counters)) img (.ok counters)

namespace Stands

theorem recount_answers (h : img.Stands header counters) {σ : Type} [PagedStorage σ] (contract : StorageContract σ) :
    contract.Answers (img.region header).recount img (.ok counters) := by
  rcases h.counted with hcounters | ⟨-, hreads⟩
  · obtain ⟨census, hrecounted, rfl⟩ := h.recounted
    exact hrecounted.recount_answers contract h.fits (congrArg Counters.size hcounters)
  · exact hreads σ contract

/-- The header of a session that was opened on the image is as good. -/
theorem inUse (h : img.Stands header counters) :
    (img.write 0 (ofList (header.inUse counters).encode)).Stands (header.inUse counters) counters := by
  obtain ⟨census, hrecounted, rfl⟩ := h.recounted
  have hchanged : img.ChangedWithin (img.write 0 (ofList (header.inUse census.counters).encode)) 0 FileHeader.size :=
    .write img (Nat.le_refl _) (by simp)
  obtain ⟨hstart, haligned, hstop⟩ := hrecounted.reached
  exact ⟨img.holds_write _ _, ⟨h.valid.version, h.valid.pageSize, hrecounted.fitWords h.small⟩, h.pageSize, h.small,
    ⟨rfl, h.fits.supported, hstart, hstop, haligned⟩, ⟨census, hrecounted.again hchanged rfl, rfl⟩, .inl rfl⟩

theorem inUse_eq (h : img.Stands header counters) :
    header.inUse counters = { FileHeader.new img.pageSize with counters } := by
  have hversion := h.valid.version
  have hpageSize := h.pageSize
  obtain ⟨version, pageSize, status, _⟩ := header
  dsimp only at hversion hpageSize
  rw [hversion, hpageSize]
  rfl

/-- A session starts on the image with these counters. -/
theorem starts (h : img.Stands header counters) (hsettled : settled → header.counters = counters)
    {σ : Type} [PagedStorage σ] (contract : StorageContract σ) (policy : CapacityPolicy) {options : Options}
    (hrecover : options.recover = true ∨ settled) :
    let begun := Session.beginning img policy options img.pageSize (header, header.status = .closed)
    Session.Performs contract.toStorageView (Session.start options.recover) begun
      (Session.Restarts contract.fallible begun counters) := by
  refine Session.start_restarts (Nat.le_trans h.fits.start h.fits.bound) (fun _ => h.recount_answers contract)
    fun hkept => ?_
  rcases h.counted with hcounters | ⟨hopened, -⟩
  · exact hcounters
  · have hcut : options.recover = false := by simpa [Session.beginning, hopened] using hkept
    rw [hcut] at hrecover
    exact hsettled (hrecover.resolve_left Bool.false_ne_true)

end Stands

/-- The slots are these, behind a header of which a recount comes to `counters`. -/
def Left (slots : Image) (counters : Counters) (settled : Prop) (img : Image) : Prop :=
  slots.SameSlots img ∧ ∃ header, img.Stands header counters ∧ (settled → header.counters = counters)

theorem reopens_left (hreach : slots.size ≤ reach + slots.pageSize) :
    Reopens (slots.Left counters settled) slots.pageSize counters settled where
  pageSize_eq h := h.1.pageSize
  loads contract img h := by
    have ⟨hslots, header, hstands, hsettled⟩ := h
    have hfits := hstands.fits
    have hload := Session.loadHeader_answers_of_holds contract hstands.holds hstands.valid hstands.pageSize
      hfits.supported hfits.start hfits.bound hfits.aligned
    refine hload.mono ?_
    rintro _ after ⟨hafter, hresult⟩
    rw [hafter]
    rcases hresult with rfl | ⟨hfallible, cause, rfl⟩
    · refine ⟨h, fun policy options hrecover σ _ contract => (hstands.starts hsettled contract policy hrecover).mono ?_⟩
      have hinUse : slots.Left counters settled (img.write 0 (ofList (header.inUse counters).encode)) :=
        ⟨hslots.trans (.of_write_header img _), _, hstands.inUse, fun _ => rfl⟩
      rintro _ _ (_ | ⟨hfallible, hstorage⟩)
      · exact ⟨hinUse, rfl, rfl, hstands.inUse_eq⟩
      · refine ⟨?_, hfallible⟩
        rcases hstorage with hstorage | hstorage <;> rw [hstorage]
        · exact h
        · exact hinUse
    · exact ⟨h, hfallible⟩
  disk {file} hbounded h hlags := by
    -- the header is that of some version, and all versions are the same behind it
    obtain ⟨img, himg, hbytes⟩ := hlags.header hbounded.large
    have hslots := h.1.symm.trans himg.1
    have hdisk : file.disk = img := by
      have hbyte : file.onDisk.byteAt = img.byte := by
        funext i
        by_cases hi : i < FileHeader.size
        · exact hbytes i hi
        · obtain ⟨other, hother, hsame⟩ := hlags (i / file.pageSize)
          rw [hsame i rfl]
          exact (himg.1.symm.trans hother.1).byte i (Nat.not_lt.1 hi)
      have hsize : file.onDisk.length = img.size := hbounded.ready.size.symm.trans hslots.size.symm
      have hpageSize : file.pageSize = img.pageSize := hslots.pageSize.symm
      change Image.mk file.pageSize file.onDisk.length file.onDisk.byteAt = Image.mk img.pageSize img.size img.byte
      rw [hbyte, hsize, hpageSize]
    rw [hdisk]
    exact himg
  alike h h' := by
    refine .inl ⟨h.1.symm.trans h'.1, ?_⟩
    rw [h.1.size, h.1.pageSize]
    exact hreach

/-! ### Files that were never set up -/

/-- Nothing was written, or only the first header of a file. -/
structure Unused (pageSize : Nat) (img : Image) : Prop where
  pageSize_eq : img.pageSize = pageSize
  supported : SupportedPageSize pageSize
  zeros : img.BlankFrom FileHeader.size
  header : (∀ i < FileHeader.size, img.byte i = 0) ∨
    img.Holds 0 (ofList (FileHeader.new pageSize).encode) ∧ FileHeader.size ≤ img.size

namespace Unused

/-- A recount finds no slots. -/
theorem recount_answers (h : img.Unused pageSize) (hsize : FileHeader.size ≤ img.size) {σ : Type} [PagedStorage σ]
    (contract : StorageContract σ) :
    contract.Answers (img.region (FileHeader.new pageSize)).recount img (.ok (FileHeader.new pageSize).counters) := by
  refine contract.runs_of_wellFormed fun hwf => ?_
  have hsupported : SupportedPageSize img.pageSize := h.pageSize_eq ▸ h.supported
  have htiles : Layout.empty.Tiles img.pageSize FileHeader.size [] FileHeader.size := rfl
  exact Region.recount_answers hwf hsupported (.empty_of_size_le hsize) .nil (.blank h.zeros) rfl htiles

/-- A session starts on the first header. -/
theorem starts (h : img.Unused pageSize) (hholds : img.Holds 0 (ofList (FileHeader.new pageSize).encode))
    (hsize : FileHeader.size ≤ img.size) (closed : Bool) (policy : CapacityPolicy) (options : Options) {σ : Type}
    [PagedStorage σ] (contract : StorageContract σ) :
    Session.Performs contract.toStorageView (Session.start options.recover)
      (Session.beginning img policy options pageSize (FileHeader.new pageSize, closed)) fun result after =>
        after.storage.Unused pageSize ∧ match result with
          | .error _ => contract.fallible
          | .ok () => after.Reopened (FileHeader.new pageSize).counters
              { policy, maxHops := options.maxHops, pageSize } := by
  obtain rfl := h.pageSize_eq
  -- what is written is there already
  have hwritten : img.write 0 (ofList (FileHeader.new img.pageSize).encode) = img := write_of_holds hholds
  refine (Session.start_restarts hsize (fun _ => h.recount_answers hsize contract) fun _ => rfl).mono ?_
  rintro _ after (_ | ⟨hfallible, hafter⟩)
  · refine ⟨?_, rfl, rfl, rfl⟩
    change (img.write 0 (ofList (FileHeader.new img.pageSize).encode)).Unused img.pageSize
    rw [hwritten]
    exact h
  · change after.storage = img ∨ after.storage = img.write 0 (ofList (FileHeader.new img.pageSize).encode) at hafter
    rw [hwritten, or_self] at hafter
    exact ⟨hafter ▸ h, hfallible⟩

theorem blank (h : img.Unused pageSize) (hbare : ∀ i < FileHeader.size, img.byte i = 0) : img.Blank := by
  refine ⟨h.pageSize_eq ▸ h.supported, fun i _ => ?_⟩
  by_cases hi : i < FileHeader.size
  · exact hbare i hi
  · exact h.zeros i (Nat.not_lt.1 hi)

/-- Reading the header writes the first one, if anything. -/
theorem of_loads (h : img.Unused pageSize) (hbare : ∀ i < FileHeader.size, img.byte i = 0)
    {result : Except StoreError (FileHeader × Bool)} {after : Image} (hloads : Session.Loads img result after) :
    after.Unused pageSize ∧ ∀ found, result = .ok found →
      after.Holds 0 (ofList (FileHeader.new pageSize).encode) ∧ FileHeader.size ≤ after.size := by
  cases hloads with
  | found hdecode =>
    rw [toList_read_of_zeros fun i _ hi => hbare i (by omega)] at hdecode
    cases hdecode
  | refused e => exact ⟨h, nofun⟩
  | grown e hsize => exact ⟨⟨h.pageSize_eq, h.supported, h.zeros, .inl hbare⟩, nofun⟩
  | @written result size _ hsupported hsize _ =>
    have hlow : FileHeader.size ≤ size := Nat.le_trans hsupported.header_le hsize
    have hholds : (({ img with size } : Image).write 0 (ofList (FileHeader.new img.pageSize).encode)).Holds 0
        (ofList (FileHeader.new pageSize).encode) := h.pageSize_eq ▸ Image.holds_write _ _ _
    refine ⟨⟨h.pageSize_eq, h.supported, fun i hi => ?_, .inr ⟨hholds, hlow⟩⟩, fun _ _ => ⟨hholds, hlow⟩⟩
    rw [byte_write_of_le _ _ (by simpa using hi)]
    exact h.zeros i hi

end Unused

theorem reopens_unused : Reopens (Unused pageSize) pageSize (FileHeader.new pageSize).counters settled where
  pageSize_eq h := h.pageSize_eq
  loads contract img h := by
    obtain rfl := h.pageSize_eq
    rcases h.header with hbare | ⟨hholds, hsize⟩
    · have hresult : contract.Runs (Session.loadHeader img.pageSize) img fun result _ => match result with
          | .error _ => contract.fallible
          | .ok found => found = (FileHeader.new img.pageSize, true) :=
        Session.loadHeader_runs_blank (h.blank hbare) .exactDefault (fun _ _ => rfl) fun hfallible _ _ _ _ => hfallible
      intro storage husable himage
      obtain ⟨-, hresult⟩ := hresult storage husable himage
      obtain ⟨husable', hloads⟩ := Session.loadHeader_loads contract img storage husable himage
      obtain ⟨hafter, hfound⟩ := h.of_loads hbare hloads
      refine ⟨husable', hafter, ?_⟩
      generalize (Session.loadHeader img.pageSize storage).1 = result at hresult hfound ⊢
      rcases result with e | found
      · exact hresult
      · obtain rfl : found = (FileHeader.new img.pageSize, true) := hresult
        obtain ⟨hholds, hsize⟩ := hfound _ rfl
        exact fun policy options _ _ _ => hafter.starts hholds hsize true policy options
    · have hload := Session.loadHeader_answers_of_holds contract hholds (FileHeader.valid_new h.supported) rfl
        h.supported (Nat.le_refl _) hsize (show FileHeader.size % alignment = 0 by decide)
      refine hload.mono ?_
      rintro _ after ⟨hafter, hresult⟩
      rw [hafter]
      rcases hresult with rfl | ⟨hfallible, cause, rfl⟩
      · exact ⟨h, fun policy options _ _ _ => h.starts hholds hsize false policy options⟩
      · exact ⟨h, hfallible⟩
  disk {file} hbounded h hlags := by
    have hpageSize : file.pageSize = pageSize := h.pageSize_eq
    obtain ⟨img, himg, hbytes⟩ := hlags.header hbounded.large
    refine ⟨hpageSize, h.supported, fun i hi => ?_, ?_⟩
    · obtain ⟨other, hother, hsame⟩ := hlags (i / file.pageSize)
      exact (hsame i rfl).trans (hother.zeros i hi)
    · -- the file on the disk is empty, or it has the page of the header
      by_cases hempty : file.onDisk.length = 0
      · exact .inl fun i _ => SparseFile.byteAt_of_le (hempty ▸ Nat.zero_le i)
      · have hsize : file.pageSize ≤ file.onDisk.length :=
          Nat.le_of_dvd (Nat.pos_of_ne_zero hempty) (Nat.dvd_of_mod_eq_zero hbounded.ready.sound.pages)
        have hlow : FileHeader.size ≤ file.pageSize := Nat.le_trans (by decide) hbounded.large
        refine himg.header.imp (fun hbare i hi => (hbytes i hi).trans (hbare i hi)) fun ⟨hholds, _⟩ =>
          ⟨hholds.congr fun i _ hi => hbytes i (by simpa using hi), Nat.le_trans hlow hsize⟩
  alike _ _ := .inr rfl

end Image

end RecordStore
