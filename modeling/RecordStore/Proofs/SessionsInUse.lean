import RecordStore.Proofs.Atomicity
import RecordStore.Proofs.Recounts
import RecordStore.Proofs.Uniform

/-!
# Sessions in use

A session that was opened on any storage and to which anything has happened since (`Session.InUse`) is sound: opening
checks that the region lies in the storage, and every event keeps it there (`InUse.sound`).  So whatever the storage
holds and whatever calls fail, a request that fails leaves the counters and the bytes of the region as they are, and
with them every answer (`failed_request_is_undone`).
-/

namespace RecordStore

open Bytes StorageView

/-- Bytes that are taken for those of a file which was never set up. -/
theorem zeros_of_decode {img : Image}
    (h : FileHeader.decode (img.read 0 FileHeader.size).data.toList = .ok none) :
    ∀ i < FileHeader.size, img.byte i = 0 := by
  intro i hi
  have hbytes : (img.read 0 FileHeader.size).data.toList = (List.range FileHeader.size).map img.byte := by
    simp [Image.read, ofList]
  obtain ⟨-, hzeros⟩ | ⟨header, hfound, -⟩ := FileHeader.decode_eq_ok h
  · rw [hbytes, List.take_of_length_le (by simp)] at hzeros
    exact hzeros _ (List.mem_map.2 ⟨i, List.mem_range.2 hi, rfl⟩)
  · cases hfound

/-- What was scanned stands in the image, in front of `stop`, and comes with a payload if it is a record. -/
structure ScannedSlot.StandsIn (scanned : ScannedSlot) (img : Image) (stop : Nat) : Prop where
  slot : img.HasSlot scanned.id { header := scanned.header, payload := scanned.payload.getD .empty }
  record : scanned.payload.isSome ↔ scanned.header.state = .live
  stop : scanned.id.offset + scanned.header.slotSize ≤ stop

namespace Session

variable {σ α : Type} [PagedStorage σ] {contract : StorageContract σ} {session : Session Image} {img : Image}

/-! ### Events -/

/-- The header is written unless a call fails. -/
theorem persist_keeps (session : Session Image) (hsize : FileHeader.size ≤ session.storage.size) :
    Performs contract.toStorageView persist session fun result after => ∃ img, after = { session with storage := img } ∧
      (img = session.storage.write 0 (ofList session.header.encode) ∨
        img = session.storage ∧ ∃ e, result = .error e) := by
  unfold persist
  refine Performs.step (writeHeader_writes session hsize ?_ fun _ cause => ⟨_, rfl, .inr ⟨rfl, _, rfl⟩⟩)
  refine Performs.onSlots (contract.flush_answers.mono ?_)
  rintro result _ ⟨rfl, -⟩
  exact ⟨_, rfl, .inl rfl⟩

private theorem persist_sound (h : session.Sound) :
    Performs contract.toStorageView persist session fun _ after =>
      after.Sound ∧ session.storage.size ≤ after.storage.size := by
  refine (persist_keeps session (Nat.le_trans h.fits.start h.fits.bound)).mono ?_
  rintro _ _ ⟨img, rfl, rfl | ⟨rfl, -⟩⟩
  · exact ⟨h.of_changedWithin (.write _ (Nat.le_refl _) (Nat.le_refl _)), Nat.le_refl _⟩
  · exact ⟨h, Nat.le_refl _⟩

theorem recount_keeps (h : session.Sound) : Performs contract.toStorageView recount session fun result after =>
    after.Sound ∧ ∃ counters, after = { session with header := { session.header with counters } } ∧
      (result = .ok () → ∃ census, session.region.Recounted session.storage census ∧ census.counters = counters) := by
  unfold recount
  refine Performs.get_bind fun actual hactual => ?_
  subst hactual
  refine Performs.step (Performs.onSlots ((Region.recount_runs contract h.fits).mono ?_))
  rintro (e | counters) _ ⟨rfl, hcounters⟩
  · exact ⟨h, _, rfl, by rintro ⟨⟩⟩
  · obtain ⟨census, hrecounted, rfl⟩ := hcounters counters rfl
    obtain ⟨hstart, haligned, hbound⟩ := hrecounted.reached
    exact Performs.setCounters ⟨⟨h.opened, h.fits.pageSize, h.fits.supported, hstart, hbound, haligned⟩, census.counters,
      rfl, fun _ => ⟨census, hrecounted, rfl⟩⟩

theorem recount_sound (h : session.Sound) :
    Performs contract.toStorageView recount session fun _ after => after.Sound ∧ after.storage = session.storage := by
  refine (recount_keeps h).mono ?_
  rintro _ _ ⟨hafter, counters, rfl, -⟩
  exact ⟨hafter, rfl⟩

/-- What requests keep, and writing the header and recounting, is kept by any event but opening the file again. -/
theorem handle_invariant {keeps : Session Image → Prop} (hsound : session.Sound) (h : keeps session)
    (hperform : ∀ request, request ≠ .flush →
      Performs contract.toStorageView (perform request) session fun _ after => keeps after)
    (hpersist : ∀ current, keeps current → Performs contract.toStorageView persist current fun _ after => keeps after)
    (hrecount : Performs contract.toStorageView recount session fun _ after => keeps after) (reopen : σ → σ)
    (event : Event) (hreopen : ∀ policy options, event ≠ .reopen policy options) :
    Performs contract.toStorageView (handle reopen event) session fun _ after => keeps after := by
  cases event with
  | request request =>
    by_cases hflush : request = .flush
    · subst hflush
      refine .answering (fun _ => Reply.done) ?_
      unfold flush
      exact Performs.step (Performs.ensureOpen hsound.opened (hpersist session h))
    · exact hperform request hflush
  | recover =>
    refine .answering Reply.counters ?_
    unfold recover
    refine Performs.step (Performs.ensureOpen hsound.opened (Performs.step (hrecount.mono ?_)))
    rintro (e | ⟨⟩) counted hcounted
    · exact hcounted
    · refine Performs.step ((hpersist counted hcounted).mono ?_)
      rintro (e | ⟨⟩) last hlast
      · exact hlast
      · exact Performs.get_bind fun _ _ => Performs.pure hlast
  | count =>
    -- counting writes nothing
    refine .answering Reply.counters ?_
    unfold countSlots
    refine Performs.step (Performs.ensureOpen hsound.opened ?_)
    refine Performs.get_bind fun actual hactual => ?_
    subst hactual
    refine Performs.onSlots ((Region.count_runs contract hsound.fits).mono ?_)
    rintro _ _ rfl
    exact h
  | reopen policy options => exact absurd rfl (hreopen policy options)

/-- An event but opening the file again leaves a sound session, whose storage has not become smaller. -/
theorem handle_keeps (h : session.Sound) (reopen : σ → σ) (event : Event)
    (hreopen : ∀ policy options, event ≠ .reopen policy options) :
    Performs contract.toStorageView (handle reopen event) session fun _ after =>
      after.Sound ∧ session.storage.size ≤ after.storage.size := by
  refine handle_invariant h ⟨h, Nat.le_refl _⟩ (fun request hflush => ?_) (fun current hcurrent => ?_) ?_ reopen event
    hreopen
  · exact (perform_atomic h hflush).mono fun _ _ hatomic => ⟨hatomic.sound h, hatomic.size_le⟩
  · refine (persist_sound hcurrent.1).mono ?_
    rintro _ _ ⟨hafter, hsize⟩
    exact ⟨hafter, Nat.le_trans hcurrent.2 hsize⟩
  · refine (recount_sound h).mono ?_
    rintro _ _ ⟨hafter, hstorage⟩
    exact ⟨hafter, Nat.le_of_eq (congrArg Image.size hstorage).symm⟩

/-- A step of a scan changes nothing, and what it answers stands in the storage. -/
theorem scanSlot_keeps (hopened : session.closed = false) {cursor : Cursor}
    (hfits : ({ pageSize := session.pageSize, stop := cursor.stop } : Region).Fits session.storage)
    (hoffset : cursor.offset < cursor.stop) :
    Performs contract.toStorageView (scanSlot cursor) session fun result after => after = session ∧
      ∀ scanned, result = .ok scanned → scanned.id.offset = cursor.offset ∧
        scanned.StandsIn session.storage cursor.stop := by
  unfold scanSlot
  refine Performs.step (Performs.ensureOpen hopened ?_)
  refine Performs.get_bind fun actual hactual => ?_
  have hpageSize : actual.pageSize = session.pageSize := by
    rw [← hactual]
    rfl
  rw [hpageSize]
  have hslot := Region.slotAt_repeats hfits hfits (fun _ _ _ => rfl) hoffset
  refine Performs.step (Performs.onSlots (hslot.runs contract (fun header hheader => ?_) fun _ => ⟨rfl, by rintro _ ⟨⟩⟩))
  obtain ⟨hvalid, hstop, hpage, hholds⟩ := hheader
  have hbound : cursor.stop ≤ session.storage.size := hfits.bound
  rw [Region.pageEnd_eq, hfits.pageSize] at hpage
  dsimp only at hstop ⊢
  cases hid : RecordId.ofOffset? cursor.offset with
  | none => exact Performs.throw ⟨rfl, by rintro _ ⟨⟩⟩
  | some id =>
    have hoffset' : id.offset = cursor.offset := RecordId.offset_of_ofOffset? hid
    rw [← hoffset'] at hvalid hstop hpage hholds ⊢
    have hstands := Image.hasSlot_of_header hvalid hholds hpage (Nat.le_trans hstop hbound)
    cases header with
    | live capacity length origin =>
      have hpayload := hvalid.payload_le
      have hread : id.offset + SlotHeader.fullSize + length ≤ session.storage.size := by omega
      refine Performs.step (Performs.onSlots ((contract.read_answers hread).mono ?_))
      rintro _ _ ⟨rfl, rfl | ⟨-, cause, rfl⟩⟩
      · refine Performs.pure ⟨rfl, ?_⟩
        rintro _ ⟨⟩
        exact ⟨rfl, hstands, by simp [SlotHeader.state], hstop⟩
      · exact ⟨rfl, by rintro _ ⟨⟩⟩
    | moved capacity target =>
      refine Performs.pure ⟨rfl, ?_⟩
      rintro _ ⟨⟩
      exact ⟨rfl, hstands, by simp [SlotHeader.state], hstop⟩
    | deleted capacity length relocated =>
      refine Performs.pure ⟨rfl, ?_⟩
      rintro _ ⟨⟩
      exact ⟨rfl, hstands, by simp [SlotHeader.state], hstop⟩
    | padding capacity =>
      refine Performs.pure ⟨rfl, ?_⟩
      rintro _ ⟨⟩
      exact ⟨rfl, hstands, by simp [SlotHeader.state], hstop⟩

/-! ### Opening and closing -/

/-- How reading the file header ends.  A header is accepted only if its region lies in the storage.  Where there never
was one, one is written, unless a call fails. -/
inductive Loads (img : Image) : Except StoreError (FileHeader × Bool) → Image → Prop
  | found {header : FileHeader}
      (hdecode : FileHeader.decode (img.read 0 FileHeader.size).data.toList = .ok (some header))
      (hpageSize : header.pageSize = img.pageSize)
      (hfits : ({ pageSize := img.pageSize, stop := header.counters.size } : Region).Fits img) :
      Loads img (.ok (header, header.status = .closed)) img
  | refused (e : StoreError) : Loads img (.error e) img
  | grown (e : StoreError) {size : Nat} (hsize : img.size ≤ size) : Loads img (.error e) { img with size }
  | written {result : Except StoreError (FileHeader × Bool)} {size : Nat} (hbare : ∀ i < FileHeader.size, img.byte i = 0)
      (hsupported : SupportedPageSize img.pageSize) (hsize : img.pageSize ≤ size)
      (hresult : result = .ok (FileHeader.new img.pageSize, true) ∨ ∃ e, result = .error e) :
      Loads img result (({ img with size } : Image).write 0 (ofList (FileHeader.new img.pageSize).encode))

private theorem setUp_loads (contract : StorageContract σ) (h : SupportedPageSize img.pageSize)
    (hbare : ∀ i < FileHeader.size, img.byte i = 0) :
    contract.Runs (do return (← setUp img.pageSize, true)) img (Loads img) := by
  have hreach := h.le_reach
  have hlow := h.header_le
  refine Runs.step ?_
  unfold setUp
  refine Runs.step (contract.grow_runs hreach (fun size htarget hsize => ?_) fun _ cause => .refused _)
  have hbound : 0 + (ofList (FileHeader.new img.pageSize).encode).size ≤ size := by
    simp only [size_ofList, FileHeader.length_encode]
    omega
  refine Runs.step (contract.write_runs hbound ?_ fun _ cause => .grown _ hsize)
  refine Runs.step (contract.flush_answers.mono ?_)
  rintro (e | ⟨⟩) _ ⟨rfl, -⟩
  · exact .written hbare h htarget (.inr ⟨e, rfl⟩)
  · exact Runs.pure (Runs.pure (.written hbare h htarget (.inl rfl)))

/-- Whatever the storage holds. -/
theorem loadHeader_loads (contract : StorageContract σ) (img : Image) :
    contract.Runs (loadHeader img.pageSize) img (Loads img) := by
  refine contract.runs_of_wellFormed fun hwf => ?_
  unfold loadHeader
  by_cases hunsupported : img.pageSize < minPageSize ∨ img.pageSize % alignment ≠ 0 ∨ 1 <<< 32 ≤ img.pageSize
  · rw [if_pos hunsupported]
    exact Runs.throw (.refused _)
  rw [if_neg hunsupported]
  have hsupported : SupportedPageSize img.pageSize := by
    refine ⟨by omega, by omega, ?_⟩
    have hshift : 1 <<< 32 = 2 ^ 32 := rfl
    omega
  refine contract.size_answers.bind_runs ?_ fun _ cause => .refused _
  by_cases hempty : img.size = 0
  · rw [if_pos hempty]
    exact setUp_loads contract hsupported fun i _ => hwf.blank_past_end i (hempty ▸ Nat.zero_le i)
  rw [if_neg hempty]
  by_cases hsmall : img.size < FileHeader.size
  · rw [if_pos hsmall]
    exact Runs.throw (.refused _)
  rw [if_neg hsmall]
  refine (contract.read_answers (by omega)).bind_runs ?_ fun _ cause => .refused _
  cases hdecode : FileHeader.decode (img.read 0 FileHeader.size).data.toList with
  | error fault => exact Runs.throw (.refused _)
  | ok found =>
    cases found with
    | none => exact setUp_loads contract hsupported (zeros_of_decode hdecode)
    | some header =>
      dsimp only
      by_cases hpageSize : header.pageSize ≠ img.pageSize
      · rw [if_pos hpageSize]
        exact Runs.throw (.refused _)
      rw [if_neg hpageSize]
      by_cases hstop : header.counters.size < FileHeader.size ∨ img.size < header.counters.size ∨
          header.counters.size % alignment ≠ 0
      · rw [if_pos hstop]
        exact Runs.throw (.refused _)
      · rw [if_neg hstop]
        exact Runs.pure (.found hdecode (not_not.1 hpageSize)
          ⟨rfl, hsupported, by dsimp only; omega, by dsimp only; omega, by dsimp only; omega⟩)

/-- What was found fits its file, and a file that is to be recounted is as large as it was. -/
theorem Loads.fits {after : Image} {header : FileHeader} {proper : Bool} (h : Loads img (.ok (header, proper)) after) :
    ({ pageSize := img.pageSize, stop := header.counters.size } : Region).Fits after ∧
      (proper = false → after.size = img.size) := by
  cases h with
  | found hdecode hpageSize hfits => exact ⟨hfits, fun _ => rfl⟩
  | written hbare hsupported hsize hresult =>
    rcases hresult with hresult | ⟨e, hresult⟩ <;> cases hresult
    exact ⟨⟨rfl, hsupported, Nat.le_refl _, Nat.le_trans hsupported.header_le hsize,
      show FileHeader.size % alignment = 0 from rfl⟩, by rintro ⟨⟩⟩

theorem loadHeader_runs_raw (contract : StorageContract σ) (img : Image) :
    contract.Runs (loadHeader img.pageSize) img fun result after => ∀ found, result = .ok found →
      ({ pageSize := img.pageSize, stop := found.1.counters.size } : Region).Fits after := by
  refine (loadHeader_loads contract img).mono ?_
  rintro _ after hloads found rfl
  exact hloads.fits.1

private theorem start_sound (h : session.Sound) (recover : Bool) :
    Performs contract.toStorageView (start recover) session fun _ after => after.Sound := by
  have hrest : ∀ {before : Session Image}, before.Sound → Performs contract.toStorageView (do
      modify fun session => { session with header := { session.header with status := .opened } }
      persist) before fun _ after => after.Sound := fun hbefore =>
    Performs.step (markOpened_performs (Performs.mono (persist_sound ⟨hbefore.opened, hbefore.fits⟩)
      fun _ _ hafter => hafter.1))
  unfold start
  refine Performs.get_bind fun actual hactual => ?_
  cases !actual.wasClosedProperly && recover with
  | false => exact hrest h
  | true =>
    refine Performs.step ((recount_sound h).mono ?_)
    rintro (e | ⟨⟩) after ⟨hafter, -⟩
    · exact hafter
    · exact hrest hafter

theorem openOn_sound {storage : σ} (husable : contract.Usable storage) (policy : CapacityPolicy) (options : Options) :
    Opens contract storage policy options Sound fun _ _ => True := by
  refine opens_of husable ((loadHeader_runs_raw contract _).mono ?_)
  rintro (e | found) after hfits
  · trivial
  · have hsound : (beginning after policy options (contract.image storage).pageSize found).Sound :=
      ⟨rfl, hfits found rfl⟩
    refine (start_sound hsound options.recover).mono ?_
    rintro (e | ⟨⟩) session hsound
    · trivial
    · exact hsound

/-- A sound session that could be closed can be opened again. -/
theorem close_usable {session : Session σ} (husable : contract.Usable session.storage)
    (h : (session.seen contract.toStorageView).Sound) (hclose : (close session).1 = .ok ()) :
    contract.Usable (contract.reopen (close session).2.storage) := by
  have hsize : FileHeader.size ≤ (contract.image session.storage).size := Nat.le_trans h.fits.start h.fits.bound
  have hwriting : Performs contract.toStorageView writeHeader ((marked session).seen contract.toStorageView)
      fun _ _ => True := writeHeader_writes _ hsize trivial fun _ _ => trivial
  obtain ⟨husable', -⟩ := hwriting (marked session) husable rfl
  rw [close_apply (show session.closed = false from h.opened)] at hclose ⊢
  rcases hwrite : writeHeader (marked session) with ⟨e | ⟨⟩, written⟩
  · rw [hwrite] at hclose
    cases hclose
  · rw [hwrite] at hclose husable'
    dsimp only at hclose husable' ⊢
    rw [release_apply] at hclose ⊢
    obtain ⟨-, hreopen⟩ := contract.close husable'
    unfold release
    rcases hrun : (PagedStorage.close : StorageM σ Unit) written.storage with ⟨e | ⟨⟩, after⟩
    · rw [hrun] at hclose
      cases hclose
    · rw [hrun] at hreopen
      exact hreopen.1

theorem closed_close {session : Session σ} (hopened : session.closed = false) :
    (close session).2.closed = true := by
  have hwrite : (writeHeader (marked session)).2.closed = true := rfl
  rw [close_apply hopened]
  rcases hrun : writeHeader (marked session) with ⟨e | ⟨⟩, written⟩
  · rw [hrun] at hwrite
    exact hwrite
  · rw [hrun] at hwrite
    exact hwrite

private theorem renew_sound {session : Session σ} (husable : contract.Usable session.storage)
    (h : (session.seen contract.toStorageView).Sound) {policy : CapacityPolicy} {options : Options}
    (hopened : (renew contract.reopen policy options session).2.closed = false) :
    contract.Usable (renew contract.reopen policy options session).2.storage ∧
      ((renew contract.reopen policy options session).2.seen contract.toStorageView).Sound := by
  have hclosed := closed_close (show session.closed = false from h.opened)
  have hreopen := close_usable husable h
  unfold renew at hopened ⊢
  rcases hrun : close session with ⟨e | ⟨⟩, closed⟩
  · rw [hrun] at hopened hclosed
    exact absurd (hclosed.symm.trans hopened) nofun
  · rw [hrun] at hopened hclosed hreopen
    have hopens := openOn_sound (hreopen rfl) policy options
    dsimp only at hopened hclosed hopens ⊢
    rcases hopen : openOn (contract.reopen closed.storage) policy options with ⟨e, storage⟩ | session'
    · rw [hopen] at hopened
      exact absurd (hclosed.symm.trans hopened) nofun
    · exact hopens.of_eq_ok hopen

/-! ### All sessions -/

/-- A session that was opened on some storage and is still open after all that has happened to it. -/
inductive InUse (contract : StorageContract σ) : Session σ → Prop
  | opened {storage : σ} {policy : CapacityPolicy} {options : Options} {session : Session σ}
      (husable : contract.Usable storage) (hopen : openOn storage policy options = .ok session) : InUse contract session
  | handled {session : Session σ} (h : InUse contract session) (event : Event)
      (hopened : (handle contract.reopen event session).2.closed = false) :
      InUse contract (handle contract.reopen event session).2

theorem InUse.sound {session : Session σ} (h : InUse contract session) :
    contract.Usable session.storage ∧ (session.seen contract.toStorageView).Sound := by
  induction h with
  | opened husable hopen => exact (openOn_sound husable _ _).of_eq_ok hopen
  | @handled session _ event hopened ih =>
    obtain ⟨husable, hsound⟩ := ih
    have hkeeps : (∀ policy options, event ≠ .reopen policy options) → _ ∧ _ := fun hreopen =>
      have hafter := handle_keeps hsound contract.reopen event hreopen session husable rfl
      ⟨hafter.1, hafter.2.1⟩
    cases event with
    | reopen policy options => exact renew_sound husable hsound hopened
    | _ => exact hkeeps nofun

/-- Whatever a storage with the bytes of `session` answers to `act`, every storage with the bytes of `session'` answers
too, unless one of its calls fails. -/
def KeepsAnswers (session session' : Session Image) (act : ∀ (σ : Type) [PagedStorage σ], SessionM σ α) : Prop :=
  ∀ (σ τ : Type) [PagedStorage σ] [PagedStorage τ] (contract : StorageContract σ) (contract' : StorageContract τ)
    (storage : σ) (storage' : τ), contract.Usable storage → contract.image storage = session.storage →
      contract'.Usable storage' → contract'.image storage' = session'.storage →
        ∀ a, (act σ (session.on storage)).1 = .ok a →
          (act τ (session'.on storage')).1 = .ok a ∨
            contract'.fallible ∧ ∃ cause, (act τ (session'.on storage')).1 = .error (.io cause)

/-- What is looked up in the region is still found where nothing in the region has changed. -/
private theorem keepsAnswers {before after : Session Image} (h : before.Sound) (h' : after.Sound)
    (hregion : after.region = before.region) (hmaxHops : after.maxHops = before.maxHops)
    (hsame : before.storage.AgreeOn after.storage 0 before.counters.size) (id : RecordId) :
    before.KeepsAnswers after (fun _ => read id) ∧ before.KeepsAnswers after fun _ => resolve id := by
  have hfits : before.region.Fits after.storage := hregion ▸ h'.fits
  have hread : ∀ {σ : Type} [PagedStorage σ] {frame : Session Image} (storage : σ), frame.Sound →
      (read id (frame.on storage)).1 = (frame.region.lookUp frame.maxHops id storage).1 :=
    fun {σ} _ frame storage hframe => by
      rw [read_apply (show (frame.on storage).closed = false from hframe.opened)]
      rfl
  have hresolve : ∀ {σ : Type} [PagedStorage σ] {frame : Session Image} (storage : σ), frame.Sound →
      (resolve id (frame.on storage)).1 = (frame.region.locate frame.maxHops id storage).1 :=
    fun {σ} _ frame storage hframe => by
      rw [resolve_apply (show (frame.on storage).closed = false from hframe.opened)]
      rfl
  constructor
  · intro σ τ _ _ contract contract' storage storage' husable himage husable' himage' a hok
    rw [hread storage h] at hok
    rw [hread storage' h', hregion, hmaxHops]
    exact (Region.lookUp_repeats h.fits hfits hsame before.maxHops id).answer contract contract' husable husable' himage
      himage' hok
  · intro σ τ _ _ contract contract' storage storage' husable himage husable' himage' a hok
    rw [hresolve storage h] at hok
    rw [hresolve storage' h', hregion, hmaxHops]
    exact (Region.locate_repeats h.fits hfits hsame before.maxHops id).answer contract contract' husable husable' himage
      himage' hok

/-- Whatever the storage of a session holds and whatever calls fail: a request that fails leaves the counters and the
bytes of the region as they are, so that every identifier that led to a record still leads there and to the same
payload; unless it was a call that failed, it leaves the whole storage as it is. -/
theorem failed_request_is_undone {session : Session σ} (h : InUse contract session) {request : Request}
    (hflush : request ≠ .flush) {e : StoreError} (hfailed : (perform request session).1 = .error e) :
    let before := session.seen contract.toStorageView
    let after := (perform request session).2.seen contract.toStorageView
    after.counters = before.counters ∧ before.storage.AgreeOn after.storage 0 before.counters.size ∧
      (∀ id, before.KeepsAnswers after fun _ => read id) ∧ (∀ id, before.KeepsAnswers after fun _ => resolve id) ∧
      ((∀ cause, e ≠ .io cause) → after.storage = before.storage) := by
  obtain ⟨husable, hsound⟩ := h.sound
  obtain ⟨-, hatomic⟩ := perform_atomic hsound hflush session husable rfl
  rw [hfailed] at hatomic
  intro before after
  have hsound' : after.Sound := hatomic.sound hsound
  obtain ⟨img, hafter, hchanged, huntouched⟩ : ∃ img, after = { before with storage := img } ∧
      before.storage.ChangedWithin img before.counters.size reach ∧
      ((∀ cause, e ≠ .io cause) → img = before.storage) := by
    generalize hlast : (perform request session).2.seen contract.toStorageView = last at hatomic
    cases hatomic with
    | @undone _ img hchanged huntouched => exact ⟨img, hlast, hchanged, huntouched⟩
  have hsame : before.storage.AgreeOn img 0 before.counters.size := hchanged.agreeOn (Nat.le_refl _)
  rw [hafter] at hsound' ⊢
  have hkeeps := fun id => keepsAnswers hsound hsound' rfl rfl hsame id
  exact ⟨rfl, hsame, fun id => (hkeeps id).1, fun id => (hkeeps id).2, huntouched⟩

theorem failed_update_is_undone : ∃ session, InUse (Unreliable.contract Memory.contract) session ∧
    (perform (.update firstId longer) session).1 = .error (.io (.io (.injected .write))) ∧
      (perform (.update firstId longer) session).2.counters = session.counters := by
  have hrun : (openOn failingMemory .exactDefault .default).toOption.map (fun session =>
      let run := handle (Unreliable.contract Memory.contract).reopen (.request (.insert ⟨#[1]⟩)) session
      (run.2.closed, (perform (.update firstId longer) run.2).1)) =
        some (false, .error (.io (.io (.injected .write)))) := by
    decide +kernel
  rcases hopen : openOn failingMemory .exactDefault .default with e | session
  · rw [hopen] at hrun
    cases hrun
  · rw [hopen] at hrun
    obtain ⟨hopened, hfailed⟩ := Prod.mk.inj (Option.some.inj hrun)
    have huse := InUse.handled (.opened usable_failingMemory hopen) (.request (.insert ⟨#[1]⟩)) hopened
    have hflush : Request.update firstId longer ≠ .flush := by rintro ⟨⟩
    exact ⟨_, huse, hfailed, (failed_request_is_undone huse hflush hfailed).1⟩

end Session

end RecordStore
