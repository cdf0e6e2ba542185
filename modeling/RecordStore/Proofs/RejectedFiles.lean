import RecordStore.Proofs.SpareFrames
import RecordStore.Session.Lifecycle

/-!
# Rejected files

A file that turns out not to be a store, or a damaged one, has only been read until then (`CachedFile.Unwritten`): the
header is written into empty and zeroed files only, which are not rejected any more, and the scan of a file that was
not closed comes before the header that says that the file is in use.  Giving such a file back flushes a cache in which
no page was changed.  So its bytes are as they were, behind what opening a file of pages does to every file: a last page
that is not whole is filled up with zeros (`rejected_file_is_only_filled_up`, `short_foreign_file_is_filled_up`).
-/

namespace RecordStore

/-- Why a file is turned down as a whole: it is no store, or the store in it is damaged. -/
def StoreError.isRejection : StoreError → Bool
  | .format _ => true
  | .corruption .. => true
  | _ => false

/-- Work that keeps `inv`, however it ends. -/
def Preserves {ε σ α : Type} (inv : σ → Prop) (act : ExceptT ε (StateM σ) α) : Prop :=
  ∀ state, inv state → Leads act state fun _ after => inv after

namespace Preserves

variable {ε σ α β : Type} {inv : σ → Prop}

theorem pure (a : α) : Preserves inv (Pure.pure a : ExceptT ε (StateM σ) α) := fun _ h => Leads.pure h

theorem throw (e : ε) : Preserves inv (MonadExcept.throw e : ExceptT ε (StateM σ) α) := fun _ h => Leads.throw h

theorem bind {act : ExceptT ε (StateM σ) α} {next : α → ExceptT ε (StateM σ) β} (h : Preserves inv act)
    (hnext : ∀ a, Preserves inv (next a)) : Preserves inv (act >>= next) := by
  refine fun state hstate => Leads.step ((h state hstate).mono ?_)
  rintro (e | a) after hafter
  · exact hafter
  · exact hnext a after hafter

theorem get_bind {next : σ → ExceptT ε (StateM σ) β} (h : ∀ state, inv state → Preserves inv (next state)) :
    Preserves inv (get >>= next) := fun state hstate => Leads.get_bind (h state hstate state hstate)

theorem onStorage {act : StorageM σ α} (h : Preserves inv act) : Preserves inv (SlotM.onStorage act) := h

theorem attempt {act : SlotM σ α} (h : Preserves inv act) : Preserves inv act.attempt := h

end Preserves

namespace PageCache

/-- The file behind the cache holds `content`, and no page was changed in the cache. -/
structure Unwritten (content : SparseFile) (cache : PageCache) : Prop where
  content : cache.file.content = content
  clean : ∀ (index : Nat) (frame : Frame), cache.frames[index]? = some frame → frame.dirty = false

variable {content : SparseFile} {cache : PageCache}

theorem unwritten_new (file : PageFile) (maxFrames queueCapacity : Nat) :
    (new file maxFrames queueCapacity).Unwritten file.content where
  content := rfl
  clean index frame hframe := by simp [new] at hframe

theorem Unwritten.modifyFrame (h : cache.Unwritten content) (index : FrameIndex) {f : Frame → Frame}
    (hf : ∀ frame, frame.dirty = false → (f frame).dirty = false) :
    (cache.modifyFrame index f).Unwritten content where
  content := h.content
  clean i frame hframe := by
    rw [getElem?_modifyFrame] at hframe
    split at hframe
    · obtain ⟨before, hbefore, rfl⟩ := Option.map_eq_some_iff.1 hframe
      exact hf before (h.clean i before hbefore)
    · exact h.clean i frame hframe

theorem Unwritten.unpin (h : cache.Unwritten content) (index : FrameIndex) :
    (cache.unpin index false).Unwritten content := by
  have hmodified := h.modifyFrame index (f := fun frame =>
    { frame with pins := frame.pins - 1, dirty := frame.dirty || false }) fun frame hframe => by rw [hframe, Bool.or_false]
  unfold PageCache.unpin
  dsimp only
  split
  · exact { hmodified with }
  · exact hmodified

theorem Unwritten.blank (h : cache.Unwritten content) (index : FrameIndex) :
    (cache.modifyFrame index fun _ => .blank cache.pageSize).Unwritten content :=
  h.modifyFrame index fun _ _ => rfl

/-- A page that was read from the file. -/
theorem Unwritten.occupy (h : cache.Unwritten content) (index : FrameIndex) (page : PageNumber) (data : ByteArray) :
    (cache.occupy index page data false).Unwritten content :=
  { h.modifyFrame index (f := fun _ => { page := some page, data, pins := 1, dirty := false }) fun _ _ => rfl with }

/-- There is nothing to write back. -/
theorem writeBack_writes_nothing (index : FrameIndex) : Preserves (Unwritten content) (writeBack index) := by
  refine Preserves.get_bind fun cache hcache => ?_
  split
  · rename_i hframe
    cases hcache.clean index _ hframe
  · exact Preserves.pure ()

private theorem evict_writes_nothing (waiting : Nat) : Preserves (Unwritten content) (evict waiting) := by
  induction waiting with
  | zero => exact Preserves.get_bind fun _ _ => Preserves.throw _
  | succ waiting ih =>
    refine fun cache hcache => Leads.get_bind ?_
    split
    · exact Leads.throw hcache
    · rename_i index queue _
      have hqueue : Unwritten content { cache with queue } := { hcache with }
      refine Leads.step (Leads.setting ?_)
      by_cases hpinned : (cache.frames[index]?.elim 0 (·.pins)) > 0
      · rw [if_pos hpinned]
        exact ih _ hqueue
      · rw [if_neg hpinned]
        refine Leads.step (Leads.catching ((writeBack_writes_nothing index _ hqueue).mono ?_))
        rintro (e | ⟨⟩) after hafter
        · exact Leads.step (Leads.modifying (Leads.throw { hafter with }))
        · exact Leads.step (Leads.modifying (Leads.pure { hafter.blank index with }))

private theorem acquireFrame_writes_nothing : Preserves (Unwritten content) acquireFrame := by
  refine Preserves.get_bind fun cache hcache => ?_
  split
  · refine fun _ _ => Leads.step (Leads.setting (Leads.pure ⟨hcache.content, fun index frame hframe => ?_⟩))
    rw [Array.getElem?_push] at hframe
    split at hframe
    · rw [← Option.some.inj hframe]
      rfl
    · exact hcache.clean index frame hframe
  · exact evict_writes_nothing _

theorem pin_writes_nothing (page : PageNumber) : Preserves (Unwritten content) (pin page) := by
  refine fun cache hcache => Leads.get_bind ?_
  split
  · rename_i index _
    have hpinned := hcache.modifyFrame index (f := fun frame => { frame with pins := frame.pins + 1 }) fun _ h => h
    exact Leads.step (Leads.setting (Leads.pure { hpinned with }))
  · refine Leads.step ((acquireFrame_writes_nothing cache hcache).mono ?_)
    rintro (e | index) after hafter
    · exact hafter
    · refine Leads.get_bind ?_
      split
      · exact Leads.step (Leads.setting (Leads.pure (hafter.occupy index page _)))
      · exact Leads.step (Leads.setting (Leads.throw { hafter.blank index with }))

theorem flush_writes_nothing : Preserves (Unwritten content) flush := by
  refine Preserves.get_bind fun cache _ => ?_
  generalize List.range cache.frames.size = indices
  induction indices with
  | nil => exact Preserves.pure ()
  | cons index rest ih => exact (writeBack_writes_nothing index).bind fun _ => ih

end PageCache

namespace CachedFile

open PageCache

/-- The file holds `content`, and nothing waits in the cache to be written to it. -/
def Unwritten (content : SparseFile) (file : CachedFile) : Prop := file.cache.Unwritten content

variable {content : SparseFile}

theorem unwritten_behind (file : PageFile) (frames : Nat) : (behind file frames).Unwritten file.content :=
  unwritten_new file frames frames

private theorem onCache_writes_nothing {α : Type} {act : CacheM α} (h : Preserves (PageCache.Unwritten content) act) :
    Preserves (Unwritten content) (onCache act) := fun file hfile => leads_onCache (h file.cache hfile)

private theorem ensureOpen_writes_nothing : Preserves (Unwritten content) ensureOpen := by
  refine Preserves.get_bind fun _ _ => ?_
  split
  · exact Preserves.throw _
  · exact Preserves.pure ()

private theorem checkBounds_writes_nothing (offset length : Nat) :
    Preserves (Unwritten content) (checkBounds offset length) := by
  refine Preserves.get_bind fun _ _ => ?_
  dsimp only
  split
  · exact Preserves.throw _
  · exact Preserves.pure ()

private theorem readSpans_writes_nothing (spans : List Span) (bytes : ByteArray) :
    Preserves (Unwritten content) (readSpans spans bytes) := by
  induction spans generalizing bytes with
  | nil => exact Preserves.pure bytes
  | cons span rest ih =>
    refine (onCache_writes_nothing (pin_writes_nothing span.page)).bind fun index file hfile => Leads.get_bind ?_
    refine Leads.step (Leads.modifying ?_)
    exact ih _ _ (PageCache.Unwritten.unpin hfile index)

theorem read_writes_nothing (offset length : Nat) :
    Preserves (Unwritten content) (PagedStorage.read offset length : M ByteArray) :=
  ensureOpen_writes_nothing.bind fun _ => (checkBounds_writes_nothing offset length).bind fun _ =>
    Preserves.get_bind fun _ _ => readSpans_writes_nothing _ _

theorem size_writes_nothing : Preserves (Unwritten content) (PagedStorage.size : M Nat) :=
  ensureOpen_writes_nothing.bind fun _ => Preserves.get_bind fun _ _ => Preserves.pure _

theorem close_writes_nothing : Preserves (Unwritten content) (PagedStorage.close : M Unit) := by
  unfold PagedStorage.close instPagedStorage close
  refine Preserves.get_bind fun _ _ => ?_
  split
  · exact Preserves.pure ()
  · intro file hfile
    exact Leads.step (Leads.modifying (onCache_writes_nothing flush_writes_nothing _ hfile))

end CachedFile

/-! ### Scans -/

namespace Region

open CachedFile

variable {content : SparseFile} (region : Region)

theorem slotAt_writes_nothing (offset : Nat) :
    Preserves (Unwritten content) (region.slotAt offset : SlotM CachedFile SlotHeader) := by
  refine (Preserves.onStorage (read_writes_nothing offset _)).bind fun raw => ?_
  split
  · exact Preserves.throw _
  · dsimp only
    split
    · exact Preserves.throw _
    · exact Preserves.pure _

private theorem takeCensus_writes_nothing (census : Census) :
    Preserves (Unwritten content) (region.takeCensus census : SlotM CachedFile Census) := by
  induction census using Region.takeCensus.induct region with
  | case1 census hmore ih =>
    rw [takeCensus, if_pos hmore]
    exact (region.slotAt_writes_nothing census.offset).bind ih
  | case2 census hdone =>
    rw [takeCensus, if_neg hdone]
    exact Preserves.pure census

private theorem extendCensus_writes_nothing (census : Census) :
    Preserves (Unwritten content) (region.extendCensus census : SlotM CachedFile Census) := by
  induction census using Region.extendCensus.induct region with
  | case1 census hmore ih =>
    rw [extendCensus, if_pos hmore]
    refine (region.slotAt_writes_nothing census.offset).attempt.bind fun result => ?_
    split
    · exact Preserves.pure census
    · exact Preserves.throw _
    · rename_i header
      split
      · exact Preserves.pure census
      · exact ih header
  | case2 census hdone =>
    rw [extendCensus, if_neg hdone]
    exact Preserves.pure census

theorem recount_writes_nothing : Preserves (Unwritten content) (region.recount : SlotM CachedFile Counters) :=
  (region.takeCensus_writes_nothing .start).bind fun census => (Preserves.onStorage size_writes_nothing).bind fun size =>
    ({ region with stop := size }.extendCensus_writes_nothing census).bind fun _ => Preserves.pure _

end Region

namespace Session

open CachedFile

variable {content : SparseFile} {policy : CapacityPolicy} {options : Options} {e : StoreError}

/-! ### Opening -/

private def Rejects {α : Type} (result : Except StoreError α) : Prop := ∃ e, result = .error e ∧ e.isRejection = true

private theorem not_rejects_ok {α : Type} (a : α) : ¬ Rejects (.ok a : Except StoreError α) := by
  rintro ⟨e, ⟨⟩, -⟩

private theorem Rejects.of_error {α β : Type} {e : StoreError} (h : Rejects (.error e : Except StoreError α)) :
    Rejects (.error e : Except StoreError β) := by
  obtain ⟨_, ⟨⟩, he⟩ := h
  exact ⟨e, rfl, he⟩

/-- Work that fails only where a call on the storage fails. -/
private def NeverRejects {σ α : Type} (act : ExceptT StoreError (StateM σ) α) : Prop :=
  ∀ state, Leads act state fun result _ => ¬ Rejects result

private theorem NeverRejects.bind {σ α β : Type} {act : ExceptT StoreError (StateM σ) α}
    {next : α → ExceptT StoreError (StateM σ) β} (h : NeverRejects act) (hnext : ∀ a, NeverRejects (next a)) :
    NeverRejects (act >>= next) := by
  refine fun state => Leads.step ((h state).mono ?_)
  rintro (e | a) after hafter
  · exact fun hrejects => hafter hrejects.of_error
  · exact hnext a after

private theorem onStorage_never_rejects {σ α : Type} (act : StorageM σ α) : NeverRejects (SlotM.onStorage act) := by
  intro storage
  unfold Leads
  rw [SlotM.onStorage_apply]
  rcases act storage with ⟨fault | a, after⟩
  · rintro ⟨_, ⟨⟩, ⟨⟩⟩
  · exact not_rejects_ok a

private theorem leads_onSlots {α : Type} {act : SlotM CachedFile α} {session : Session CachedFile}
    {post : Except StoreError α → Session CachedFile → Prop}
    (h : Leads act session.storage fun result storage => post result { session with storage }) :
    Leads (onSlots act) session post := h

private theorem setUp_never_rejects (pageSize : Nat) : NeverRejects (setUp pageSize : SlotM CachedFile FileHeader) :=
  (onStorage_never_rejects _).bind fun _ => (onStorage_never_rejects _).bind fun _ =>
    (onStorage_never_rejects _).bind fun _ _ => Leads.pure (not_rejects_ok _)

private theorem persist_never_rejects : NeverRejects (persist : SessionM CachedFile Unit) :=
  NeverRejects.bind
    (fun session => Leads.get_bind (leads_onSlots (onStorage_never_rejects _ session.storage)))
    fun _ session => leads_onSlots (onStorage_never_rejects _ session.storage)

/-- A file that is rejected for its header was not written to, nor was one that the last session did not close. -/
private structure Inspects (content : SparseFile) (result : Except StoreError (FileHeader × Bool)) (file : CachedFile) :
    Prop where
  rejected : Rejects result → file.Unwritten content
  unclosed : ∀ header, result = .ok (header, false) → file.Unwritten content

private theorem Inspects.of_unwritten {result : Except StoreError (FileHeader × Bool)} {file : CachedFile}
    (h : file.Unwritten content) : Inspects content result file := ⟨fun _ => h, fun _ _ => h⟩

/-- A store is made of the file, so that it counts as closed. -/
private theorem setUp_inspects (pageSize : Nat) (file : CachedFile) :
    Leads (do return (← setUp pageSize, true)) file (Inspects content) := by
  refine Leads.step ((setUp_never_rejects pageSize file).mono ?_)
  rintro (e | header) after hafter
  · exact ⟨fun hrejects => absurd hrejects.of_error hafter, by rintro _ ⟨⟩⟩
  · exact Leads.pure ⟨fun hrejects => absurd hrejects (not_rejects_ok _), by rintro _ ⟨⟩⟩

private theorem loadHeader_inspects (pageSize : Nat) {file : CachedFile} (h : file.Unwritten content) :
    Leads (loadHeader pageSize) file (Inspects content) := by
  unfold loadHeader
  split
  · exact Leads.throw (.of_unwritten h)
  refine Leads.step ((Preserves.onStorage size_writes_nothing file h).mono ?_)
  rintro (e | size) file h
  · exact .of_unwritten h
  dsimp only
  split
  · exact setUp_inspects pageSize file
  split
  · exact Leads.throw (.of_unwritten h)
  refine Leads.step ((Preserves.onStorage (read_writes_nothing 0 FileHeader.size) file h).mono ?_)
  rintro (e | raw) file h
  · exact .of_unwritten h
  dsimp only
  split
  · exact Leads.throw (.of_unwritten h)
  · exact setUp_inspects pageSize file
  · split
    · exact Leads.throw (.of_unwritten h)
    split
    · exact Leads.throw (.of_unwritten h)
    · exact Leads.pure (.of_unwritten h)

private theorem recount_writes_nothing :
    Preserves (fun session : Session CachedFile => session.storage.Unwritten content) recount := by
  refine Preserves.get_bind fun session _ => Preserves.bind ?_ fun counters => ?_
  · exact fun session h => leads_onSlots (Region.recount_writes_nothing _ session.storage h)
  · exact fun session h => Leads.modifying h

/-- The scan of a file that was not closed comes before anything is written to it. -/
private theorem start_rejects (recover : Bool) (session : Session CachedFile)
    (h : session.wasClosedProperly = false → session.storage.Unwritten content) :
    Leads (start recover) session fun result after => Rejects result → after.storage.Unwritten content := by
  have hpersist : NeverRejects (do
      modify fun session : Session CachedFile => { session with header := { session.header with status := .opened } }
      persist) := fun session => Leads.step (Leads.modifying (persist_never_rejects _))
  refine Leads.get_bind ?_
  split
  · rename_i hrecount
    have hunclosed : session.wasClosedProperly = false := by
      cases hclosed : session.wasClosedProperly with
      | false => rfl
      | true => simp [hclosed] at hrecount
    refine Leads.step ((recount_writes_nothing session (h hunclosed)).mono ?_)
    rintro (e | ⟨⟩) after hafter
    · exact fun _ => hafter
    · exact (hpersist after).mono fun _ _ hnever hrejects => absurd hrejects hnever
  · exact (hpersist session).mono fun _ _ hnever hrejects => absurd hrejects hnever

private theorem openOn_rejects {file left : CachedFile} (h : openOn file policy options = .error (e, left))
    (he : e.isRejection = true) (hfile : file.Unwritten content) : left.Unwritten content := by
  have hrelease : ∀ file : CachedFile, file.Unwritten content → (release file).Unwritten content := close_writes_nothing
  have hload := loadHeader_inspects (PagedStorage.pageSize file) hfile
  unfold openOn at h
  dsimp only at h
  unfold Leads at hload
  rcases hheader : loadHeader (PagedStorage.pageSize file) file with ⟨e' | ⟨header, closed⟩, after⟩ <;>
    rw [hheader] at h hload <;> dsimp only at h hload
  · obtain ⟨rfl, rfl⟩ := Prod.mk.inj (Except.error.inj h)
    exact hrelease after (hload.rejected ⟨e', rfl, he⟩)
  · split at h
    · cases h
    · rename_i e' session hstart
      obtain ⟨rfl, rfl⟩ := Prod.mk.inj (Except.error.inj h)
      have hrejects := start_rejects options.recover
        { storage := after, policy, maxHops := options.maxHops, pageSize := PagedStorage.pageSize file
          wasClosedProperly := closed, header, closed := false } fun hclosed => hload.unclosed header (hclosed ▸ rfl)
      unfold Leads at hrejects
      rw [hstart] at hrejects
      exact hrelease session.storage (hrejects ⟨e', rfl, he⟩)

/-- The file that is worked on has its last page filled up. -/
private theorem openOrCreate_fills_up {path : String} {pageSize frames : Nat} {file : CachedFile}
    (h : CachedFile.openOrCreate path (.regular content) pageSize frames = .ok file) :
    ∃ filled, file.Unwritten filled ∧ filled.length = (content.length + pageSize - 1) / pageSize * pageSize ∧
      (∀ position, filled.byteAt position = content.byteAt position) ∧
      (content.length % pageSize = 0 → filled = content) := by
  unfold CachedFile.openOrCreate PageFile.openOrCreate at h
  cases hcheck : checkPageSize pageSize with
  | error e =>
    rw [hcheck] at h
    cases h
  | ok _ =>
    have hpos : 0 < pageSize := (supported_of_checkPageSize hcheck).pos
    rw [hcheck] at h
    change ((if _ then _ else if _ then _ else _) >>= _) = _ at h
    rw [Image.roundUp_eq hpos]
    split_ifs at h ⊢ with hmod hlong
    · obtain rfl : CachedFile.behind { content, pageSize } frames = file := Except.ok.inj h
      exact ⟨content, unwritten_behind { content, pageSize } frames, rfl, fun _ => rfl, fun _ => rfl⟩
    · cases h
    · obtain rfl : CachedFile.behind { content := content.setLength _, pageSize } frames = file := Except.ok.inj h
      exact ⟨_, unwritten_behind { content := content.setLength _, pageSize } frames, rfl,
        content.byteAt_setLength_page hpos, fun hwhole => absurd hwhole hmod⟩

/-- A file that is rejected, because it is no store or because the store is damaged, has its bytes as they were, and
none waits to be written.  Only a last page that was not whole is filled up with zeros. -/
theorem rejected_file_is_only_filled_up (path : String) {file : Option CachedFile}
    (h : openFile path (.regular content) policy options = .error (e, file)) (he : e.isRejection = true) :
    ∃ left, file = some left ∧
      left.onDisk.length = (content.length + options.pageSize - 1) / options.pageSize * options.pageSize ∧
      (∀ position, left.onDisk.byteAt position = content.byteAt position) ∧
      (content.length % options.pageSize = 0 → left.onDisk = content) ∧
      ∀ frame ∈ left.cache.frames, frame.dirty = false := by
  unfold openFile at h
  split at h
  · obtain ⟨rfl, -⟩ := Prod.mk.inj (Except.error.inj h)
    cases he
  rename_i opened hopened
  obtain ⟨filled, hopened, hlength, hbytes, hwhole⟩ := openOrCreate_fills_up hopened
  split at h
  · rename_i e' left hfailed
    obtain ⟨rfl, rfl⟩ := Prod.mk.inj (Except.error.inj h)
    have hleft := openOn_rejects hfailed he hopened
    have hdisk : left.onDisk = filled := hleft.content
    refine ⟨left, rfl, hdisk ▸ hlength, hdisk ▸ hbytes, fun hmod => hdisk.trans (hwhole hmod), fun frame hframe => ?_⟩
    obtain ⟨index, hindex, rfl⟩ := Array.mem_iff_getElem.1 hframe
    exact hleft.clean index _ (Array.getElem?_eq_getElem hindex)
  · cases h

/-- A file of `length` bytes that is no store. -/
def foreignFile (length : Nat) : SparseFile := .ofBytes ⟨Array.replicate length 88⟩

/-- A page of something else. -/
theorem foreign_page_is_left_alone : ∃ e left,
    openFile "file" (.regular (foreignFile 256)) (.exact wordMax) { Options.default with pageSize := 256 } =
      .error (e, some left) ∧ e.isRejection = true ∧ left.onDisk = foreignFile 256 := by
  have hrun : ((openFile "file" (.regular (foreignFile 256)) (.exact wordMax)
      { Options.default with pageSize := 256 }).map fun _ => ()).mapError (·.1.isRejection) = .error true := by
    decide +kernel
  rcases hopen : openFile "file" (.regular (foreignFile 256)) (.exact wordMax)
    { Options.default with pageSize := 256 } with ⟨e, file⟩ | session
  · rw [hopen] at hrun
    have hrejected : e.isRejection = true := Except.error.inj hrun
    obtain ⟨left, rfl, -, -, hwhole, -⟩ := rejected_file_is_only_filled_up "file" hopen hrejected
    exact ⟨e, left, rfl, hrejected, hwhole (by decide +kernel)⟩
  · rw [hopen] at hrun
    cases hrun

/-- A file that is no store and is shorter than a page. -/
theorem short_foreign_file_is_filled_up : ∃ e left,
    openFile "file" (.regular (foreignFile 100)) (.exact wordMax) { Options.default with pageSize := 256 } =
      .error (e, some left) ∧ e.isRejection = true ∧ (foreignFile 100).length = 100 ∧ left.onDisk.length = 256 := by
  have hrun : ((openFile "file" (.regular (foreignFile 100)) (.exact wordMax)
      { Options.default with pageSize := 256 }).map fun _ => ()).mapError
        (fun failed => (failed.1.isRejection, failed.2.map (·.onDisk.length))) = .error (true, some 256) := by
    decide +kernel
  rcases hopen : openFile "file" (.regular (foreignFile 100)) (.exact wordMax)
    { Options.default with pageSize := 256 } with ⟨e, file⟩ | session
  · rw [hopen] at hrun
    obtain ⟨hrejected, hfile⟩ := Prod.mk.inj (Except.error.inj hrun)
    obtain ⟨left, rfl, hlength⟩ := Option.map_eq_some_iff.1 hfile
    exact ⟨e, left, rfl, hrejected, rfl, hlength⟩
  · rw [hopen] at hrun
    cases hrun

end Session

end RecordStore
