import RecordStore.Proofs.Deletion
import RecordStore.Session.Lifecycle

/-!
# Requests

What a session answers to a request is what the store answers, with the same effect, or an excused failure without
effect (`perform_performs`).  A flush only writes the file header, and so does a recount of an image that is clean.
-/

namespace RecordStore

open Bytes StorageView

namespace Image.Keeps

variable {img : Image} {layout : Layout} {store : Store} {status : FileStatus}

theorem valid_fileHeader (h : img.Keeps layout store status) (status' : FileStatus) :
    (store.fileHeader status').Valid :=
  ⟨rfl, h.supported.fits, h.fitWords⟩

theorem describes_fileHeader (h : img.Keeps layout store status) (status' : FileStatus) :
    (store.fileHeader status').Describes layout store :=
  ⟨h.valid_fileHeader status', rfl, .inl rfl, fun _ => rfl⟩

/-- A file header that is written says how the file is from then on. -/
theorem write_header (h : img.Keeps layout store status) (status' : FileStatus) :
    (img.write 0 (ofList (store.fileHeader status').encode)).Keeps layout store status' := by
  have hchanged : img.ChangedWithin (img.write 0 (ofList (store.fileHeader status').encode)) 0 FileHeader.size :=
    .write img (Nat.le_refl _) (by simp)
  exact ⟨hchanged.pageSize.trans h.pageSize_eq, h.supported, h.tracks.of_header hchanged, h.represents,
    store.fileHeader status', img.holds_write _ _, rfl, h.describes_fileHeader status'⟩

end Image.Keeps

/-- Which bytes a request may change that ends with this result: only a flush writes the file header. -/
def Store.requestScope {α : Type} (store : Store) (request : Request) (result : Except StoreError α) : Scope :=
  match request with
  | .insert _ => .insertion
  | .update id payload => .update (store.Moves id payload) (store.update id payload) result
  | .delete _ | .read _ | .resolve _ => .slots
  | .flush => .header

namespace Session

variable {σ α β : Type} [PagedStorage σ] {contract : StorageContract σ} {session : Session Image} {layout : Layout}
  {store : Store} {status status' : FileStatus}

/-- Writing the header of a file that is large enough for it. -/
theorem writeHeader_writes (session : Session Image) (hsize : FileHeader.size ≤ session.storage.size)
    {post : Except StoreError Unit → Session Image → Prop}
    (hok : post (.ok ()) { session with storage := session.storage.write 0 (ofList session.header.encode) })
    (hio : contract.fallible → ∀ cause, post (.error (.io cause)) session) :
    Performs contract.toStorageView writeHeader session post := by
  have hbound : 0 + (ofList session.header.encode).size ≤ session.storage.size := by
    simp only [size_ofList, FileHeader.length_encode]
    omega
  unfold writeHeader
  refine Performs.get_bind fun actual hactual => Performs.onSlots ?_
  have hactual' : actual.header = session.header := by
    rw [← hactual]
    rfl
  rw [hactual']
  exact contract.write_runs hbound hok hio

theorem persist_writes (session : Session Image) (hsize : FileHeader.size ≤ session.storage.size)
    {post : Except StoreError Unit → Session Image → Prop}
    (hok : post (.ok ()) { session with storage := session.storage.write 0 (ofList session.header.encode) })
    (hio : contract.fallible → ∀ session' cause, post (.error (.io cause)) session') :
    Performs contract.toStorageView persist session post := by
  unfold persist
  refine Performs.step (writeHeader_writes session hsize ?_ fun hfallible cause => hio hfallible _ cause)
  refine Performs.onSlots (contract.flush_answers.mono ?_)
  rintro result _ ⟨rfl, rfl | ⟨hfallible, cause, rfl⟩⟩
  · exact hok
  · exact hio hfallible _ cause

theorem writeHeader_performs (session : Session Image) (hheader : session.header = store.fileHeader status')
    (h : session.storage.Keeps layout store status) {post : Except StoreError Unit → Session Image → Prop}
    (hok : ∀ img, img.Keeps layout store status' → session.storage.ChangedWithin img 0 FileHeader.size →
      post (.ok ()) { session with storage := img })
    (hio : contract.fallible → ∀ cause, post (.error (.io cause)) session) :
    Performs contract.toStorageView writeHeader session post := by
  have hkeeps := h.write_header status'
  rw [← hheader] at hkeeps
  refine writeHeader_writes session (Nat.le_trans h.tracks.size_le_stop h.tracks.bound) (hok _ hkeeps ?_) hio
  exact .write _ (Nat.le_refl _) (by simp)

/-- Writing the header and flushing, whichever of the two fails. -/
theorem persist_performs (session : Session Image) (hheader : session.header = store.fileHeader status')
    (h : session.storage.Keeps layout store status) {post : Except StoreError Unit → Session Image → Prop}
    (hok : ∀ img, img.Keeps layout store status' → session.storage.ChangedWithin img 0 FileHeader.size →
      post (.ok ()) { session with storage := img })
    (hio : contract.fallible → ∀ img cause, session.storage = img ∨
      (img.Keeps layout store status' ∧ session.storage.ChangedWithin img 0 FileHeader.size) →
      post (.error (.io cause)) { session with storage := img }) :
    Performs contract.toStorageView persist session post := by
  unfold persist
  refine Performs.step (writeHeader_performs session hheader h (fun img hkeeps hchanged => ?_) fun hfallible cause =>
    hio hfallible _ cause (.inl rfl))
  refine Performs.onSlots (contract.flush_answers.mono ?_)
  rintro result _ ⟨rfl, rfl | ⟨hfallible, cause, rfl⟩⟩
  · exact hok _ hkeeps hchanged
  · exact hio hfallible _ cause (.inr ⟨hkeeps, hchanged⟩)

/-- Writing the header changes nothing of what the session serves. -/
private theorem advances_of_persisted (h : session.Serves layout store) {img : Image}
    (hkeeps : img.Keeps layout store .opened) (hchanged : session.storage.ChangedWithin img 0 FileHeader.size) :
    Advances contract.fallible .header session { session with storage := img } layout layout store store :=
  ⟨⟨h.opened, h.policy, h.pageSize, h.header, hkeeps⟩, rfl, rfl,
    fun hclean _ => hclean.of_header h.keeps.tracks hchanged,
    fun hclean => (hclean.of_header h.keeps.tracks hchanged).worn hkeeps.tracks, nofun,
    .of_changedWithin (hchanged.mono (Nat.le_refl _) h.keeps.tracks.size_le_stop),
    fun hclean record hrecord _ => hclean.tidy record hrecord, fun _ h => h, .same store.policy,
    fun hblank => .inl (hblank.of_header h.keeps.tracks hchanged)⟩

theorem flush_performs (h : session.Serves layout store) :
    Performs contract.toStorageView flush session
      (Follows contract.toStorageView (fun _ => .header) session layout store (.ok ((), store))) := by
  unfold flush
  refine Performs.step (Performs.ensureOpen h.opened (persist_performs session h.header h.keeps ?_ ?_))
  · intro img hkeeps hchanged
    exact ⟨layout, store, advances_of_persisted h hkeeps hchanged, .done⟩
  · rintro hfallible img cause (rfl | ⟨hkeeps, hchanged⟩)
    · exact Follows.unchanged h (.failed (.io hfallible cause))
    · exact ⟨layout, store, advances_of_persisted h hkeeps hchanged, .failed (.io hfallible cause)⟩

/-- A recount takes the counters of the store, and the end of the slots where the tail ends. -/
theorem recount_performs {base : Layout} {stop' : Nat} (h : session.storage.Keeps layout store status)
    (hpageSize : store.pageSize = session.pageSize)
    (hboundary : layout.Boundary store.stop session.header.counters.size)
    (hpadded : layout.Padded store.stop base stop') (hbase : base.Tracks session.storage stop')
    (hends : base.Ends session.storage stop') {post : Except StoreError Unit → Session Image → Prop}
    (hok : post (.ok ())
      { session with header := { session.header with counters := { store.counters with size := stop' } } })
    (hio : contract.fallible → ∀ cause, post (.error (.io cause)) session) :
    Performs contract.toStorageView recount session post := by
  refine contract.performs_of_wellFormed fun hwf => ?_
  have hrep := hpadded.represents h.tracks h.represents
  have hsupported := h.supported
  -- the recount starts from the end that the header has, which may be an old one
  obtain ⟨before, after, hids, hbefore⟩ := (hpadded.boundary hboundary).split hbase.tiles
  have htotals : ({ base.totals base.ids with size := stop' } : Counters) = { store.counters with size := stop' } := by
    rw [hrep.totals_eq hbase.nodup]
    rfl
  unfold recount
  refine Performs.get_bind fun actual hactual => ?_
  have hregion : actual.region = { pageSize := session.storage.pageSize, stop := session.header.counters.size } := by
    rw [h.pageSize_eq, hpageSize, ← hactual]
    rfl
  rw [hregion]
  rw [← h.pageSize_eq] at hsupported
  have hrecount : contract.Answers _ _ _ := Region.recount_answers hwf hsupported hbase hrep hends hids hbefore
  refine Performs.step (Performs.onSlots (hrecount.mono ?_))
  rintro result _ ⟨rfl, rfl | ⟨hfallible, cause, rfl⟩⟩
  · rw [htotals]
    exact Performs.setCounters hok
  · exact hio hfallible cause

/-- What recovery makes of a session: nothing, or it serves the same records, and the slots end where the tail ends. -/
theorem recover_performs_of_tail {base : Layout} {stop' : Nat} (h : session.Serves layout store)
    (hpadded : layout.Padded store.stop base stop') (hbase : base.Tracks session.storage stop')
    (hends : base.Ends session.storage stop') {post : Except StoreError Counters → Session Image → Prop}
    (hok : ∀ img result, img.Keeps base { store with stop := stop' } .opened →
      session.storage.ChangedWithin img 0 FileHeader.size →
      (result = .ok ({ store with stop := stop' } : Store).counters ∨
        contract.fallible ∧ ∃ cause, result = .error (.io cause)) →
      post result { session with storage := img, header := ({ store with stop := stop' } : Store).fileHeader .opened })
    (hio : contract.fallible → ∀ cause, post (.error (.io cause)) session) :
    Performs contract.toStorageView recover session post := by
  have hkeeps : session.storage.Keeps base { store with stop := stop' } .opened :=
    h.keeps.advance rfl rfl (fun _ _ => rfl) hbase (hpadded.represents h.keeps.tracks h.keeps.represents)
      fun at' => hpadded.boundary
  have hboundary : layout.Boundary store.stop session.header.counters.size := by
    rw [h.header]
    exact .inl rfl
  unfold recover
  refine Performs.step (Performs.ensureOpen h.opened ?_)
  refine Performs.step (recount_performs h.keeps h.pageSize hboundary hpadded hbase hends ?_ hio)
  have hheader : { session.header with counters := { store.counters with size := stop' } } =
      ({ store with stop := stop' } : Store).fileHeader .opened := by
    rw [h.header]
    rfl
  rw [hheader]
  refine Performs.step (persist_performs
    { session with header := ({ store with stop := stop' } : Store).fileHeader .opened } rfl hkeeps ?_ ?_)
  · intro img hkeeps' hchanged
    refine Performs.get_bind fun actual hactual => Performs.pure (hok img _ hkeeps' hchanged (.inl ?_))
    have hcounters : (actual.seen contract.toStorageView).counters =
        ({ store with stop := stop' } : Store).counters := by
      rw [hactual]
      rfl
    exact congrArg Except.ok hcounters
  · rintro hfallible img cause (rfl | ⟨hkeeps', hchanged⟩)
    · exact hok _ _ hkeeps (.refl ..) (.inr ⟨hfallible, cause, rfl⟩)
    · exact hok img _ hkeeps' hchanged (.inr ⟨hfallible, cause, rfl⟩)

/-- A recount of a clean image finds the counters as they are. -/
theorem recover_performs (h : session.Serves layout store) (hblank : session.storage.BlankFrom store.stop) :
    Performs contract.toStorageView recover session
      (Follows contract.toStorageView (fun _ => .header) session layout store (.ok (store.counters, store))) := by
  refine recover_performs_of_tail h .whole h.keeps.tracks (.blank hblank) (fun img result hkeeps hchanged hresult => ?_)
    fun hfallible cause => Follows.unchanged h (.failed (.io hfallible cause))
  have hheader : ({ store with stop := store.stop } : Store).fileHeader .opened = session.header := h.header.symm
  rw [hheader]
  refine ⟨layout, store, advances_of_persisted h hkeeps hchanged, ?_⟩
  rcases hresult with rfl | ⟨hfallible, cause, rfl⟩
  · exact .done
  · exact .failed (.io hfallible cause)

/-! ### All requests -/

/-- The operation that a request asks for. -/
def perform : Request → SessionM σ Reply
  | .insert payload => return .id (← insert payload)
  | .update id payload => return .id (← update id payload)
  | .delete id => do
    delete id
    return .done
  | .read id => return .payload (← read id)
  | .resolve id => return .id (← resolve id)
  | .flush => do
    flush
    return .done

/-- The same outcome with the answer put another way. -/
theorem Outcome.map {excused : StoreError → Prop} {expected : Except StoreError (α × Store)}
    {result : Except StoreError α} {store' : Store} (h : Outcome excused store expected result store') (f : α → β) :
    Outcome excused store (expected.map fun answer => (f answer.1, answer.2)) (result.map f) store' := by
  cases h with
  | done => exact .done
  | refused => exact .refused
  | failed h => exact .failed h

/-- An operation whose answer is put another way. -/
theorem answering_performs {act : SessionM σ α} {scope : Except StoreError α → Scope}
    {scope' : Except StoreError β → Scope} {expected : Except StoreError (α × Store)}
    {expected' : Except StoreError (β × Store)} (f : α → β)
    (hact : Performs contract.toStorageView act session
        (Follows contract.toStorageView scope session layout store expected))
    (hscope : ∀ result, scope' (result.map f) = scope result)
    (hexpected : expected' = expected.map fun answer => (f answer.1, answer.2)) :
    Performs contract.toStorageView (act >>= fun answer => pure (f answer)) session
      (Follows contract.toStorageView scope' session layout store expected') := by
  refine Performs.step (hact.mono ?_)
  rintro result session' ⟨layout', store', hadvances, houtcome⟩
  have houtcome' := houtcome.map f
  rw [← hexpected] at houtcome'
  rw [← hscope] at hadvances
  cases result with
  | error e => exact ⟨layout', store', hadvances, houtcome'⟩
  | ok answer => exact Performs.pure ⟨layout', store', hadvances, houtcome'⟩

/-- A request to a session that serves a store is answered as the store answers it, with the same effect, or fails
for an excused reason and without effect. -/
theorem perform_performs (h : session.Serves layout store) (request : Request) :
    Performs contract.toStorageView (perform request) session
      (Follows contract.toStorageView (store.requestScope request) session layout store (store.perform request)) := by
  cases request with
  | insert payload =>
    refine answering_performs Reply.id (insert_performs h payload) (fun _ => rfl) ?_
    rw [Store.perform]
    cases store.insert payload <;> rfl
  | update id payload =>
    refine answering_performs Reply.id (update_performs h id payload) (Scope.update_map _ _ _) ?_
    rw [Store.perform]
    cases store.update id payload <;> rfl
  | delete id =>
    refine answering_performs (fun _ => Reply.done) (delete_performs h id) (fun _ => rfl) ?_
    rw [Store.perform]
    cases store.delete id <;> rfl
  | read id =>
    refine answering_performs Reply.payload (read_performs h id) (fun _ => rfl) ?_
    rw [Store.perform]
    cases store.live id <;> rfl
  | resolve id =>
    refine answering_performs Reply.id (resolve_performs h id) (fun _ => rfl) ?_
    rw [Store.perform]
    cases store.live id <;> rfl
  | flush => exact answering_performs (fun _ => Reply.done) (flush_performs h) (fun _ => rfl) rfl

end Session

end RecordStore
