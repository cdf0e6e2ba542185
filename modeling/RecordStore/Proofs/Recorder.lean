import RecordStore.Proofs.Layout
import RecordStore.Proofs.Performing
import RecordStore.Proofs.Uniform
import RecordStore.Session.Records

/-!
# Writes as they are issued

A storage that writes down what is written to it, whether the write succeeds or fails (`Recorder`), and keeps the
contract of the storage behind it.  `Issues` says which writes an operation issues at most, with one rule for each way
in which such work is put together; work on slots that is `Confined` issues no others wherever it is started.  Sessions
do not notice that their writes are written down (`Recorder.handle_inner`).
-/

namespace RecordStore

open StorageView

structure IssuedWrite where
  offset : Nat
  data : ByteArray

/-- A storage and the writes issued to it, last first. -/
structure Recorder (σ : Type) where
  inner : σ
  issued : List IssuedWrite

namespace Recorder

variable {σ α : Type}

def onInner (act : StorageM σ α) : StorageM (Recorder σ) α := fun storage =>
  match act storage.inner with
  | (result, inner) => (result, { storage with inner })

instance [PagedStorage σ] : PagedStorage (Recorder σ) where
  pageSize storage := PagedStorage.pageSize storage.inner
  read offset length := onInner (PagedStorage.read offset length)
  write offset data := fun storage =>
    onInner (PagedStorage.write offset data) { storage with issued := { offset, data } :: storage.issued }
  size := onInner PagedStorage.size
  grow target := onInner (PagedStorage.grow target)
  flush := onInner PagedStorage.flush
  close := onInner PagedStorage.close

/-- The storage with nothing written down yet. -/
def start (storage : σ) : Recorder σ := { inner := storage, issued := [] }

/-- A recorder looks like the storage behind it. -/
def view (inner : StorageView σ) : StorageView (Recorder σ) where
  image storage := inner.image storage.inner
  Usable storage := inner.Usable storage.inner
  fallible := inner.fallible

/-- A recorder keeps the contract that the storage behind it keeps. -/
def contract [PagedStorage σ] (inner : StorageContract σ) : StorageContract (Recorder σ) where
  toStorageView := view inner.toStorageView
  reopen storage := { storage with inner := inner.reopen storage.inner }
  wellFormed h := inner.wellFormed h
  pageSize_eq h := inner.pageSize_eq h
  read {storage _ _} (h : inner.Usable storage.inner) hbound := inner.read h hbound
  write {storage _ _} (h : inner.Usable storage.inner) hbound := inner.write h hbound
  size {storage} (h : inner.Usable storage.inner) := inner.size h
  grow {storage _} (h : inner.Usable storage.inner) hreach := inner.grow h hreach
  flush {storage} (h : inner.Usable storage.inner) := inner.flush h
  close {storage} (h : inner.Usable storage.inner) := by
    obtain ⟨himage, hreopen⟩ := inner.close h
    have hclose : (PagedStorage.close : StorageM (Recorder σ) Unit) storage = onInner PagedStorage.close storage := rfl
    rw [hclose]
    refine ⟨himage, ?_⟩
    unfold onInner
    rcases hresult : (PagedStorage.close : StorageM σ Unit) storage.inner with ⟨e | ⟨⟩, after⟩
    · rw [hresult] at hreopen
      exact hreopen
    · rw [hresult] at hreopen
      exact hreopen

end Recorder

/-! ### What is issued -/

variable {s σ α β : Type}

/-- Started in a state with the property `start`, `act` issues no writes but those that are `allowed`. -/
def Issues (issued : s → List IssuedWrite) (act : ExceptT StoreError (StateM s) α) (start : s → Prop)
    (allowed : IssuedWrite → Prop) : Prop :=
  ∀ state, start state →
    ∃ fresh, issued (act state).2 = fresh ++ issued state ∧ ∀ write ∈ fresh, allowed write

namespace Issues

variable {issued : s → List IssuedWrite} {act : ExceptT StoreError (StateM s) α} {start start' : s → Prop}
  {allowed allowed' : IssuedWrite → Prop}

theorem mono (h : Issues issued act start allowed) (himp : ∀ write, allowed write → allowed' write) :
    Issues issued act start allowed' := by
  intro state hstart
  obtain ⟨fresh, hfresh, hallowed⟩ := h state hstart
  exact ⟨fresh, hfresh, fun write hwrite => himp write (hallowed write hwrite)⟩

theorem restrict (h : Issues issued act start allowed) (himp : ∀ state, start' state → start state) :
    Issues issued act start' allowed := fun state hstart => h state (himp state hstart)

theorem of_unchanged (h : ∀ state, start state → issued (act state).2 = issued state) :
    Issues issued act start allowed :=
  fun state hstart => ⟨[], h state hstart, nofun⟩

theorem pure (a : α) : Issues issued (Pure.pure a : ExceptT StoreError (StateM s) α) start allowed :=
  .of_unchanged fun _ _ => rfl

theorem throw (e : StoreError) : Issues issued (MonadExcept.throw e : ExceptT StoreError (StateM s) α) start allowed :=
  .of_unchanged fun _ _ => rfl

theorem bind {next : α → ExceptT StoreError (StateM s) β} (h : Issues issued act start allowed)
    (hnext : ∀ a, Issues issued (next a) (fun after => ∃ state, start state ∧ act state = (.ok a, after)) allowed) :
    Issues issued (act >>= next) start allowed := by
  intro state hstart
  obtain ⟨fresh, hfresh, hallowed⟩ := h state hstart
  rw [bind_apply]
  rcases hact : act state with ⟨e | a, after⟩
  · rw [hact] at hfresh
    exact ⟨fresh, hfresh, hallowed⟩
  · rw [hact] at hfresh
    obtain ⟨fresh', hfresh', hallowed'⟩ := hnext a after ⟨state, hstart, hact⟩
    refine ⟨fresh' ++ fresh, ?_, fun write hwrite => ?_⟩
    · dsimp only at hfresh ⊢
      rw [hfresh', hfresh, List.append_assoc]
    · rcases List.mem_append.1 hwrite with hwrite | hwrite
      · exact hallowed' write hwrite
      · exact hallowed write hwrite

/-- What comes next issues such writes wherever it is started. -/
theorem andThen {next : α → ExceptT StoreError (StateM s) β} (h : Issues issued act start allowed)
    (hnext : ∀ a, Issues issued (next a) (fun _ => True) allowed) : Issues issued (act >>= next) start allowed :=
  h.bind fun a => (hnext a).restrict fun _ _ => trivial

theorem ofExcept_bind {result : Except StoreError α} {next : α → ExceptT StoreError (StateM s) β}
    (h : ∀ a, result = .ok a → Issues issued (next a) start allowed) :
    Issues issued (liftExcept result >>= next) start allowed := by
  cases result with
  | error e => exact .of_unchanged fun _ _ => rfl
  | ok a => exact h a rfl

end Issues

/-! ### Work on slots -/

namespace SlotM

/-- Work on slots that issues no writes but those that are allowed, wherever it is started. -/
abbrev Confined (act : SlotM (Recorder σ) α) (allowed : IssuedWrite → Prop) : Prop :=
  Issues Recorder.issued act (fun _ => True) allowed

variable {allowed : IssuedWrite → Prop}

theorem confined_write [PagedStorage σ] {offset : Nat} {data : ByteArray} (h : allowed { offset, data }) :
    Confined (σ := σ) (onStorage (PagedStorage.write offset data)) allowed :=
  fun _ _ => ⟨[{ offset, data }], rfl, by simpa using h⟩

/-- Any other call. -/
theorem confined_onInner (act : StorageM σ α) : Confined (onStorage (Recorder.onInner act)) allowed :=
  .of_unchanged fun _ _ => rfl

theorem confined_ofExcept (result : Except StoreError α) : Confined (σ := σ) (liftExcept result) allowed := by
  cases result with
  | error e => exact .throw e
  | ok a => exact .pure a

/-- A failure that is handed on changes nothing about the writes. -/
theorem Issues.attempt {act : SlotM (Recorder σ) α} {start : Recorder σ → Prop}
    (h : Issues Recorder.issued act start allowed) : Issues Recorder.issued (SlotM.attempt act) start allowed := h

end SlotM

namespace Region

open SlotM

variable [PagedStorage σ] {allowed : IssuedWrite → Prop} (region : Region)

theorem slotAt_confined (offset : Nat) : Confined (region.slotAt offset : SlotM (Recorder σ) SlotHeader) allowed := by
  unfold slotAt
  refine Issues.andThen (confined_onInner _) fun raw => ?_
  cases SlotHeader.decode offset raw.data.toList with
  | error fault => exact .throw _
  | ok header =>
    dsimp only
    split
    · exact .throw _
    · exact .pure _

theorem isSlot_confined (id : RecordId) : Confined (region.isSlot id : SlotM (Recorder σ) Bool) allowed := by
  unfold isSlot
  split
  · unfold isSlotStart
    dsimp only
    split
    · exact .pure _
    · exact Issues.andThen (confined_onInner _) fun page => confined_ofExcept _
  · exact .pure _

theorem follow_confined (maxHops : Nat) (id current : RecordId) (header : SlotHeader) (passed : List Redirect) :
    Confined (region.follow maxHops id current header passed : SlotM (Recorder σ) Resolution) allowed := by
  induction hleft : maxHops - passed.length using Nat.strongRecOn generalizing current header passed with
  | ind left ih =>
    rw [follow.eq_def]
    cases header with
    | live capacity length origin => exact .pure _
    | deleted capacity length relocated => exact .pure _
    | padding capacity =>
      dsimp only
      cases passed.getLast? with
      | none => exact .throw _
      | some redirect => exact .throw _
    | moved capacity target =>
      dsimp only
      by_cases hcycle : (passed ++ [(⟨current, capacity⟩ : Redirect)]).any (·.id = target)
      · rw [if_pos hcycle]
        exact .throw _
      · rw [if_neg hcycle]
        by_cases hlt : passed.length < maxHops
        · rw [if_pos hlt]
          refine Issues.andThen (region.isSlot_confined target) fun found => ?_
          split
          · refine Issues.andThen (region.slotAt_confined _) fun next => ih _ ?_ _ _ _ rfl
            simp only [List.length_append, List.length_singleton]
            omega
          · exact .throw _
        · rw [if_neg hlt]
          exact .throw _

theorem resolve_confined (maxHops : Nat) (id : RecordId) :
    Confined (region.resolve maxHops id : SlotM (Recorder σ) Resolution) allowed := by
  unfold resolve
  refine Issues.andThen (region.isSlot_confined id) fun found => ?_
  split
  · exact Issues.andThen (region.slotAt_confined _) fun header => region.follow_confined maxHops id id header []
  · exact .throw _

theorem redirectCapacity_confined (id : RecordId) :
    Confined (region.redirectCapacity id : SlotM (Recorder σ) Nat) allowed := by
  unfold redirectCapacity
  refine Issues.andThen (region.slotAt_confined _) fun header => ?_
  cases header with
  | moved capacity target => exact .pure _
  | live capacity length origin => exact .throw _
  | deleted capacity length relocated => exact .throw _
  | padding capacity => exact .throw _

/-- A new slot and the padding in front of it go behind the region. -/
theorem append_confined (hpos : 0 < region.pageSize) (header : SlotHeader) (payload : ByteArray)
    (h : ∀ offset data, region.stop ≤ offset → allowed { offset, data }) :
    Confined (region.append header payload : SlotM (Recorder σ) (RecordId × Nat)) allowed := by
  have hplace : region.stop ≤ (region.placement header.slotSize).offset := by
    unfold placement
    dsimp only
    split
    · rw [region.pageEnd_eq]
      exact Nat.le_of_lt (lt_endOfPage hpos _)
    · exact Nat.le_refl _
  unfold append
  dsimp only
  cases RecordId.ofOffset? (region.placement header.slotSize).offset with
  | none => exact .throw _
  | some id =>
    dsimp only
    have hslot : Confined (σ := σ) (do
        SlotM.onStorage (PagedStorage.grow ((region.placement header.slotSize).offset + header.slotSize))
        writeSlot (region.placement header.slotSize).offset header payload
        return (id, (region.placement header.slotSize).offset + header.slotSize)) allowed :=
      Issues.andThen (confined_onInner _) fun _ => Issues.andThen (confined_write (h _ _ hplace)) fun _ => .pure _
    cases (region.placement header.slotSize).padding with
    | none => exact hslot
    | some capacity => exact Issues.andThen (confined_write (h _ _ (Nat.le_refl _))) fun _ => hslot

end Region

/-! ### Nothing else -/

namespace Recorder

variable {σ α : Type} [PagedStorage σ]

theorem run_inner (call : SlotCall) (storage : Recorder σ) :
    (call.run storage).1 = (call.run storage.inner).1 ∧ (call.run storage).2.inner = (call.run storage.inner).2 := by
  cases call <;> exact ⟨rfl, rfl⟩

theorem dialogue_inner (dialogue : Dialogue α) (storage : Recorder σ) :
    (dialogue.run storage).1 = (dialogue.run storage.inner).1 ∧
      (dialogue.run storage).2.inner = (dialogue.run storage.inner).2 := by
  induction dialogue generalizing storage with
  | done result => exact ⟨rfl, rfl⟩
  | ask call next ih =>
    obtain ⟨hanswer, hinner⟩ := run_inner call storage
    have hrest := ih (call.run storage).1 (call.run storage).2
    rw [hinner] at hrest
    simp only [Dialogue.run]
    rw [← hanswer]
    exact hrest

/-- That writes are written down changes nothing about what a session answers and what its storage holds then. -/
theorem handle_inner {session : Session (Recorder σ)} (hfits : session.pageSize < 2 ^ 32) {event : Event}
    (hreopen : ∀ policy options, event ≠ .reopen policy options) :
    let plain := Session.handle (fun storage => storage) event (session.on session.storage.inner)
    let recorded := Session.handle (fun storage => storage) event session
    recorded.1 = plain.1 ∧ recorded.2.on recorded.2.storage.inner = plain.2 := by
  have huniform : Session.UniformIn (session.on ()) _ := Session.handle_uniform hfits hreopen
  obtain ⟨dialogue, hdialogue⟩ := huniform
  have hplain : Session.handle (fun storage => storage) event (session.on session.storage.inner) = _ :=
    (hdialogue σ session.storage.inner).2
  have hrecorded : Session.handle (fun storage => storage) event session = _ :=
    (hdialogue (Recorder σ) session.storage).2
  obtain ⟨hanswer, hinner⟩ := dialogue_inner dialogue session.storage
  rw [hplain, hrecorded, hanswer]
  refine ⟨rfl, ?_⟩
  rw [← hinner]
  rfl

end Recorder

end RecordStore
