import RecordStore.Proofs.FlatFile
import RecordStore.Proofs.SessionsInUse

/-!
# Sessions that save

What writes the file header flushes the storage after it, so all that a cached file holds is on disk once that has
succeeded, whatever calls may fail (`Session.openOn_saved`, `Session.handle_saved`, `Session.close_closes`).
-/

namespace RecordStore

open Bytes StorageView

namespace CachedFile

/-- A flush that is answered leaves all on disk. -/
theorem flush_saved {storage : Unreliable CachedFile} (hready : storage.inner.Ready)
    (hok : ((PagedStorage.flush : StorageM (Unreliable CachedFile) Unit) storage).1 = .ok ()) :
    ((PagedStorage.flush : StorageM (Unreliable CachedFile) Unit) storage).2.inner.Saved := by
  obtain ⟨file', happly, hturns, hdisk⟩ := flush_turnsInto hready
  have hflush : ((PagedStorage.flush : StorageM (Unreliable CachedFile) Unit) storage).2.inner = file' :=
    (Unreliable.inner_of_ok hok).trans (congrArg Prod.snd happly)
  rw [hflush]
  exact ⟨hturns.ready.size.symm, fun i => (hdisk i).trans (congrArg (Image.byte · i) hturns.image).symm⟩

end CachedFile

namespace Session

open CachedFile (close_saved)

variable {inner : StorageContract CachedFile} {α β : Type} {before : Session Image}
  {session : Session (Unreliable CachedFile)}

/-- If `act` succeeds in a session that looks like `before`, all is on disk afterwards. -/
def Saves (inner : StorageContract CachedFile) (act : SessionM (Unreliable CachedFile) α) (before : Session Image) :
    Prop :=
  ∀ session, (Unreliable.contract inner).Usable session.storage →
    session.seen (Unreliable.contract inner).toStorageView = before → ∀ a, (act session).1 = .ok a →
      (act session).2.storage.inner.Saved

namespace Saves

theorem step {act : SessionM (Unreliable CachedFile) α} {next : α → SessionM (Unreliable CachedFile) β}
    (h : Performs (Unreliable.contract inner).toStorageView act before fun result after =>
      ∀ a, result = .ok a → Saves inner (next a) after) : Saves inner (act >>= next) before := by
  intro session husable hseen b hok
  obtain ⟨husable', hnext⟩ := h session husable hseen
  rw [bind_apply] at hok ⊢
  rcases hact : act session with ⟨e | a, session'⟩
  · rw [hact] at hok
    cases hok
  · rw [hact] at hok husable' hnext
    exact hnext a rfl session' husable' rfl b hok

theorem get_bind {next : Session (Unreliable CachedFile) → SessionM (Unreliable CachedFile) α}
    (h : ∀ session, session.seen (Unreliable.contract inner).toStorageView = before →
      Saves inner (next session) before) :
    Saves inner (get >>= next) before := fun session husable hseen => h session hseen session husable hseen

/-- What comes behind does not matter if it leaves the session alone. -/
theorem bind {act : SessionM (Unreliable CachedFile) α} (h : Saves inner act before)
    {next : α → SessionM (Unreliable CachedFile) β} (hnext : ∀ a session, (next a session).2 = session) :
    Saves inner (act >>= next) before := by
  intro session husable hseen b hok
  have hsaved := h session husable hseen
  rw [bind_apply] at hok ⊢
  rcases hact : act session with ⟨e | a, session'⟩
  · rw [hact] at hok
    cases hok
  · rw [hact] at hsaved
    change (next a session').2.storage.inner.Saved
    rw [hnext]
    exact hsaved a rfl

end Saves

private theorem ok_of_onSlots {act : StorageM (Unreliable CachedFile) α} {a : α}
    (h : (onSlots (SlotM.onStorage act) session).1 = .ok a) : (act session.storage).1 = .ok a := by
  change (act session.storage).1.mapError StoreError.io = .ok a at h
  rcases hrun : (act session.storage).1 with e | b
  · rw [hrun] at h
    cases h
  · rw [hrun] at h
    cases h
    rfl

/-! ### Flushes -/

section Flushes

variable (hready : ∀ file, inner.Usable file → file.Ready)

include hready

namespace Sound

theorem persist_saves (h : before.Sound) : Saves inner persist before := by
  unfold persist
  refine .step (writeHeader_writes before (Nat.le_trans h.fits.start h.fits.bound) ?_ nofun)
  rintro ⟨⟩ - session husable - ⟨⟩ hok
  exact CachedFile.flush_saved (hready _ husable.1) (ok_of_onSlots hok)

omit hready in
private theorem recount_bind_saves (h : before.Sound) {next : SessionM (Unreliable CachedFile) α}
    (hnext : ∀ after : Session Image, after.Sound → Saves inner next after) :
    Saves inner (do recount; next) before :=
  .step ((recount_sound h).mono fun _ after hafter _ _ => hnext after hafter.1)

private theorem flush_saves (h : before.Sound) : Saves inner flush before := by
  unfold flush
  exact .step (Performs.ensureOpen h.opened fun _ _ => h.persist_saves hready)

private theorem recover_saves (h : before.Sound) : Saves inner recover before := by
  unfold recover
  refine .step (Performs.ensureOpen h.opened fun _ _ => h.recount_bind_saves fun after hafter => ?_)
  exact (hafter.persist_saves hready).bind fun _ _ => rfl

private theorem start_saves (h : before.Sound) (recover : Bool) : Saves inner (start recover) before := by
  have hrest : ∀ after : Session Image, after.Sound → Saves inner (do
      modify fun session => { session with header := { session.header with status := .opened } }
      persist) after := fun after hafter =>
    .step (markOpened_performs fun _ _ => Sound.persist_saves hready ⟨hafter.opened, hafter.fits⟩)
  unfold start
  refine .get_bind fun actual _ => ?_
  cases !actual.wasClosedProperly && recover with
  | false => exact hrest before h
  | true => exact h.recount_bind_saves hrest

end Sound

theorem openOn_saved {storage : Unreliable CachedFile} (husable : (Unreliable.contract inner).Usable storage)
    {policy : CapacityPolicy} {options : Options} (hopen : openOn storage policy options = .ok session) :
    session.storage.inner.Saved := by
  have hload : (Unreliable.contract inner).Runs (loadHeader ((Unreliable.contract inner).image storage).pageSize) _ _ :=
    loadHeader_runs_raw _ _
  obtain ⟨husable', hfits⟩ := hload storage husable rfl
  have hattempt := openOn_attempt husable policy options
  rw [hopen] at hattempt
  cases hattempt with
  | opened hload hseen hstart =>
    rw [hload] at husable' hfits
    have hsound : (beginning _ policy options _ _).Sound := ⟨rfl, hfits _ rfl⟩
    have hsaved := hsound.start_saves hready options.recover _ husable' hseen
    rw [hstart] at hsaved
    exact hsaved () rfl

/-- An event that writes the file header leaves all on disk if it succeeds. -/
theorem handle_saved (husable : (Unreliable.contract inner).Usable session.storage)
    (h : (session.seen (Unreliable.contract inner).toStorageView).Sound) {event : Event} (hsyncs : event.Syncs)
    {reply : Reply} (hok : (handle (Unreliable.contract inner).reopen event session).1 = .ok reply) :
    (handle (Unreliable.contract inner).reopen event session).2.storage.inner.Saved := by
  cases event with
  | recover => exact (h.recover_saves hready).bind (fun _ _ => rfl) session husable rfl reply hok
  | count => exact absurd hsyncs id
  | request request =>
    cases request with
    | flush => exact (h.flush_saves hready).bind (fun _ _ => rfl) session husable rfl reply hok
    | _ => exact absurd hsyncs id
  | reopen policy options =>
    have hreopen := close_usable husable h
    change (renew (Unreliable.contract inner).reopen policy options session).1 = _ at hok
    change (renew (Unreliable.contract inner).reopen policy options session).2.storage.inner.Saved
    unfold renew at hok ⊢
    rcases hclose : close session with ⟨e | ⟨⟩, closed⟩
    · rw [hclose] at hok
      cases hok
    · rw [hclose] at hok hreopen
      dsimp only at hok hreopen ⊢
      rcases hopen : openOn ((Unreliable.contract inner).reopen closed.storage) policy options with
        ⟨e, storage⟩ | session'
      · rw [hopen] at hok
        cases hok
      · exact openOn_saved hready (hreopen rfl) hopen

end Flushes

/-! ### Releases -/

/-- A storage that cannot be released stays as it is.  Of one that can, all that it holds is on disk. -/
theorem release_cases {storage : Unreliable CachedFile} (hready : storage.inner.Ready) :
    (∃ cause, ((PagedStorage.close : StorageM (Unreliable CachedFile) Unit) storage).1 = .error cause) ∧
        (release storage).inner = storage.inner ∨
      ((PagedStorage.close : StorageM (Unreliable CachedFile) Unit) storage).1 = .ok () ∧
        (release storage).inner.Saved ∧ (release storage).inner.image = storage.inner.image := by
  obtain ⟨faults, -, hlogged⟩ :=
    Unreliable.logged_apply .close 0 0 (Unreliable.guarded .close none (PagedStorage.close : StorageM CachedFile Unit))
      storage
  have happly : (PagedStorage.close : StorageM (Unreliable CachedFile) Unit) storage = _ := hlogged
  unfold release
  rw [happly]
  obtain ⟨faults, -, hguarded | hguarded⟩ :=
    Unreliable.guarded_cases .close none (PagedStorage.close : StorageM CachedFile Unit) storage
  · rw [hguarded]
    exact .inl ⟨⟨_, rfl⟩, rfl⟩
  · obtain ⟨file', hclose, -, -, hsaved, himage⟩ := close_saved hready
    rw [hguarded, hclose]
    exact .inr ⟨rfl, hsaved, himage⟩

/-- How closing ends: with the header written and all on disk, or with an error.  If the storage could be released all
the same, the header could not be written, and what was in the file before is on disk. -/
inductive Closes (session : Session (Unreliable CachedFile)) (written : Unreliable CachedFile) :
    Except StoreError Unit × CachedFile → Prop
  | done {file : CachedFile} (hwrite : (writeHeader (marked session)).1 = .ok ()) (hsaved : file.Saved)
      (himage : file.image = written.inner.image) : Closes session written (.ok (), file)
  | kept (e : StoreError) : Closes session written (.error e, written.inner)
  | unwritten {e e' : StoreError} {file : CachedFile} (hwrite : (writeHeader (marked session)).1 = .error e)
      (hsaved : file.Saved) (himage : file.image = written.inner.image) : Closes session written (.error e', file)

theorem close_closes (hopened : session.closed = false)
    (hready : (writeHeader (marked session)).2.storage.inner.Ready) :
    Closes session (writeHeader (marked session)).2.storage ((close session).1, (close session).2.storage.inner) := by
  have hrelease := release_cases hready
  rw [close_apply hopened]
  rcases hwrite : writeHeader (marked session) with ⟨e | ⟨⟩, written⟩
  · rw [hwrite] at hrelease
    dsimp only at hrelease ⊢
    rcases hrelease with ⟨-, hsame⟩ | ⟨-, hsaved, himage⟩
    · rw [hsame]
      exact .kept e
    · exact .unwritten (congrArg Prod.fst hwrite) hsaved himage
  · rw [hwrite] at hrelease
    dsimp only at hrelease ⊢
    rw [release_apply]
    rcases hrelease with ⟨⟨cause, hfailed⟩, hsame⟩ | ⟨hok, hsaved, himage⟩
    · rw [hfailed]
      dsimp only
      rw [hsame]
      exact .kept _
    · rw [hok]
      exact .done (congrArg Prod.fst hwrite) hsaved himage

end Session

end RecordStore
