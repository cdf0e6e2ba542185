import RecordStore.Proofs.Uniform

/-!
# Events in which no call fails

An unreliable storage whose reads do not fail writes down every call that fails.  As long as it has written down none, it
does what the storage behind it does (`Dialogue.run_tells`), so that an event in which no call failed ends as it would
on a storage that does not fail (`Session.handle_calm`).
-/

namespace RecordStore

variable {σ α : Type}

namespace Unreliable

/-- How many failed calls were written down. -/
def failures (storage : Unreliable σ) : Nat := (storage.faults.log.filter (·.failed)).length

/-- The storage is not lost, and its reads do not fail. -/
structure Readable (storage : Unreliable σ) : Prop where
  kept : storage.lost = false
  read : ∀ before offset, storage.faults.plan before .read offset = .proceed
  size : ∀ before offset, storage.faults.plan before .size offset = .proceed

/-- The call does what `act` does behind it, or else it is written down as failed. -/
structure Tells (storage : Unreliable σ) (call : StorageM (Unreliable σ) α) (act : StorageM σ α) : Prop where
  readable : (call storage).2.Readable
  failures_le : storage.failures ≤ (call storage).2.failures
  calm : (call storage).2.failures = storage.failures →
    (call storage).1 = (act storage.inner).1 ∧ (call storage).2.inner = (act storage.inner).2

variable {storage : Unreliable σ}

private theorem decide_of_kept (h : storage.lost = false) (call : StorageCall) (offset : Option Nat) :
    decide call offset storage = (.ok (storage.faults.plan storage.faults.decided call offset),
      { storage with faults := (storage.faults.decide call offset).2 }) := by
  change (if storage.lost then (pure .fail : StorageM (Unreliable σ) Verdict) else do
    let decided := storage.faults.decide call offset
    set { storage with faults := decided.2 }
    return decided.1) storage = _
  rw [h]
  rfl

private theorem guarded_of_fail (h : storage.lost = false) {call : StorageCall} {offset : Option Nat}
    (hplan : storage.faults.plan storage.faults.decided call offset = .fail) (act : StorageM σ α) :
    guarded call offset act storage =
      (.error (.io (.injected call)), { storage with faults := (storage.faults.decide call offset).2 }) := by
  unfold guarded
  rw [bind_apply, decide_of_kept h, hplan]
  rfl

private theorem guarded_of_pass (h : storage.lost = false) {call : StorageCall} {offset : Option Nat}
    (hplan : storage.faults.plan storage.faults.decided call offset ≠ .fail) (act : StorageM σ α) :
    guarded call offset act storage = ((act storage.inner).1,
      { storage with faults := (storage.faults.decide call offset).2, inner := (act storage.inner).2 }) := by
  unfold guarded
  rw [bind_apply, decide_of_kept h]
  cases hverdict : storage.faults.plan storage.faults.decided call offset with
  | fail => exact absurd hverdict hplan
  | proceed => rfl
  | answer value => rfl

/-- A read is answered as behind. -/
private theorem guarded_tells (h : storage.Readable) {call : StorageCall} {offset : Option Nat}
    (hplan : ∀ before, storage.faults.plan before call offset = .proceed) (act : StorageM σ α) :
    storage.Tells (guarded call offset act) act := by
  have happly := guarded_of_pass h.kept (show _ ≠ _ by rw [hplan]; nofun) act
  constructor
  · rw [happly]
    exact ⟨h.kept, h.read, h.size⟩
  · rw [happly]
    exact Nat.le_refl _
  · intro _
    rw [happly]
    exact ⟨rfl, rfl⟩

private theorem logged_of_kept {call : StorageCall} {act : StorageM (Unreliable σ) α}
    (h : (act storage).2.lost = false) (target length : Nat) : logged call target length act storage =
      ((act storage).1, { (act storage).2 with
        faults := { (act storage).2.faults with
          log := { call, target, length, failed := !(act storage).1.isOk } :: (act storage).2.faults.log } }) := by
  unfold logged
  rcases hact : act storage with ⟨result, after⟩
  rw [hact] at h
  dsimp only at h ⊢
  rw [h]
  cases result <;> rfl

/-- A call that fails is written down. -/
private theorem logged_tells (h : storage.Readable) (call : StorageCall) (offset : Option Nat) (target length : Nat)
    (act : StorageM σ α) : storage.Tells (logged call target length (guarded call offset act)) act := by
  by_cases hplan : storage.faults.plan storage.faults.decided call offset = .fail
  · have happly := guarded_of_fail h.kept hplan act
    have hlogged := @logged_of_kept _ _ storage call (guarded call offset act) (by rw [happly]; exact h.kept) target length
    rw [happly] at hlogged
    have hfailures : (logged call target length (guarded call offset act) storage).2.failures = storage.failures + 1 := by
      rw [hlogged]
      rfl
    constructor
    · rw [hlogged]
      exact ⟨h.kept, h.read, h.size⟩
    · omega
    · intro hcalm
      omega
  · have happly := guarded_of_pass h.kept hplan act
    have hlogged := @logged_of_kept _ _ storage call (guarded call offset act) (by rw [happly]; exact h.kept) target length
    rw [happly] at hlogged
    constructor
    · rw [hlogged]
      exact ⟨h.kept, h.read, h.size⟩
    · rw [hlogged]
      unfold failures
      dsimp only
      rw [List.filter_cons]
      split
      · exact Nat.le_succ _
      · exact Nat.le_refl _
    · intro _
      rw [hlogged]
      exact ⟨rfl, rfl⟩

variable [PagedStorage σ]

theorem read_eq (h : storage.Readable) (offset length : Nat) :
    (PagedStorage.read offset length storage).1 = (PagedStorage.read offset length storage.inner).1 :=
  congrArg Prod.fst (guarded_of_pass h.kept (show _ ≠ _ by rw [h.read]; nofun) (PagedStorage.read offset length))

/-- Every call does what it does behind, or else it is written down as failed. -/
theorem run_tells (h : storage.Readable) (call : SlotCall) : storage.Tells call.run call.run := by
  cases call with
  | read offset length => exact guarded_tells h (fun before => h.read before _) (PagedStorage.read offset length)
  | write offset data =>
    exact logged_tells h .write (some offset) offset data.size (PagedStorage.write offset data)
  | size =>
    have happly : (PagedStorage.size : StorageM (Unreliable σ) Nat) storage =
        guarded .size none PagedStorage.size storage := by
      have hproceed := h.size storage.faults.decided none
      rw [guarded_of_pass h.kept (by rw [hproceed]; nofun)]
      unfold PagedStorage.size instPagedStorage
      dsimp only
      rw [bind_apply, decide_of_kept h.kept, hproceed]
      rfl
    obtain ⟨hreadable, hle, hcalm⟩ :=
      guarded_tells h (fun before => h.size before none) (PagedStorage.size : StorageM σ Nat)
    rw [← happly] at hreadable hle hcalm
    exact ⟨hreadable, hle, hcalm⟩
  | grow target hreach => exact logged_tells h .grow (some target) target 0 (PagedStorage.grow target)
  | flush => exact logged_tells h .flush none 0 0 PagedStorage.flush

private theorem readable_close (h : storage.Readable) :
    ((PagedStorage.close : StorageM (Unreliable σ) Unit) storage).2.Readable :=
  (logged_tells h .close none 0 0 (PagedStorage.close : StorageM σ Unit)).readable

/-- The contract of unreliable storages whose reads do not fail. -/
def readableContract (inner : StorageContract σ) : StorageContract (Unreliable σ) where
  image := (contract inner).image
  Usable storage := (contract inner).Usable storage ∧ storage.Readable
  fallible := True
  reopen := (contract inner).reopen
  wellFormed h := (contract inner).wellFormed h.1
  pageSize_eq h := (contract inner).pageSize_eq h.1
  read {_ offset length} h hbound := by
    obtain ⟨husable, hpost⟩ := (contract inner).read h.1 hbound
    exact ⟨⟨husable, (run_tells h.2 (.read offset length)).readable⟩, hpost⟩
  write {_ offset data} h hbound := by
    obtain ⟨husable, hpost⟩ := (contract inner).write h.1 hbound
    exact ⟨⟨husable, (run_tells h.2 (.write offset data)).readable⟩, hpost⟩
  size h := by
    obtain ⟨husable, hpost⟩ := (contract inner).size h.1
    exact ⟨⟨husable, (run_tells h.2 .size).readable⟩, hpost⟩
  grow {_ target} h hreach := by
    obtain ⟨husable, hpost⟩ := (contract inner).grow h.1 hreach
    exact ⟨⟨husable, (run_tells h.2 (.grow target hreach)).readable⟩, hpost⟩
  flush h := by
    obtain ⟨husable, hpost⟩ := (contract inner).flush h.1
    exact ⟨⟨husable, (run_tells h.2 .flush).readable⟩, hpost⟩
  close {storage} h := by
    obtain ⟨himage, hreopen⟩ := (contract inner).close h.1
    have hreadable := readable_close h.2
    refine ⟨himage, ?_⟩
    rcases hclose : (PagedStorage.close : StorageM (Unreliable σ) Unit) storage with ⟨e | ⟨⟩, after⟩
    · trivial
    · rw [hclose] at hreopen hreadable
      exact ⟨⟨hreopen.1, hreadable.kept, hreadable.read, hreadable.size⟩, hreopen.2⟩

end Unreliable

/-- A dialogue in which no call fails is had as with the storage behind. -/
theorem Dialogue.run_tells [PagedStorage σ] (dialogue : Dialogue α) {storage : Unreliable σ} (h : storage.Readable) :
    storage.failures ≤ (dialogue.run storage).2.failures ∧
      ((dialogue.run storage).2.failures = storage.failures →
        (dialogue.run storage).1 = (dialogue.run storage.inner).1 ∧
          (dialogue.run storage).2.inner = (dialogue.run storage.inner).2) := by
  induction dialogue generalizing storage with
  | done result => exact ⟨Nat.le_refl _, fun _ => ⟨rfl, rfl⟩⟩
  | ask call next ih =>
    have htells := Unreliable.run_tells h call
    obtain ⟨hle, hcalm⟩ := ih (call.run storage).1 htells.readable
    have hle' := htells.failures_le
    refine ⟨Nat.le_trans hle' hle, fun hsame => ?_⟩
    change ((next (call.run storage).1).run (call.run storage).2).2.failures = storage.failures at hsame
    obtain ⟨hresult, hinner⟩ := hcalm (by omega)
    obtain ⟨hanswer, hbehind⟩ := htells.calm (by omega)
    change ((next (call.run storage).1).run (call.run storage).2).1 =
        ((next (call.run storage.inner).1).run (call.run storage.inner).2).1 ∧
      ((next (call.run storage).1).run (call.run storage).2).2.inner =
        ((next (call.run storage.inner).1).run (call.run storage.inner).2).2
    rw [hresult, hinner, hanswer, hbehind]
    exact ⟨rfl, rfl⟩

namespace Session

variable [PagedStorage σ] {session : Session (Unreliable σ)} {event : Event}

/-- The session as it would be on the storage behind. -/
def behind (session : Session (Unreliable σ)) : Session σ := session.on session.storage.inner

/-- An event in which no call failed ends as it would on the storage behind. -/
theorem handle_calm (h : session.storage.Readable) (hfits : session.pageSize < 2 ^ 32)
    (hreopen : ∀ policy options, event ≠ .reopen policy options) (reopen : Unreliable σ → Unreliable σ)
    (reopen' : σ → σ)
    (hcalm : (handle reopen event session).2.storage.failures ≤ session.storage.failures) :
    handle reopen' event session.behind =
      ((handle reopen event session).1, (handle reopen event session).2.behind) := by
  have hfits' : (session.on ()).pageSize < 2 ^ 32 := hfits
  obtain ⟨dialogue, hdialogue⟩ := handle_uniform hfits' hreopen
  have hunreliable := (hdialogue (Unreliable σ) session.storage).2
  have hbehind := (hdialogue σ session.storage.inner).2
  change handle (fun storage => storage) event session = _ at hunreliable
  change handle (fun storage => storage) event session.behind = _ at hbehind
  rw [handle_congr reopen (fun storage => storage) hreopen, hunreliable] at hcalm ⊢
  rw [handle_congr reopen' (fun storage => storage) hreopen, hbehind]
  obtain ⟨hle, hsame⟩ := dialogue.run_tells h
  obtain ⟨hresult, hinner⟩ := hsame (Nat.le_antisymm hcalm hle)
  rw [← hresult, ← hinner]
  rfl

end Session

end RecordStore
