import RecordStore.Proofs.Contract
import RecordStore.Storage.Unreliable

/-!
# Storages that keep the contract

Bytes in memory do, and no call on them fails.  An unreliable storage does over every storage that does, whatever its
plan, so that all patterns of failing calls are patterns that the contract allows.  If its plan lets all calls pass, it
fails none that the storage behind does not fail.
-/

namespace RecordStore

open StorageView

/-! ### Bytes in memory -/

structure Memory where
  image : Image

namespace Memory

/-- The size in whole pages that has room for `target` bytes. -/
def roomFor (img : Image) (target : Nat) : Nat :=
  max img.size ((target + img.pageSize - 1) / img.pageSize * img.pageSize)

instance : PagedStorage Memory where
  pageSize storage := storage.image.pageSize
  read offset length := fun storage =>
    if storage.image.size < offset + length then (.error (.outOfBounds offset length storage.image.size), storage)
    else (.ok (storage.image.read offset length), storage)
  write offset data := fun storage =>
    if storage.image.size < offset + data.size then (.error (.outOfBounds offset data.size storage.image.size), storage)
    else (.ok (), { image := storage.image.write offset data })
  size := fun storage => (.ok storage.image.size, storage)
  grow target := fun storage => (.ok (), { image := { storage.image with size := roomFor storage.image target } })
  flush := fun storage => (.ok (), storage)
  close := fun storage => (.ok (), storage)

/-- A storage of zeros. -/
def zeros (pageSize size : Nat) : Memory := { image := { pageSize, size, byte := fun _ => 0 } }

/-- A storage with these bytes in front and zeros behind them. -/
def holding (pageSize size : Nat) (bytes : List UInt8) : Memory :=
  { image := { pageSize, size, byte := fun i => bytes.getD i 0 } }

def Usable (storage : Memory) : Prop := storage.image.WellFormed ∧ 0 < storage.image.pageSize

theorem usable_holding {pageSize size : Nat} {bytes : List UInt8} (hpos : 0 < pageSize) (hsize : size % pageSize = 0)
    (hlength : bytes.length ≤ size) : (holding pageSize size bytes).Usable :=
  ⟨⟨hsize, fun i hi => by
    change bytes.getD i 0 = 0
    rw [List.getD_eq_getElem?_getD, List.getElem?_eq_none (Nat.le_trans hlength hi)]
    rfl⟩, hpos⟩

theorem usable_zeros {pageSize size : Nat} (hpos : 0 < pageSize) (hsize : size % pageSize = 0) :
    (zeros pageSize size).Usable := ⟨⟨hsize, fun _ _ => rfl⟩, hpos⟩

private theorem roomFor_mod {img : Image} (h : img.WellFormed) (target : Nat) :
    roomFor img target % img.pageSize = 0 := by
  unfold roomFor
  rcases Nat.le_total img.size ((target + img.pageSize - 1) / img.pageSize * img.pageSize) with hle | hle
  · rw [Nat.max_eq_right hle]
    exact Nat.mul_mod_left _ _
  · rw [Nat.max_eq_left hle]
    exact h.pages

private theorem le_roomFor {img : Image} (hpos : 0 < img.pageSize) (target : Nat) : target ≤ roomFor img target := by
  refine Nat.le_trans ?_ (Nat.le_max_right _ _)
  have hdiv := Nat.div_add_mod (target + img.pageSize - 1) img.pageSize
  have hmod := Nat.mod_lt (target + img.pageSize - 1) hpos
  rw [Nat.mul_comm]
  omega

/-- Memory keeps the contract, and no call on it fails. -/
def contract : StorageContract Memory where
  image := Memory.image
  Usable := Usable
  fallible := False
  reopen := id
  wellFormed h := h.1
  pageSize_eq _ := rfl
  read {storage offset length} h hbound := by
    have happly : (PagedStorage.read offset length : StorageM Memory ByteArray) storage =
        (.ok (storage.image.read offset length), storage) := if_neg (Nat.not_lt.2 hbound)
    unfold Serves
    rw [happly]
    exact ⟨h, rfl, rfl⟩
  write {storage offset data} h hbound := by
    have happly : (PagedStorage.write offset data : StorageM Memory Unit) storage =
        (.ok (), { image := storage.image.write offset data }) := if_neg (Nat.not_lt.2 hbound)
    unfold Serves
    rw [happly]
    refine ⟨⟨⟨h.1.pages, fun i hi => ?_⟩, h.2⟩, rfl⟩
    have hpast : storage.image.size ≤ i := hi
    exact (storage.image.byte_write_of_le data (by omega)).trans (h.1.blank_past_end i hpast)
  size h := ⟨h, rfl, rfl⟩
  grow {storage target} h _ := by
    refine ⟨⟨⟨roomFor_mod h.1 target, fun i hi => ?_⟩, h.2⟩, rfl, le_roomFor h.2 target, Nat.le_max_left _ _⟩
    exact h.1.blank_past_end i (Nat.le_trans (Nat.le_max_left _ _) hi)
  flush h := ⟨h, rfl⟩
  close h := ⟨rfl, h, rfl⟩

end Memory

/-! ### Unreliable storages -/

/-- A plan that only lets calls through or fails them. -/
def FaultPlan.Plain (plan : FaultPlan) : Prop := ∀ before call offset value, plan before call offset ≠ .answer value

namespace Unreliable

variable {σ α β : Type}

private theorem decide_cases (call : StorageCall) (offset : Option Nat) (storage : Unreliable σ) :
    ∃ verdict faults, decide call offset storage = (.ok verdict, { storage with faults }) ∧
      faults.plan = storage.faults.plan ∧ (storage.faults.plan.Plain → ∀ value, verdict ≠ .answer value) := by
  have happly : decide call offset storage =
      (if storage.lost then (pure .fail : StorageM (Unreliable σ) Verdict) else do
        let decided := storage.faults.decide call offset
        set { storage with faults := decided.2 }
        return decided.1) storage := rfl
  rw [happly]
  by_cases hlost : storage.lost
  · rw [if_pos hlost]
    exact ⟨.fail, storage.faults, rfl, rfl, fun _ value => by simp⟩
  · rw [if_neg hlost]
    exact ⟨_, _, rfl, rfl, fun hplain => hplain _ _ _⟩

/-- A call fails without reaching the storage behind, or does what it does there. -/
theorem guarded_cases (call : StorageCall) (offset : Option Nat) (act : StorageM σ α) (storage : Unreliable σ) :
    ∃ faults, faults.plan = storage.faults.plan ∧
      (guarded call offset act storage = (.error (.io (.injected call)), { storage with faults }) ∨
        guarded call offset act storage =
          ((act storage.inner).1, { storage with faults, inner := (act storage.inner).2 })) := by
  obtain ⟨verdict, faults, hdecide, hplan, -⟩ := decide_cases call offset storage
  refine ⟨faults, hplan, ?_⟩
  unfold guarded
  rw [bind_apply, hdecide]
  cases verdict with
  | fail => exact .inl rfl
  | proceed => exact .inr rfl
  | answer value => exact .inr rfl

theorem logged_apply (call : StorageCall) (target length : Nat) (act : StorageM (Unreliable σ) α)
    (storage : Unreliable σ) : ∃ faults, faults.plan = (act storage).2.faults.plan ∧
      logged call target length act storage = ((act storage).1, { (act storage).2 with faults }) := by
  unfold logged
  rcases act storage with ⟨result, storage'⟩
  dsimp only
  by_cases hlost : storage'.lost
  · rw [if_pos hlost]
    exact ⟨storage'.faults, rfl, rfl⟩
  · rw [if_neg hlost]
    refine ⟨_, ?_, rfl⟩
    rfl

/-- An unreliable storage looks like the one behind it, and its calls may fail. -/
def view (inner : StorageView σ) : StorageView (Unreliable σ) where
  image storage := inner.image storage.inner
  Usable storage := inner.Usable storage.inner ∧ storage.reported = none ∧ storage.faults.plan.Plain
  fallible := True

variable {inner : StorageView σ} {storage : Unreliable σ} {post : α → Image → Prop}

private theorem guarded_serves {act : StorageM σ α} (husable : (view inner).Usable storage)
    (h : inner.Serves act storage.inner post) (call : StorageCall) (offset : Option Nat) :
    (view inner).Serves (guarded call offset act) storage post := by
  obtain ⟨hinner, hreported, hplain⟩ := husable
  obtain ⟨faults, hplan, happly | happly⟩ := guarded_cases call offset act storage
  · unfold Serves
    rw [happly]
    exact ⟨⟨hinner, hreported, hplan ▸ hplain⟩, trivial, rfl⟩
  · unfold Serves
    rw [happly]
    refine ⟨⟨h.1, hreported, hplan ▸ hplain⟩, ?_⟩
    have hpost := h.2
    dsimp only
    cases hresult : (act storage.inner).1 with
    | error e =>
      rw [hresult] at hpost
      exact ⟨trivial, hpost.2⟩
    | ok answer =>
      rw [hresult] at hpost
      exact hpost

private theorem logged_serves {act : StorageM (Unreliable σ) α} (h : (view inner).Serves act storage post)
    (call : StorageCall) (target length : Nat) : (view inner).Serves (logged call target length act) storage post := by
  obtain ⟨faults, hplan, happly⟩ := logged_apply call target length act storage
  obtain ⟨⟨hinner, hreported, hplain⟩, hpost⟩ := h
  unfold Serves
  rw [happly]
  exact ⟨⟨hinner, hreported, hplan ▸ hplain⟩, hpost⟩

variable [PagedStorage σ]

theorem size_apply (hplain : storage.faults.plan.Plain) :
    (PagedStorage.size : StorageM (Unreliable σ) Nat) storage = guarded .size none PagedStorage.size storage := by
  obtain ⟨verdict, faults, hdecide, -, hverdict⟩ := decide_cases .size none storage
  unfold guarded PagedStorage.size instPagedStorage
  dsimp only
  rw [bind_apply, bind_apply, hdecide]
  cases verdict with
  | fail => rfl
  | proceed => rfl
  | answer value => exact absurd rfl (hverdict hplain value)

/-- An unreliable storage keeps the contract that the storage behind it keeps. -/
def contract (inner : StorageContract σ) : StorageContract (Unreliable σ) where
  toStorageView := view inner.toStorageView
  reopen storage := { storage with inner := inner.reopen storage.inner }
  wellFormed h := inner.wellFormed h.1
  pageSize_eq {storage} h := by
    change storage.reported.getD (PagedStorage.pageSize storage.inner) = _
    rw [h.2.1]
    exact inner.pageSize_eq h.1
  read h hbound := guarded_serves h (inner.read h.1 hbound) _ _
  write h hbound := logged_serves (guarded_serves h (inner.write h.1 hbound) _ _) _ _ _
  size h := by
    have hserves := guarded_serves h (inner.size h.1) .size none
    unfold Serves at hserves ⊢
    rw [size_apply h.2.2]
    exact hserves
  grow h hreach := logged_serves (guarded_serves h (inner.grow h.1 hreach) _ _) _ _ _
  flush h := logged_serves (guarded_serves h (inner.flush h.1) _ _) _ _ _
  close {storage} h := by
    obtain ⟨faults', hplan', happly'⟩ := logged_apply .close 0 0 (guarded .close none PagedStorage.close) storage
    have hclose : (PagedStorage.close : StorageM (Unreliable σ) Unit) storage =
      logged .close 0 0 (guarded .close none PagedStorage.close) storage := rfl
    obtain ⟨himage, hreopen⟩ := inner.close h.1
    rw [hclose, happly']
    obtain ⟨faults, hplan, happly | happly⟩ := guarded_cases .close none (PagedStorage.close : StorageM σ Unit) storage
    · rw [happly]
      exact ⟨rfl, trivial⟩
    · rw [happly] at hplan' ⊢
      refine ⟨himage, ?_⟩
      rcases hresult : (PagedStorage.close : StorageM σ Unit) storage.inner with ⟨e | ⟨⟩, after⟩
      · exact trivial
      · rw [hresult] at hreopen
        exact ⟨⟨hreopen.1, h.2.1, by rw [hplan', hplan]; exact h.2.2⟩, hreopen.2⟩

/-! ### Calm storages -/

/-- No call fails that the storage behind does not fail. -/
structure Calm (storage : Unreliable σ) : Prop where
  reported : storage.reported = none
  plan : storage.faults.plan = .allPass
  kept : storage.lost = false

omit [PagedStorage σ] in
theorem Calm.plain (h : storage.Calm) : storage.faults.plan.Plain := by
  rw [h.plan]
  exact fun _ _ _ _ => nofun

omit [PagedStorage σ] in
private theorem guarded_of_calm (h : storage.Calm) (call : StorageCall) (offset : Option Nat) (act : StorageM σ α) :
    ∃ faults, faults.plan = .allPass ∧ guarded call offset act storage =
      ((act storage.inner).1, { storage with faults, inner := (act storage.inner).2 }) := by
  obtain ⟨storage, reported, ⟨plan, decided, log⟩, lost⟩ := storage
  obtain ⟨-, rfl, rfl⟩ := h
  exact ⟨⟨.allPass, call :: decided, log⟩, rfl, rfl⟩

/-- A calm storage looks like the one behind it. -/
def calmView (inner : StorageView σ) : StorageView (Unreliable σ) where
  image storage := inner.image storage.inner
  Usable storage := inner.Usable storage.inner ∧ storage.Calm
  fallible := inner.fallible

omit [PagedStorage σ] in
private theorem guarded_serves_calm {act : StorageM σ α} (h : storage.Calm) (hserves : inner.Serves act storage.inner post)
    (call : StorageCall) (offset : Option Nat) : (calmView inner).Serves (guarded call offset act) storage post := by
  obtain ⟨faults, hplan, happly⟩ := guarded_of_calm h call offset act
  unfold Serves
  rw [happly]
  exact ⟨⟨hserves.1, h.reported, hplan, h.kept⟩, hserves.2⟩

omit [PagedStorage σ] in
private theorem logged_serves_calm {act : StorageM (Unreliable σ) α} (h : (calmView inner).Serves act storage post)
    (call : StorageCall) (target length : Nat) :
    (calmView inner).Serves (logged call target length act) storage post := by
  obtain ⟨faults, hplan, happly⟩ := logged_apply call target length act storage
  obtain ⟨⟨hinner, hcalm⟩, hpost⟩ := h
  unfold Serves
  rw [happly]
  exact ⟨⟨hinner, hcalm.reported, hplan.trans hcalm.plan, hcalm.kept⟩, hpost⟩

/-- A calm storage keeps the contract that the storage behind it keeps, and fails no call that this one does not. -/
def calmContract (inner : StorageContract σ) : StorageContract (Unreliable σ) where
  toStorageView := calmView inner.toStorageView
  reopen storage := { storage with inner := inner.reopen storage.inner }
  wellFormed h := inner.wellFormed h.1
  pageSize_eq {storage} h := by
    change storage.reported.getD (PagedStorage.pageSize storage.inner) = _
    rw [h.2.reported]
    exact inner.pageSize_eq h.1
  read h hbound := guarded_serves_calm h.2 (inner.read h.1 hbound) _ _
  write h hbound := logged_serves_calm (guarded_serves_calm h.2 (inner.write h.1 hbound) _ _) _ _ _
  size {storage} h := by
    have hserves := guarded_serves_calm h.2 (inner.size h.1) .size none
    unfold Serves at hserves ⊢
    rw [size_apply h.2.plain]
    exact hserves
  grow h hreach := logged_serves_calm (guarded_serves_calm h.2 (inner.grow h.1 hreach) _ _) _ _ _
  flush h := logged_serves_calm (guarded_serves_calm h.2 (inner.flush h.1) _ _) _ _ _
  close {storage} h := by
    obtain ⟨faults', hplan', happly'⟩ := logged_apply .close 0 0 (guarded .close none PagedStorage.close) storage
    have hclose : (PagedStorage.close : StorageM (Unreliable σ) Unit) storage =
      logged .close 0 0 (guarded .close none PagedStorage.close) storage := rfl
    obtain ⟨himage, hreopen⟩ := inner.close h.1
    obtain ⟨faults, hplan, happly⟩ := guarded_of_calm h.2 .close none (PagedStorage.close : StorageM σ Unit)
    rw [hclose, happly']
    rw [happly] at hplan' ⊢
    refine ⟨himage, ?_⟩
    rcases hresult : (PagedStorage.close : StorageM σ Unit) storage.inner with ⟨e | ⟨⟩, after⟩
    · rw [hresult] at hreopen
      exact hreopen
    · rw [hresult] at hreopen
      exact ⟨⟨hreopen.1, h.2.reported, hplan'.trans hplan, h.2.kept⟩, hreopen.2⟩

end Unreliable

end RecordStore
