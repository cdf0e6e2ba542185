import Mathlib.Algebra.Group.Nat.Defs
import RecordStore.Proofs.Image
import RecordStore.Region.Basic

/-!
# The contract of byte storages

What the layers above may rely on, stated through the image of a storage: a call inside the storage does what its
name says or, on a fallible storage, fails and leaves the image as it was.  `Runs` carries this over to work on slots:
it says what holds of the result and the image whatever calls fail on the way, and has one rule for each way in which
such work is put together.
-/

namespace RecordStore

/-- How a storage is looked at: what it holds, whether it is in use, and whether its calls may fail. -/
structure StorageView (σ : Type) where
  image : σ → Image
  Usable : σ → Prop
  fallible : Prop

/-- A call does what `post` says of its answer and the image after it, or fails without effect. -/
def StorageView.Serves {σ α : Type} (view : StorageView σ) (act : StorageM σ α) (storage : σ)
    (post : α → Image → Prop) : Prop :=
  view.Usable (act storage).2 ∧
    match (act storage).1 with
    | .ok answer => post answer (view.image (act storage).2)
    | .error _ => view.fallible ∧ view.image (act storage).2 = view.image storage

/-- No storage is asked to grow beyond this: the last slot starts below 2^35 and ends with its page. -/
def reach : Nat := 2 ^ 35 + 2 ^ 32

structure StorageContract (σ : Type) [PagedStorage σ] extends StorageView σ where
  /-- The storage found when the place of a storage that was closed is opened again. -/
  reopen : σ → σ
  wellFormed : ∀ {storage}, Usable storage → (image storage).WellFormed
  pageSize_eq : ∀ {storage}, Usable storage → PagedStorage.pageSize storage = (image storage).pageSize
  read : ∀ {storage offset length}, Usable storage → offset + length ≤ (image storage).size →
    toStorageView.Serves (PagedStorage.read offset length) storage fun bytes after =>
      bytes = (image storage).read offset length ∧ after = image storage
  write : ∀ {storage offset data}, Usable storage → offset + data.size ≤ (image storage).size →
    toStorageView.Serves (PagedStorage.write offset data) storage fun _ after =>
      after = (image storage).write offset data
  size : ∀ {storage}, Usable storage →
    toStorageView.Serves PagedStorage.size storage fun size after =>
      size = (image storage).size ∧ after = image storage
  grow : ∀ {storage target}, Usable storage → target ≤ reach →
    toStorageView.Serves (PagedStorage.grow target) storage fun _ after =>
      after = { image storage with size := after.size } ∧ target ≤ after.size ∧ (image storage).size ≤ after.size
  flush : ∀ {storage}, Usable storage →
    toStorageView.Serves PagedStorage.flush storage fun _ after => after = image storage
  close : ∀ {storage}, Usable storage →
    image ((PagedStorage.close : StorageM σ Unit) storage).2 = image storage ∧
      match (PagedStorage.close : StorageM σ Unit) storage with
      | (.ok (), after) => Usable (reopen after) ∧ image (reopen after) = image storage
      | (.error _, _) => fallible

/-! ### Work on slots -/

namespace SlotM

variable {σ α β : Type}

theorem onStorage_apply (act : StorageM σ α) (storage : σ) :
    onStorage act storage = ((act storage).1.mapError StoreError.io, (act storage).2) := rfl

end SlotM

namespace StorageView

variable {σ α β : Type} (view : StorageView σ)

/-- `act`, started on a storage with the image `img`, ends with a result and an image as `post` says. -/
def Runs (act : SlotM σ α) (img : Image) (post : Except StoreError α → Image → Prop) : Prop :=
  ∀ storage, view.Usable storage → view.image storage = img →
    view.Usable (act storage).2 ∧ post (act storage).1 (view.image (act storage).2)

/-- `act` changes nothing and has the result `result`, unless a call fails on the way. -/
def Answers (act : SlotM σ α) (img : Image) (result : Except StoreError α) : Prop :=
  view.Runs act img fun result' after =>
    after = img ∧ (result' = result ∨ view.fallible ∧ ∃ cause, result' = .error (.io cause))

variable {view} {img : Image}

theorem Runs.mono {act : SlotM σ α} {post post' : Except StoreError α → Image → Prop} (h : view.Runs act img post)
    (himp : ∀ result after, post result after → post' result after) : view.Runs act img post' :=
  fun storage husable himg => ⟨(h storage husable himg).1, himp _ _ (h storage husable himg).2⟩

theorem Runs.pure {a : α} {post : Except StoreError α → Image → Prop} (h : post (.ok a) img) :
    view.Runs (Pure.pure a) img post := by
  rintro storage husable rfl
  exact ⟨husable, h⟩

theorem Runs.throw {e : StoreError} {post : Except StoreError α → Image → Prop} (h : post (.error e) img) :
    view.Runs (MonadExcept.throw e) img post := by
  rintro storage husable rfl
  exact ⟨husable, h⟩

theorem Runs.bind {act : SlotM σ α} {next : α → SlotM σ β} {mid : Except StoreError α → Image → Prop}
    {post : Except StoreError β → Image → Prop} (h : view.Runs act img mid)
    (hok : ∀ a after, mid (.ok a) after → view.Runs (next a) after post)
    (herror : ∀ e after, mid (.error e) after → post (.error e) after) : view.Runs (act >>= next) img post := by
  intro storage husable himg
  obtain ⟨husable', hmid⟩ := h storage husable himg
  rw [bind_apply]
  rcases hact : act storage with ⟨e | a, storage'⟩
  · rw [hact] at husable' hmid
    exact ⟨husable', herror e _ hmid⟩
  · rw [hact] at husable' hmid
    exact hok a _ hmid storage' husable' rfl

/-- The same with what comes next as what has to hold in between. -/
theorem Runs.step {act : SlotM σ α} {next : α → SlotM σ β} {post : Except StoreError β → Image → Prop}
    (h : view.Runs act img fun result after =>
      match result with
      | .ok a => view.Runs (next a) after post
      | .error e => post (.error e) after) : view.Runs (act >>= next) img post :=
  h.bind (fun _ _ hnext => hnext) fun _ _ hpost => hpost

theorem Runs.attempt {act : SlotM σ α} {post : Except StoreError (Except StoreError α) → Image → Prop}
    (h : view.Runs act img fun result after => post (.ok result) after) : view.Runs (SlotM.attempt act) img post := by
  intro storage husable himg
  exact h storage husable himg

theorem Answers.pure (a : α) : view.Answers (Pure.pure a) img (.ok a) := Runs.pure ⟨rfl, .inl rfl⟩

theorem Answers.throw (e : StoreError) : view.Answers (α := α) (MonadExcept.throw e) img (.error e) :=
  Runs.throw ⟨rfl, .inl rfl⟩

theorem Answers.ofExcept (result : Except StoreError α) : view.Answers (liftExcept result) img result := by
  rintro storage husable rfl
  cases result <;> exact ⟨husable, rfl, .inl rfl⟩

/-- What comes after work that only reads. -/
theorem Answers.bind_runs {act : SlotM σ α} {next : α → SlotM σ β} {a : α}
    {post : Except StoreError β → Image → Prop} (h : view.Answers act img (.ok a))
    (hnext : view.Runs (next a) img post) (hio : view.fallible → ∀ cause, post (.error (.io cause)) img) :
    view.Runs (act >>= next) img post := by
  refine Runs.bind h ?_ ?_
  · rintro b after ⟨rfl, hb | ⟨-, cause, hb⟩⟩
    · cases hb
      exact hnext
    · cases hb
  · rintro e after ⟨rfl, he | ⟨hfallible, cause, he⟩⟩
    · cases he
    · cases he
      exact hio hfallible cause

theorem Answers.bind {act : SlotM σ α} {next : α → SlotM σ β} {a : α} {result : Except StoreError β}
    (h : view.Answers act img (.ok a)) (hnext : view.Answers (next a) img result) :
    view.Answers (act >>= next) img result :=
  h.bind_runs hnext fun hfallible cause => ⟨rfl, .inr ⟨hfallible, cause, rfl⟩⟩

/-- What comes after an attempt, where a call that failed is not passed over. -/
theorem Answers.attempt_bind {act : SlotM σ α} {next : Except StoreError α → SlotM σ β} {result : Except StoreError α}
    {result' : Except StoreError β} (h : view.Answers act img result) (hnext : view.Answers (next result) img result')
    (hio : ∀ cause, next (.error (.io cause)) = MonadExcept.throw (.io cause)) :
    view.Answers (SlotM.attempt act >>= next) img result' := by
  refine Runs.step (Runs.attempt (h.mono ?_))
  rintro _ after ⟨rfl, rfl | ⟨hfallible, cause, rfl⟩⟩
  · exact hnext
  · dsimp only
    rw [hio]
    exact Runs.throw ⟨rfl, .inr ⟨hfallible, cause, rfl⟩⟩

end StorageView

/-! ### Calls of the storage -/

private theorem runs_onStorage {σ α : Type} {view : StorageView σ} {act : StorageM σ α} {img : Image}
    {answers : α → Image → Prop} {post : Except StoreError α → Image → Prop}
    (h : ∀ storage, view.Usable storage → view.image storage = img → view.Serves act storage answers)
    (hok : ∀ a after, answers a after → post (.ok a) after)
    (hio : view.fallible → ∀ cause, post (.error (.io cause)) img) : view.Runs (SlotM.onStorage act) img post := by
  rintro storage husable rfl
  obtain ⟨husable', hserves⟩ := h storage husable rfl
  rw [SlotM.onStorage_apply]
  refine ⟨husable', ?_⟩
  rcases hact : (act storage).1 with e | a
  · rw [hact] at hserves
    rw [hserves.2]
    exact hio hserves.1 e
  · rw [hact] at hserves
    exact hok a _ hserves

namespace StorageContract

variable {σ : Type} [PagedStorage σ] (contract : StorageContract σ) {img : Image}

/-- What is started on a usable storage starts from a well-formed image. -/
theorem runs_of_wellFormed {α : Type} {act : SlotM σ α} {post : Except StoreError α → Image → Prop}
    (h : img.WellFormed → contract.Runs act img post) : contract.Runs act img post := by
  rintro storage husable rfl
  exact h (contract.wellFormed husable) storage husable rfl

theorem read_answers {offset length : Nat} (hbound : offset + length ≤ img.size) :
    contract.Answers (SlotM.onStorage (PagedStorage.read offset length)) img (.ok (img.read offset length)) := by
  have h : ∀ storage, contract.Usable storage → contract.image storage = img →
      contract.Serves (PagedStorage.read offset length) storage fun bytes after =>
        bytes = img.read offset length ∧ after = img := by
    rintro storage husable rfl
    exact contract.read husable hbound
  refine runs_onStorage h ?_ fun hfallible cause => ⟨rfl, .inr ⟨hfallible, cause, rfl⟩⟩
  rintro bytes after ⟨rfl, rfl⟩
  exact ⟨rfl, .inl rfl⟩

theorem size_answers : contract.Answers (SlotM.onStorage PagedStorage.size) img (.ok img.size) := by
  have h : ∀ storage, contract.Usable storage → contract.image storage = img →
      contract.Serves PagedStorage.size storage fun size after => size = img.size ∧ after = img := by
    rintro storage husable rfl
    exact contract.size husable
  refine runs_onStorage h ?_ fun hfallible cause => ⟨rfl, .inr ⟨hfallible, cause, rfl⟩⟩
  rintro size after ⟨rfl, rfl⟩
  exact ⟨rfl, .inl rfl⟩

theorem flush_answers : contract.Answers (SlotM.onStorage PagedStorage.flush) img (.ok ()) := by
  have h : ∀ storage, contract.Usable storage → contract.image storage = img →
      contract.Serves PagedStorage.flush storage fun _ after => after = img := by
    rintro storage husable rfl
    exact contract.flush husable
  refine runs_onStorage h ?_ fun hfallible cause => ⟨rfl, .inr ⟨hfallible, cause, rfl⟩⟩
  rintro _ after rfl
  exact ⟨rfl, .inl rfl⟩

theorem write_runs {offset : Nat} {data : ByteArray} {post : Except StoreError Unit → Image → Prop}
    (hbound : offset + data.size ≤ img.size) (hok : post (.ok ()) (img.write offset data))
    (hio : contract.fallible → ∀ cause, post (.error (.io cause)) img) :
    contract.Runs (SlotM.onStorage (PagedStorage.write offset data)) img post := by
  have h : ∀ storage, contract.Usable storage → contract.image storage = img →
      contract.Serves (PagedStorage.write offset data) storage fun _ after => after = img.write offset data := by
    rintro storage husable rfl
    exact contract.write husable hbound
  refine runs_onStorage h ?_ hio
  rintro _ after rfl
  exact hok

theorem grow_runs {target : Nat} {post : Except StoreError Unit → Image → Prop} (hreach : target ≤ reach)
    (hok : ∀ size, target ≤ size → img.size ≤ size → post (.ok ()) { img with size })
    (hio : contract.fallible → ∀ cause, post (.error (.io cause)) img) :
    contract.Runs (SlotM.onStorage (PagedStorage.grow target)) img post := by
  have h : ∀ storage, contract.Usable storage → contract.image storage = img →
      contract.Serves (PagedStorage.grow target) storage fun _ after =>
        after = { img with size := after.size } ∧ target ≤ after.size ∧ img.size ≤ after.size := by
    rintro storage husable rfl
    exact contract.grow husable hreach
  refine runs_onStorage h ?_ hio
  rintro _ after ⟨hafter, htarget, hsize⟩
  rw [hafter]
  exact hok after.size htarget hsize

end StorageContract

end RecordStore
