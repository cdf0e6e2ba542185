import RecordStore.Storage.Error

/-!
# Byte storages

What a record store asks of the storage below it: bytes addressed by offset, growth in whole pages, a flush, and
an end.  A call may change the storage whether it succeeds or fails.
-/

namespace RecordStore

/-- A call that either fails with a storage error or answers, and leaves a storage behind in both cases. -/
abbrev StorageM (σ : Type) := ExceptT StorageError (StateM σ)

/-- How work goes on that may fail, with errors of any kind. -/
theorem bind_apply {ε σ α β : Type} (act : ExceptT ε (StateM σ) α) (next : α → ExceptT ε (StateM σ) β) (state : σ) :
    (act >>= next) state =
      match act state with
      | (.ok a, state') => next a state'
      | (.error e, state') => (.error e, state') := by
  change (StateT.bind (m := Id) act (ExceptT.bindCont next)) state = _
  unfold StateT.bind
  rcases act state with ⟨_ | a, state'⟩ <;> rfl

/-- How work goes on that looks at its state first. -/
theorem get_bind_apply {ε σ β : Type} (next : σ → ExceptT ε (StateM σ) β) (state : σ) :
    (do let current ← get; next current : ExceptT ε (StateM σ) β) state = next state state := rfl

class PagedStorage (σ : Type) where
  pageSize : σ → Nat
  /-- The `length` bytes at `offset`. -/
  read (offset length : Nat) : StorageM σ ByteArray
  write (offset : Nat) (data : ByteArray) : StorageM σ Unit
  /-- The size in bytes, always a multiple of the page size. -/
  size : StorageM σ Nat
  /-- Extends the storage to at least `target` bytes; the new bytes are zero. -/
  grow (target : Nat) : StorageM σ Unit
  flush : StorageM σ Unit
  /-- Flushes and releases the storage; closing again does nothing. -/
  close : StorageM σ Unit

end RecordStore
