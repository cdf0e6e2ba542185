import RecordStore.Proofs.Counting
import RecordStore.Session.Basic

/-!
# The abstract store

What a record store is to its users: a collection of records, each with the identifiers that were handed out for it
and a payload, or the mark that it was deleted.  Besides that the store knows how much room the latest slot of each
record has and where the last slot ends, which is all it takes to say which identifier a write answers and when there
is no room left.  A request that fails changes nothing.
-/

namespace RecordStore

structure StoredRecord where
  /-- The identifier that the record lives under. -/
  latest : RecordId
  /-- The identifiers that it lived under before, last first. -/
  former : List RecordId
  /-- The bytes that fit where it lives. -/
  capacity : Nat
  /-- Nothing once the record is deleted. -/
  payload : Option ByteArray

namespace StoredRecord

def ids (record : StoredRecord) : List RecordId := record.latest :: record.former

/-- The first identifier of all. -/
def first (record : StoredRecord) : RecordId := record.former.getLast?.getD record.latest

/-- The record with a new payload that fits. -/
def overwritten (record : StoredRecord) (payload : ByteArray) : StoredRecord := { record with payload := some payload }

/-- The record moved to `id`, where `capacity` bytes fit. -/
def moved (record : StoredRecord) (id : RecordId) (capacity : Nat) (payload : ByteArray) : StoredRecord :=
  { latest := id, former := record.ids, capacity, payload := some payload }

def deleted (record : StoredRecord) : StoredRecord := { record with payload := none }

/-- What one record adds to the counters. -/
def share (record : StoredRecord) : Counters :=
  { allocated := record.ids.length
    deleted := if record.payload.isNone then 1 else 0
    relocated := record.former.length
    payload := record.payload.elim 0 (·.size)
    capacity := if record.payload.isNone then 0 else record.capacity
    size := 0 }

/-- The record at some later time: it may have got more identifiers, and once deleted it stays deleted. -/
structure GrowsTo (record later : StoredRecord) : Prop where
  ids : record.ids <:+ later.ids
  dead : record.payload = none → later.payload = none

theorem GrowsTo.refl (record : StoredRecord) : record.GrowsTo record := ⟨List.suffix_refl _, id⟩

theorem GrowsTo.trans {record next later : StoredRecord} (h : record.GrowsTo next) (h' : next.GrowsTo later) :
    record.GrowsTo later := ⟨h.ids.trans h'.ids, fun hdead => h'.dead (h.dead hdead)⟩

end StoredRecord

structure Store where
  pageSize : Nat
  policy : CapacityPolicy
  records : List StoredRecord
  /-- Where the last slot ends. -/
  stop : Nat

/-- What is asked of a store. -/
inductive Request
  | insert (payload : ByteArray)
  | update (id : RecordId) (payload : ByteArray)
  | delete (id : RecordId)
  | read (id : RecordId)
  | resolve (id : RecordId)
  | flush

inductive Reply
  | id (id : RecordId)
  | payload (bytes : ByteArray)
  | counters (counters : Counters)
  | done

namespace Store

def empty (pageSize : Nat) (policy : CapacityPolicy) : Store :=
  { pageSize, policy, records := [], stop := FileHeader.size }

def counters (store : Store) : Counters :=
  { (store.records.map StoredRecord.share).sum with size := store.stop }

/-- The longest payload of a record. -/
def maxPayload (store : Store) : Nat := min store.policy.limit (store.pageSize - SlotHeader.fullSize)

/-- The capacity for a payload of `length` bytes for which the policy wants `desired`. -/
def capacityFor (store : Store) (length desired : Nat) : Except StoreError Nat :=
  if store.maxPayload < length then .error (.capacity length store.maxPayload)
  else .ok (max length (min desired store.maxPayload))

/-- Where a slot of `size` bytes goes: behind the last one if its page has room, else to the next page. -/
def place (store : Store) (size : Nat) : Nat :=
  let pageEnd := (store.stop / store.pageSize + 1) * store.pageSize
  if store.stop + size ≤ pageEnd then store.stop else pageEnd

/-- The identifier of a new slot for `capacity` bytes, and its end. -/
def newSlot (store : Store) (capacity : Nat) : Except StoreError (RecordId × Nat) :=
  let size := SlotHeader.sizeFor SlotHeader.fullSize capacity
  match RecordId.ofOffset? (store.place size) with
  | none => .error (.full (store.place size))
  | some id => .ok (id, store.place size + size)

theorem newSlot_eq_error {store : Store} {capacity : Nat}
    (h : RecordId.ofOffset? (store.place (SlotHeader.sizeFor SlotHeader.fullSize capacity)) = none) :
    store.newSlot capacity = .error (.full (store.place (SlotHeader.sizeFor SlotHeader.fullSize capacity))) := by
  simp only [newSlot, h]

theorem newSlot_eq_ok {store : Store} {capacity : Nat} {id : RecordId}
    (h : RecordId.ofOffset? (store.place (SlotHeader.sizeFor SlotHeader.fullSize capacity)) = some id) :
    store.newSlot capacity = .ok (id, store.place (SlotHeader.sizeFor SlotHeader.fullSize capacity) +
      SlotHeader.sizeFor SlotHeader.fullSize capacity) := by
  simp only [newSlot, h]

/-- The identifiers that were handed out. -/
def ids (store : Store) : List RecordId := store.records.flatMap StoredRecord.ids

/-- The record that `id` was handed out for, if it was. -/
def record? (store : Store) (id : RecordId) : Option StoredRecord := store.records.find? (id ∈ ·.ids)

/-- The record of `id` and its payload, unless there is no such record or it was deleted. -/
def live (store : Store) (id : RecordId) : Except StoreError (StoredRecord × ByteArray) :=
  match store.record? id with
  | none => .error (.notFound id)
  | some record =>
    match record.payload with
    | none => .error (.deleted id)
    | some payload => .ok (record, payload)

/-- The store with the record of `id` changed. -/
def change (store : Store) (id : RecordId) (f : StoredRecord → StoredRecord) : Store :=
  { store with records := store.records.map fun record => if id ∈ record.ids then f record else record }

def insert (store : Store) (payload : ByteArray) : Except StoreError (RecordId × Store) := do
  let capacity ← store.capacityFor payload.size (store.policy.initial payload.size)
  let (id, stop) ← store.newSlot capacity
  let record : StoredRecord := { latest := id, former := [], capacity, payload := some payload }
  return (id, { store with records := record :: store.records, stop })

/-- A payload that fits where the record lives leaves it there; any other moves it to a new identifier. -/
def update (store : Store) (id : RecordId) (payload : ByteArray) : Except StoreError (RecordId × Store) := do
  let (record, _) ← store.live id
  if payload.size ≤ record.capacity then
    return (record.latest, store.change id (·.overwritten payload))
  else
    let capacity ← store.capacityFor payload.size (store.policy.relocated payload.size record.capacity)
    let (latest, stop) ← store.newSlot capacity
    return (latest, { store.change id (·.moved latest capacity payload) with stop })

def delete (store : Store) (id : RecordId) : Except StoreError Store := do
  let _ ← store.live id
  return store.change id (·.deleted)

/-- The answer to a request and the store after it. -/
def perform (store : Store) : Request → Except StoreError (Reply × Store)
  | .insert payload => do
    let (id, store) ← store.insert payload
    return (.id id, store)
  | .update id payload => do
    let (id, store) ← store.update id payload
    return (.id id, store)
  | .delete id => do
    let store ← store.delete id
    return (.done, store)
  | .read id => do
    let (_, payload) ← store.live id
    return (.payload payload, store)
  | .resolve id => do
    let (record, _) ← store.live id
    return (.id record.latest, store)
  | .flush => return (.done, store)

/-! ### Records by identifier -/

variable {store : Store} {id : RecordId} {record : StoredRecord} {payload : ByteArray}

theorem live_eq_ok (h : store.live id = .ok (record, payload)) :
    record ∈ store.records ∧ id ∈ record.ids ∧ record.payload = some payload := by
  unfold live record? at h
  cases hfind : store.records.find? (id ∈ ·.ids) with
  | none => simp [hfind] at h
  | some found =>
    cases hpayload : found.payload with
    | none => simp [hfind, hpayload] at h
    | some bytes =>
      simp only [hfind, hpayload, Except.ok.injEq, Prod.mk.injEq] at h
      obtain ⟨rfl, rfl⟩ := h
      exact ⟨List.mem_of_find?_eq_some hfind, by simpa using List.find?_some hfind, hpayload⟩

/-- What there is under an identifier: a record, a deleted record, or nothing. -/
theorem live_cases (store : Store) (id : RecordId) :
    (∃ record payload, store.live id = .ok (record, payload)) ∨
      (store.live id = .error (.deleted id) ∧ ∃ record ∈ store.records, id ∈ record.ids ∧ record.payload = none) ∨
        store.live id = .error (.notFound id) ∧ id ∉ store.records.flatMap StoredRecord.ids := by
  unfold live record?
  cases hfind : store.records.find? (id ∈ ·.ids) with
  | none =>
    refine .inr (.inr ⟨rfl, fun hmem => ?_⟩)
    obtain ⟨record, hrecord, hid⟩ := List.mem_flatMap.1 hmem
    exact absurd hid (by simpa using List.find?_eq_none.1 hfind record hrecord)
  | some record =>
    have hid : id ∈ record.ids := by simpa using List.find?_some hfind
    cases hpayload : record.payload with
    | none =>
      refine .inr (.inl ⟨?_, record, List.mem_of_find?_eq_some hfind, hid, hpayload⟩)
      simp [hpayload]
    | some payload => exact .inl ⟨record, payload, by simp [hpayload]⟩

/-- Different records share no identifier. -/
theorem notMem_ids_of_nodup {before after : List StoredRecord} {other : StoredRecord}
    (h : ((before ++ record :: after).flatMap StoredRecord.ids).Nodup) (hother : other ∈ before ∨ other ∈ after)
    (hid : id ∈ record.ids) : id ∉ other.ids := by
  intro hmem
  rw [List.flatMap_append, List.flatMap_cons] at h
  rcases hother with hbefore | hafter
  · exact (List.nodup_append.1 h).2.2 id (List.mem_flatMap.2 ⟨other, hbefore, hmem⟩) id (List.mem_append_left _ hid) rfl
  · exact (List.nodup_append.1 (List.nodup_append.1 h).2.1).2.2 id hid id (List.mem_flatMap.2 ⟨other, hafter, hmem⟩) rfl

theorem record?_of_mem (hdistinct : (store.records.flatMap StoredRecord.ids).Nodup) (hrecord : record ∈ store.records)
    (hid : id ∈ record.ids) : store.record? id = some record := by
  obtain ⟨before, after, hrecords⟩ := List.append_of_mem hrecord
  rw [hrecords] at hdistinct
  have hbefore : before.find? (id ∈ ·.ids) = none := by
    refine List.find?_eq_none.2 fun other hother => ?_
    simpa using notMem_ids_of_nodup hdistinct (.inl hother) hid
  unfold record?
  rw [hrecords, List.find?_append, hbefore, List.find?_cons_of_pos (by simpa using hid)]
  rfl

theorem live_of_mem (hdistinct : (store.records.flatMap StoredRecord.ids).Nodup) (hrecord : record ∈ store.records)
    (hid : id ∈ record.ids) :
    store.live id = match record.payload with
      | none => .error (.deleted id)
      | some payload => .ok (record, payload) := by
  unfold live
  rw [record?_of_mem hdistinct hrecord hid]

theorem live_of_notMem (h : id ∉ store.ids) : store.live id = .error (.notFound id) := by
  have hnone : store.record? id = none :=
    List.find?_eq_none.2 fun record hrecord => by simpa using fun hid => h (List.mem_flatMap.2 ⟨record, hrecord, hid⟩)
  unfold live
  rw [hnone]

theorem update_of_le {old : ByteArray} (hlive : store.live id = .ok (record, old))
    (hfit : payload.size ≤ record.capacity) :
    store.update id payload = .ok (record.latest, store.change id (·.overwritten payload)) := by
  unfold update
  rw [hlive]
  exact if_pos hfit

theorem update_of_lt {old : ByteArray} (hlive : store.live id = .ok (record, old))
    (hlong : record.capacity < payload.size) :
    store.update id payload = (do
      let capacity ← store.capacityFor payload.size (store.policy.relocated payload.size record.capacity)
      let (latest, stop) ← store.newSlot capacity
      return (latest, { store.change id (·.moved latest capacity payload) with stop })) := by
  unfold update
  rw [hlive]
  exact if_neg (Nat.not_le.2 hlong)

/-- The record of an identifier, picked out of the others; a change concerns it alone. -/
theorem exists_split (hdistinct : (store.records.flatMap StoredRecord.ids).Nodup) (hrecord : record ∈ store.records)
    (hid : id ∈ record.ids) :
    ∃ before after, store.records = before ++ record :: after ∧
      ∀ f, (store.change id f).records = before ++ f record :: after := by
  obtain ⟨before, after, hrecords⟩ := List.append_of_mem hrecord
  refine ⟨before, after, hrecords, fun f => ?_⟩
  rw [hrecords] at hdistinct
  have hothers : ∀ other, other ∈ before ∨ other ∈ after → (if id ∈ other.ids then f other else other) = other :=
    fun other hother => if_neg (notMem_ids_of_nodup hdistinct hother hid)
  change store.records.map _ = _
  rw [hrecords, List.map_append, List.map_cons, if_pos hid, List.map_congr_left fun other h => hothers other (.inl h),
    List.map_congr_left fun other h => hothers other (.inr h), List.map_id', List.map_id']

end Store

end RecordStore
