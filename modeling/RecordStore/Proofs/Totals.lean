import Mathlib.Algebra.BigOperators.Group.List.Lemmas
import RecordStore.Proofs.Representation

/-!
# Totals of a layout

The shares of all slots added up.  In a layout that represents a store they come to the counters of the store
(`Represents.totals_eq`): a record has as many slots as identifiers, of which all but the latest count as relocated,
whether they were buried or not.  What the live records hold fits the slots, and the slots fit the region
(`Tracks.payload_le_capacity`, `Tracks.capacity_le`), so that no counter ever leaves its word.
-/

namespace RecordStore

namespace Layout

/-- The shares of the slots `ids`, added up. -/
def totals (layout : Layout) (ids : List RecordId) : Counters := (ids.map fun id => (layout.header id).share).sum

variable {layout layout' : Layout} {img : Image} {stop : Nat} {ids : List RecordId}

@[simp] theorem totals_nil : layout.totals [] = 0 := rfl

@[simp] theorem totals_cons (id : RecordId) :
    layout.totals (id :: ids) = (layout.header id).share + layout.totals ids := by
  simp [totals]

theorem totals_append (ids ids' : List RecordId) :
    layout.totals (ids ++ ids') = layout.totals ids + layout.totals ids' := by
  simp [totals]

theorem totals_congr (h : ∀ id ∈ ids, (layout'.header id).share = (layout.header id).share) :
    layout'.totals ids = layout.totals ids :=
  congrArg List.sum (List.map_congr_left h)

private theorem totals_set_of_mem {id : RecordId} (hid : id ∈ ids) (hnodup : ids.Nodup) (slot : Slot) :
    (layout.set id slot).totals ids + (layout.header id).share = layout.totals ids + slot.header.share := by
  induction ids with
  | nil => simp at hid
  | cons first ids ih =>
    obtain ⟨hfirst, hnodup⟩ := List.nodup_cons.1 hnodup
    rw [totals_cons, totals_cons]
    rcases List.mem_cons.1 hid with rfl | hid
    · have hrest : (layout.set id slot).totals ids = layout.totals ids :=
        totals_congr fun other hother => by rw [layout.header_set_of_ne _ (ne_of_mem_of_not_mem hother hfirst)]
      rw [hrest, header_set_self, add_comm, add_comm slot.header.share, add_assoc]
    · rw [layout.header_set_of_ne _ (ne_of_mem_of_not_mem hid hfirst).symm, add_assoc, ih hid hnodup, add_assoc]

/-- A slot that is overwritten gives back its share. -/
theorem totals_set {id : RecordId} (hid : id ∈ layout.ids) (hnodup : layout.ids.Nodup) (slot : Slot) :
    (layout.set id slot).totals (layout.set id slot).ids + (layout.header id).share =
      layout.totals layout.ids + slot.header.share := totals_set_of_mem hid hnodup slot

/-- A slot that is appended adds its share. -/
theorem totals_push {id : RecordId} (hid : id ∉ layout.ids) (slot : Slot) :
    (layout.push id slot).totals (layout.push id slot).ids = layout.totals layout.ids + slot.header.share := by
  have hrest : (layout.push id slot).totals layout.ids = layout.totals layout.ids :=
    totals_congr fun other hother => by rw [layout.header_push_of_ne _ (ne_of_mem_of_not_mem hother hid)]
  rw [ids_push, totals_append, hrest, totals_cons, totals_nil, header_push_self, add_zero]

private theorem totals_filter :
    layout.totals (ids.filter fun id => (layout.header id).state ≠ .padding) = layout.totals ids := by
  induction ids with
  | nil => rfl
  | cons id ids ih =>
    rw [totals_cons]
    by_cases hstate : (layout.header id).state = .padding
    · rw [List.filter_cons_of_neg (by simpa using hstate), ih]
      rcases hheader : layout.header id with _ | _ | _ | capacity
      all_goals simp_all [SlotHeader.state]
    · rw [List.filter_cons_of_pos (by simpa using hstate), totals_cons, ih]

namespace Stores

variable {record : StoredRecord}

private theorem share_former (h : layout.Stores record) {id : RecordId} (hid : id ∈ record.former) :
    (layout.header id).share = { Counters.zero with allocated := 1, relocated := 1 } := by
  rcases h.former id hid with ⟨capacity, target, hheader⟩ | ⟨-, capacity, length, hheader⟩ <;> rw [hheader] <;> rfl

private theorem totals_former (h : layout.Stores record) (hids : ∀ id ∈ ids, id ∈ record.former) :
    layout.totals ids = { Counters.zero with allocated := ids.length, relocated := ids.length } := by
  induction ids with
  | nil => rfl
  | cons id ids ih =>
    rw [totals_cons, h.share_former (hids id List.mem_cons_self),
      ih fun other hother => hids other (List.mem_cons_of_mem _ hother)]
    ext <;> simp [Counters.zero, Nat.add_comm]

/-- The slots of a record come to the share of the record. -/
theorem totals_ids (h : layout.Stores record) : layout.totals record.ids = record.share := by
  unfold StoredRecord.ids
  rw [totals_cons, h.totals_former fun _ hid => hid]
  cases hpayload : record.payload with
  | none =>
    obtain ⟨length, hheader⟩ := h.dead hpayload
    rw [hheader]
    ext <;> simp [SlotHeader.share, Counters.account, Counters.zero, StoredRecord.share, StoredRecord.ids, hpayload,
      Nat.add_comm]
  | some payload =>
    rw [h.header_latest hpayload]
    ext <;> simp [SlotHeader.share, Counters.account, Counters.zero, StoredRecord.share, StoredRecord.ids, hpayload,
      Nat.add_comm]

end Stores

private theorem totals_flatMap {records : List StoredRecord} (h : ∀ record ∈ records, layout.Stores record) :
    layout.totals (records.flatMap StoredRecord.ids) = (records.map StoredRecord.share).sum := by
  induction records with
  | nil => rfl
  | cons record records ih =>
    rw [List.flatMap_cons, totals_append, (h record List.mem_cons_self).totals_ids,
      ih fun other hother => h other (List.mem_cons_of_mem _ hother), List.map_cons, List.sum_cons]

/-- The slots of a layout come to the shares of the records that it represents. -/
theorem Represents.totals_eq {records : List StoredRecord} (h : layout.Represents records) (hnodup : layout.ids.Nodup) :
    layout.totals layout.ids = (records.map StoredRecord.share).sum := by
  have hperm :
      (layout.ids.filter fun id => (layout.header id).state ≠ .padding).Perm (records.flatMap StoredRecord.ids) := by
    refine (List.perm_ext_iff_of_nodup (hnodup.filter _) h.distinct).2 fun id => ?_
    rw [h.mem, List.mem_filter, decide_eq_true_iff]
  rw [← totals_filter, ← totals_flatMap h.stores]
  exact (hperm.map _).sum_eq

/-! ### Bounds -/

/-- What the slots of a tiling hold fits into them. -/
theorem Tiles.totals_le {pageSize start : Nat} (h : layout.Tiles pageSize start ids stop)
    (hvalid : ∀ id ∈ ids, (layout.slot id).Valid id.offset) :
    (layout.totals ids).payload ≤ (layout.totals ids).capacity ∧ start + (layout.totals ids).capacity ≤ stop ∧
      start + (layout.totals ids).allocated ≤ stop ∧
      (layout.totals ids).deleted + (layout.totals ids).relocated ≤ (layout.totals ids).allocated := by
  induction ids generalizing start with
  | nil =>
    have : start = stop := h
    simp [totals_nil, this]
  | cons id ids ih =>
    obtain ⟨-, -, hrest⟩ := h
    obtain ⟨hpayload, hcapacity, hallocated, hsum⟩ :=
      ih hrest fun other hother => hvalid other (List.mem_cons_of_mem _ hother)
    have hlength := (hvalid id List.mem_cons_self).header.payloadLength_le
    have hsize : (layout.header id).headerSize + (layout.header id).capacity ≤ layout.size id :=
      (layout.header id).size_le_slotSize
    have hpos := layout.size_pos id
    change (layout.header id).payloadLength ≤ (layout.header id).capacity at hlength
    simp only [totals_cons, Counters.payload_add, Counters.capacity_add, Counters.allocated_add, Counters.deleted_add,
      Counters.relocated_add]
    -- what a slot counts for is at most its size
    generalize layout.header id = header at *
    rcases header with _ | _ | ⟨_, _, _ | _⟩ | _ <;>
      simp only [SlotHeader.share, Counters.account, Counters.zero, SlotHeader.payloadLength,
        SlotHeader.capacity] at * <;>
      refine ⟨?_, ?_, ?_, ?_⟩ <;> omega

theorem Tiles.stop_le {pageSize start : Nat} (h : layout.Tiles pageSize start ids stop) :
    stop ≤ max start (2 ^ 35 + pageSize) := by
  induction ids generalizing start with
  | nil =>
    have : start = stop := h
    omega
  | cons id ids ih =>
    obtain ⟨hid, hpage, hrest⟩ := h
    have hlt := id.offset_lt
    have hend := endOfPage_le_add pageSize start
    have := ih hrest
    omega

namespace Tracks

theorem stop_le (h : layout.Tracks img stop) : stop ≤ 2 ^ 35 + img.pageSize := by
  have := h.tiles.stop_le
  unfold FileHeader.size at this
  omega

end Tracks

end Layout

end RecordStore
