import RecordStore.Proofs.Serving

/-!
# Changes of records

What an operation makes of one record and its slots.  `Layout.Turns` has one constructor for each kind of change, and
every record of the store afterwards is under one of them (`Transition.turns`).  Whatever is known of the slots of a
record is preserved by cases on it; the slots of the other records stay as they are.
-/

namespace RecordStore.Layout

variable {fallible : Prop} {layout layout' committed : Layout} {store store' : Store} {record record' : StoredRecord}
  {before after : List StoredRecord} {id : RecordId} {other : StoredRecord} {img : Image} {status : FileStatus}

/-- Where a record comes from that the store has after an operation, and what has become of its slots. -/
inductive Turns (fallible : Prop) (layout : Layout) (store : Store) (layout' : Layout) : StoredRecord → Prop
  | kept {record : StoredRecord} (hrecord : record ∈ store.records)
      (hslots : ∀ id ∈ record.ids, layout'.slot id = layout.slot id) : Turns fallible layout store layout' record
  | inserted {record : StoredRecord} (hformer : record.former = []) (hlive : record.payload ≠ none) :
      Turns fallible layout store layout' record
  | overwritten {record : StoredRecord} {payload old : ByteArray} (hrecord : record ∈ store.records)
      (hlive : record.payload = some old) (hformer : ∀ id ∈ record.former, layout'.slot id = layout.slot id) :
      Turns fallible layout store layout' (record.overwritten payload)
  | moved {record : StoredRecord} {id : RecordId} {capacity : Nat} {payload old : ByteArray} {committed : Layout}
      (hrecord : record ∈ store.records) (hlive : record.payload = some old) (hid : id ∉ record.ids)
      (hprevious : committed.header record.latest = .moved record.capacity id)
      (hformer : ∀ other ∈ record.former, committed.slot other = layout.slot other)
      (hshortened : Shortened fallible layout record id committed layout') :
      Turns fallible layout store layout' (record.moved id capacity payload)
  | deleted {record : StoredRecord} {old : ByteArray} (hrecord : record ∈ store.records)
      (hlive : record.payload = some old)
      (hformer : ∀ id ∈ record.former, ∀ capacity target, layout'.header id = .moved capacity target →
        layout.header id = .moved capacity target)
      (hburied : ¬fallible → (layout'.header record.first).state = .deleted) :
      Turns fallible layout store layout' record.deleted

/-- Shortening the chain of a record concerns its slots alone. -/
theorem Shortened.slot_eq (h : Shortened fallible layout record id committed layout') {other : RecordId}
    (hother : other ∉ record.ids) : layout'.slot other = committed.slot other := by
  cases h with
  | unmoved => rfl
  | kept => rfl
  | shortened hfirst hcapacity hdone hall =>
    rw [slot_overwrite_of_notMem, slot_set_of_ne]
    · rintro rfl
      exact hother record.first_mem
    · intro hmem
      obtain ⟨redirect, hredirect, rfl⟩ := List.mem_map.1 hmem
      exact hother (hdone redirect hredirect).1

/-- A record beside the one that an operation changes keeps its slots. -/
private theorem Represents.changed_or_kept (hrep : layout.Represents store.records)
    (hrecords : store.records = before ++ record :: after)
    (hrest : ∀ id ∈ layout.ids, id ∉ record.ids → layout'.slot id = layout.slot id)
    (hother : other ∈ before ++ record' :: after) : other = record' ∨ Turns fallible layout store layout' other := by
  have hkept : other ∈ before ∨ other ∈ after → Turns fallible layout store layout' other := by
    intro hside
    have hmem : other ∈ store.records := by
      rw [hrecords]
      rcases hside with hbefore | hafter
      · exact List.mem_append_left _ hbefore
      · exact List.mem_append_right _ (List.mem_cons_of_mem _ hafter)
    rw [hrecords] at hrep
    apply Turns.kept hmem
    intro id hid
    apply hrest
    · exact hrep.mem_ids (hrecords ▸ hmem) hid
    · exact hrep.disjoint hside hid
  rcases List.mem_append.1 hother with hbefore | hother
  · exact .inr (hkept (.inl hbefore))
  · rcases List.mem_cons.1 hother with heq | hafter
    · exact .inl heq
    · exact .inr (hkept (.inr hafter))

section

variable (hkeeps : img.Keeps layout store status) {old payload : ByteArray}
  (hrecords : store.records = before ++ record :: after) (hlive : record.payload = some old)

include hkeeps hrecords hlive

private theorem turns_overwritten (hother : other ∈ before ++ record.overwritten payload :: after) :
    Turns fallible layout store
      (layout.set record.latest { header := .live record.capacity payload.size record.former.getLast?, payload })
      other := by
  have hmem : record ∈ store.records := by simp [hrecords]
  have hstores := hkeeps.represents.stores record hmem
  generalize hslot : ({ header := .live record.capacity payload.size record.former.getLast?, payload } : Slot) = slot
  have hrest : ∀ id, id ≠ record.latest → (layout.set record.latest slot).slot id = layout.slot id :=
    fun id hne => slot_set_of_ne _ _ hne
  rcases hkeeps.represents.changed_or_kept hrecords
    (fun id _ hid => hrest id fun heq => hid (heq ▸ List.mem_cons_self)) hother with rfl | hkept
  · apply Turns.overwritten hmem hlive
    intro id hid
    exact hrest id (hstores.latest_ne hid).symm
  · exact hkept

private theorem turns_moved {base : Layout} {capacity : Nat} (hpadded : layout.Padded store.stop base id.offset)
    (hshortened : Shortened fallible layout record id
      ((base.push id { header := .live capacity payload.size (some record.first), payload }).set record.latest
        (.bare (.moved record.capacity id))) layout')
    (hother : other ∈ before ++ record.moved id capacity payload :: after) :
    Turns fallible layout store layout' other := by
  have hmem : record ∈ store.records := by simp [hrecords]
  have hrep := hkeeps.represents
  have htracks := hkeeps.tracks
  have hcommitted : ∀ other ∈ layout.ids, other ≠ record.latest →
      ((base.push id { header := .live capacity payload.size (some record.first), payload }).set record.latest
        (.bare (.moved record.capacity id))).slot other = layout.slot other := by
    intro other hother hne
    rw [slot_set_of_ne _ _ hne, hpadded.slot_push_eq htracks hpadded.stop_le hother]
  have hfresh : id ∉ record.ids := by
    intro hid
    have hlt := htracks.offset_lt (hrep.mem_ids hmem hid)
    have hle := hpadded.stop_le
    omega
  have hrest : ∀ other ∈ layout.ids, other ∉ record.ids → layout'.slot other = layout.slot other := by
    intro other hother hnot
    rw [hshortened.slot_eq hnot, hcommitted other hother]
    rintro rfl
    exact hnot List.mem_cons_self
  rcases hrep.changed_or_kept hrecords hrest hother with rfl | hkept
  · refine .moved hmem hlive hfresh (header_set_self ..) (fun other hother => ?_) hshortened
    apply hcommitted
    · exact hrep.mem_ids hmem (List.mem_cons_of_mem _ hother)
    · exact ((hrep.stores record hmem).latest_ne hother).symm
  · exact hkept

private theorem turns_deleted {length : Nat} {done : List Redirect}
    (hdone : ∀ redirect ∈ done, redirect.id ∈ record.former)
    (hall : ¬fallible → ∀ id ∈ record.former.getLast?, id ∈ done.map (·.id))
    (hother : other ∈ before ++ record.deleted :: after) :
    Turns fallible layout store
      ((layout.set record.latest (.bare (.deleted record.capacity length false))).overwrite
        (fun redirect => .deleted redirect.capacity 0 true) done) other := by
  have hmem : record ∈ store.records := by simp [hrecords]
  have hlatest_ne : ∀ id ∈ record.former, record.latest ≠ id :=
    fun id hid => (hkeeps.represents.stores record hmem).latest_ne hid
  generalize hafter : (layout.set record.latest (.bare (.deleted record.capacity length false))).overwrite
    (fun redirect => .deleted redirect.capacity 0 true) done = later
  have hburied : ∀ id ∈ done.map (·.id),
      id ∈ record.former ∧ ∃ capacity, later.header id = .deleted capacity 0 true := by
    intro id hid
    constructor
    · obtain ⟨redirect, hredirect, rfl⟩ := List.mem_map.1 hid
      exact hdone redirect hredirect
    · rw [← hafter]
      obtain ⟨redirect, -, -, hslot⟩ := slot_overwrite_of_mem hid
      exact ⟨redirect.capacity, congrArg Slot.header hslot⟩
  have hunburied : ∀ id, id ∉ done.map (·.id) → id ≠ record.latest → later.slot id = layout.slot id := by
    intro id hid hne
    rw [← hafter, slot_overwrite_of_notMem hid, slot_set_of_ne _ _ hne]
  have hrest : ∀ id ∈ layout.ids, id ∉ record.ids → later.slot id = layout.slot id := by
    intro id _ hnot
    apply hunburied
    · exact fun hid => hnot (List.mem_cons_of_mem _ (hburied id hid).1)
    · rintro rfl
      exact hnot List.mem_cons_self
  rcases hkeeps.represents.changed_or_kept hrecords hrest hother with rfl | hkept
  · refine .deleted hmem hlive (fun id hid c target hmoved => ?_) fun hreliable => ?_
    · by_cases hbury : id ∈ done.map (·.id)
      · obtain ⟨-, capacity, hheader⟩ := hburied id hbury
        rw [hheader] at hmoved
        cases hmoved
      · rwa [header, hunburied id hbury (hlatest_ne id hid).symm] at hmoved
    · -- the first slot is the latest one, or it is buried with the redirects
      cases hfirst : record.former.getLast? with
      | none =>
        have hlatest : record.first = record.latest := by rw [StoredRecord.first, hfirst, Option.getD_none]
        have hnot : record.latest ∉ done.map (·.id) := fun hid => hlatest_ne _ (hburied _ hid).1 rfl
        rw [hlatest, ← hafter, header, slot_overwrite_of_notMem hnot, slot_set_self]
        rfl
      | some first =>
        have heq : record.first = first := by rw [StoredRecord.first, hfirst, Option.getD_some]
        obtain ⟨-, capacity, hheader⟩ := hburied first (hall hreliable first hfirst)
        rw [heq, hheader]
        rfl
  · exact hkept

end

/-- Every record that the store has after an operation comes from one that it had, or is new. -/
theorem Transition.turns (h : layout.Transition fallible store layout' store') (hkeeps : img.Keeps layout store status)
    (hrecord : record ∈ store'.records) : Turns fallible layout store layout' record := by
  cases h with
  | same => exact .kept hrecord fun _ _ => rfl
  | inserted hpadded hnew =>
    rcases List.mem_cons.1 hrecord with rfl | hrecord
    · exact .inserted rfl nofun
    · apply Turns.kept hrecord
      intro id hid
      exact hpadded.slot_push_eq hkeeps.tracks hpadded.stop_le (hkeeps.represents.mem_ids hrecord hid)
  | overwritten hrecords hlive => exact turns_overwritten hkeeps hrecords hlive hrecord
  | moved hrecords hlive hpadded hnew hshortened =>
    exact turns_moved hkeeps hrecords hlive hpadded hshortened hrecord
  | deleted hrecords hlive hdone hall =>
    exact turns_deleted hkeeps hrecords hlive (fun redirect hredirect => (hdone redirect hredirect).1) hall hrecord

end RecordStore.Layout
