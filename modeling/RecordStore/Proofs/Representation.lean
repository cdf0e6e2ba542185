import Mathlib.Tactic.SplitIfs
import RecordStore.Proofs.Chains
import RecordStore.Proofs.Store

/-!
# Layouts that represent a store

How the slots of a layout hold the records of an abstract store.  The latest slot of a record holds its payload or its
tombstone; its other slots are redirects to slots of the same record, along which some rank falls, and once the record
is deleted they may be tombstones as well.  So every chain of a record ends: in its payload while it lives, in a
tombstone afterwards (`Stores.leads`).  Overwriting the slots of one record does not touch the others
(`Represents.change`).
-/

namespace RecordStore

namespace Layout

/-- The slots of `record` in the layout. -/
structure Stores (layout : Layout) (record : StoredRecord) : Prop where
  /-- Later identifiers name later slots. -/
  ordered : record.ids.Pairwise fun newer older => older.offset < newer.offset
  live : ∀ payload, record.payload = some payload → layout.slot record.latest =
    { header := .live record.capacity payload.size record.former.getLast?, payload }
  dead : record.payload = none → ∃ length, layout.header record.latest = .deleted record.capacity length false
  former : ∀ id ∈ record.former, (∃ capacity target, layout.header id = .moved capacity target) ∨
    record.payload = none ∧ ∃ capacity length, layout.header id = .deleted capacity length true
  ranked : ∃ rank : RecordId → Nat, ∀ id ∈ record.ids, ∀ capacity target,
    layout.header id = .moved capacity target → target ∈ record.ids ∧ rank target < rank id

/-- The slots of the layout, padding aside, are the slots of the records. -/
structure Represents (layout : Layout) (records : List StoredRecord) : Prop where
  distinct : (records.flatMap StoredRecord.ids).Nodup
  mem : ∀ id, id ∈ records.flatMap StoredRecord.ids ↔ id ∈ layout.ids ∧ (layout.header id).state ≠ .padding
  stores : ∀ record ∈ records, layout.Stores record

namespace Stores

variable {layout layout' : Layout} {record : StoredRecord}

theorem congr (h : layout.Stores record) (hslot : ∀ id ∈ record.ids, layout'.slot id = layout.slot id) :
    layout'.Stores record := by
  have hheader : ∀ id ∈ record.ids, layout'.header id = layout.header id := fun id hid => by
    unfold header
    rw [hslot id hid]
  refine ⟨h.ordered, fun payload hpayload => ?_, fun hdead => ?_, fun id hid => ?_, ?_⟩
  · rw [hslot _ List.mem_cons_self]
    exact h.live payload hpayload
  · rw [hheader _ List.mem_cons_self]
    exact h.dead hdead
  · rw [hheader id (List.mem_cons_of_mem _ hid)]
    exact h.former id hid
  · obtain ⟨rank, hrank⟩ := h.ranked
    refine ⟨rank, fun id hid capacity target hmoved => ?_⟩
    rw [hheader id hid] at hmoved
    exact hrank id hid capacity target hmoved

theorem redirect?_latest (h : layout.Stores record) : (layout.header record.latest).redirect? = none := by
  cases hpayload : record.payload with
  | none =>
    obtain ⟨length, hheader⟩ := h.dead hpayload
    rw [hheader]
    rfl
  | some payload =>
    unfold header
    rw [h.live payload hpayload]
    rfl

theorem header_latest (h : layout.Stores record) {payload : ByteArray} (hpayload : record.payload = some payload) :
    layout.header record.latest = .live record.capacity payload.size record.former.getLast? := by
  unfold header
  rw [h.live payload hpayload]

theorem mem_former (h : layout.Stores record) {id target : RecordId} {capacity : Nat} (hid : id ∈ record.ids)
    (hmoved : layout.header id = .moved capacity target) : id ∈ record.former := by
  rcases List.mem_cons.1 hid with rfl | hid
  · have hnone := h.redirect?_latest
    rw [hmoved] at hnone
    simp [SlotHeader.redirect?] at hnone
  · exact hid

/-- Redirects do not leave the record. -/
theorem target_mem (h : layout.Stores record) {id target : RecordId} {capacity : Nat} (hid : id ∈ record.ids)
    (hmoved : layout.header id = .moved capacity target) : target ∈ record.ids := by
  obtain ⟨rank, hrank⟩ := h.ranked
  exact (hrank id hid capacity target hmoved).1

/-- No slot of a record is padding. -/
theorem state_ne_padding (h : layout.Stores record) {id : RecordId} (hid : id ∈ record.ids) :
    (layout.header id).state ≠ .padding := by
  rcases List.mem_cons.1 hid with rfl | hid
  · cases hpayload : record.payload with
    | none =>
      obtain ⟨length, hheader⟩ := h.dead hpayload
      rw [hheader]
      nofun
    | some payload =>
      rw [h.header_latest hpayload]
      nofun
  · rcases h.former id hid with ⟨capacity, target, hheader⟩ | ⟨-, capacity, length, hheader⟩ <;> rw [hheader] <;> nofun

/-- From every slot of a record the redirects lead through former slots to its payload, or to a tombstone once it is
deleted. -/
theorem leads (h : layout.Stores record) {id : RecordId} (hid : id ∈ record.ids) :
    ∃ passed last, layout.Leads id passed last ∧ last ∈ record.ids ∧ (∀ r ∈ passed, r.id ∈ record.former) ∧
      passed.length ≤ record.former.length ∧
      (record.payload ≠ none → last = record.latest) ∧
      (record.payload = none → ∃ capacity length relocated,
        layout.header last = .deleted capacity length relocated) := by
  -- the rank falls with each redirect, so the chain comes to an end
  obtain ⟨rank, hrank⟩ := h.ranked
  obtain ⟨passed, last, hleads, -, hlast, hpassed⟩ := leads_of_rank hrank hid
  have hformer : ∀ r ∈ passed, r.id ∈ record.former := fun r hr => by
    obtain ⟨target, hmoved⟩ := hleads.header_passed hr
    exact h.mem_former (hpassed r hr) hmoved
  have hnone := hleads.redirect?_last
  refine ⟨passed, last, hleads, hlast, hformer, ?_, ?_, ?_⟩
  · -- no slot is passed twice
    have hnodup : (passed.map (·.id)).Nodup := (List.nodup_append.1 hleads.nodup).1
    have hsubset : passed.map (·.id) ⊆ record.former := fun id hid => by
      obtain ⟨r, hr, rfl⟩ := List.mem_map.1 hid
      exact hformer r hr
    simpa using hnodup.length_le_of_subset hsubset
  · intro halive
    rcases List.mem_cons.1 hlast with heq | hlast
    · exact heq
    · rcases h.former last hlast with ⟨capacity, target, hheader⟩ | ⟨hdead, -⟩
      · rw [hheader] at hnone
        simp [SlotHeader.redirect?] at hnone
      · exact absurd hdead halive
  · intro hdead
    rcases List.mem_cons.1 hlast with rfl | hlast
    · obtain ⟨length, hheader⟩ := h.dead hdead
      exact ⟨_, _, _, hheader⟩
    · rcases h.former last hlast with ⟨capacity, target, hheader⟩ | ⟨-, capacity, length, hheader⟩
      · rw [hheader] at hnone
        simp [SlotHeader.redirect?] at hnone
      · exact ⟨_, _, _, hheader⟩

/-- A record that was just stored. -/
theorem single {id : RecordId} {capacity : Nat} {payload : ByteArray}
    (hslot : layout.slot id = { header := .live capacity payload.size none, payload }) :
    layout.Stores { latest := id, former := [], capacity, payload := some payload } where
  ordered := List.pairwise_singleton ..
  live := by
    rintro _ ⟨⟩
    exact hslot
  dead := nofun
  former := by simp
  ranked := by
    refine ⟨fun _ => 0, fun other hother c t hmoved => ?_⟩
    rw [List.mem_singleton.1 hother, header, hslot] at hmoved
    cases hmoved

/-- A new payload in place. -/
theorem overwritten (h : layout.Stores record) {payload old : ByteArray} (hlive : record.payload = some old)
    (hslot : layout'.slot record.latest =
      { header := .live record.capacity payload.size record.former.getLast?, payload })
    (hrest : ∀ id ∈ record.former, layout'.slot id = layout.slot id) : layout'.Stores (record.overwritten payload) := by
  have hheader : ∀ id ∈ record.former, layout'.header id = layout.header id := fun id hid => by
    unfold header
    rw [hrest id hid]
  refine ⟨h.ordered, ?_, nofun, fun id hid => ?_, ?_⟩
  · rintro _ ⟨⟩
    exact hslot
  · rw [hheader id hid]
    rcases h.former id hid with hmoved | ⟨hdead, -⟩
    · exact .inl hmoved
    · rw [hlive] at hdead
      cases hdead
  · obtain ⟨rank, hrank⟩ := h.ranked
    refine ⟨rank, fun id hid capacity target hmoved => ?_⟩
    rcases List.mem_cons.1 hid with rfl | hformer
    · rw [header] at hmoved
      change (layout'.slot record.latest).header = _ at hmoved
      rw [hslot] at hmoved
      cases hmoved
    · rw [hheader id hformer] at hmoved
      exact hrank id hid capacity target hmoved

/-- The commit of a move: the new slot holds the payload, and the slot before it leads there. -/
theorem moved (h : layout.Stores record) {payload old : ByteArray} {id : RecordId} {capacity : Nat}
    (hlive : record.payload = some old) (hlater : ∀ other ∈ record.ids, other.offset < id.offset)
    (hslot : layout'.slot id = { header := .live capacity payload.size (some record.first), payload })
    (hprevious : layout'.header record.latest = .moved record.capacity id)
    (hrest : ∀ other ∈ record.former, layout'.header other = layout.header other) :
    layout'.Stores (record.moved id capacity payload) := by
  have hne : ∀ other ∈ record.ids, other ≠ id := by
    rintro other hother rfl
    exact absurd (hlater other hother) (Nat.lt_irrefl _)
  refine ⟨List.pairwise_cons.2 ⟨hlater, h.ordered⟩, ?_, nofun, fun other hother => .inl ?_, ?_⟩
  · rintro _ ⟨⟩
    change layout'.slot id = { header := .live capacity payload.size (record.ids.getLast?), payload }
    rw [hslot]
    unfold StoredRecord.first StoredRecord.ids
    rw [List.getLast?_cons]
  · rcases List.mem_cons.1 hother with rfl | hother
    · exact ⟨_, _, hprevious⟩
    · rw [hrest other hother]
      rcases h.former other hother with hmoved | ⟨hdead, -⟩
      · exact hmoved
      · rw [hlive] at hdead
        cases hdead
  · -- the new slot comes first
    obtain ⟨rank, hrank⟩ := h.ranked
    refine ⟨fun other => if other = id then 0 else rank other + 1, fun other hother c target hmoved => ?_⟩
    rcases List.mem_cons.1 hother with rfl | hother
    · rw [header, hslot] at hmoved
      cases hmoved
    · rcases List.mem_cons.1 hother with rfl | hformer
      · rw [hprevious] at hmoved
        cases hmoved
        refine ⟨List.mem_cons_self, ?_⟩
        change (if id = id then 0 else rank id + 1) < (if record.latest = id then 0 else rank record.latest + 1)
        rw [if_pos rfl, if_neg (hne _ hother)]
        exact Nat.succ_pos _
      · rw [hrest other hformer] at hmoved
        obtain ⟨htarget, hlt⟩ := hrank other hother c target hmoved
        refine ⟨List.mem_cons_of_mem _ htarget, ?_⟩
        change (if target = id then 0 else rank target + 1) < (if other = id then 0 else rank other + 1)
        rw [if_neg (hne _ htarget), if_neg (hne _ hother)]
        exact Nat.succ_lt_succ hlt

theorem latest_ne (h : layout.Stores record) {id : RecordId} (hid : id ∈ record.former) : record.latest ≠ id := by
  rintro rfl
  exact absurd ((List.pairwise_cons.1 h.ordered).1 _ hid) (Nat.lt_irrefl _)

/-- Pointing a former slot at the latest one, or at a slot that leads there directly. -/
theorem redirected (h : layout.Stores record) {id target : RecordId} {capacity : Nat} (hid : id ∈ record.former)
    (htarget : target = record.latest ∨
      target ≠ id ∧ target ∈ record.ids ∧ ∃ c, layout.header target = .moved c record.latest) :
    (layout.set id (.bare (.moved capacity target))).Stores record := by
  have hlatest := h.latest_ne hid
  refine ⟨h.ordered, fun payload hpayload => ?_, fun hdead => ?_, fun other hother => ?_, ?_⟩
  · rw [slot_set_of_ne _ _ hlatest]
    exact h.live payload hpayload
  · rw [header_set_of_ne _ _ hlatest]
    exact h.dead hdead
  · by_cases hne : other = id
    · rw [hne, header_set_self]
      exact .inl ⟨_, _, rfl⟩
    · rw [header_set_of_ne _ _ hne]
      exact h.former other hother
  · obtain ⟨rank, hrank⟩ := h.ranked
    have hmem : target ∈ record.ids := by
      rcases htarget with rfl | ⟨-, hmem, -⟩
      · exact List.mem_cons_self
      · exact hmem
    -- the latest slot, the target and the slot itself come first, in this order
    refine ⟨fun x => if x = record.latest then 0 else if x = target then 1 else if x = id then 2 else rank x + 3,
      fun other hother c t hmoved => ?_⟩
    by_cases hne : other = id
    · rw [hne, header_set_self] at hmoved
      cases hmoved
      refine ⟨hmem, ?_⟩
      subst hne
      rcases htarget with rfl | ⟨htarget, -, -⟩
      · simp [hlatest.symm]
      · simp only [if_neg hlatest.symm, if_neg htarget.symm, if_true]
        split_ifs <;> omega
    · rw [header_set_of_ne _ _ hne] at hmoved
      obtain ⟨ht, hlt⟩ := hrank other hother c t hmoved
      have hformer : other ≠ record.latest := fun heq => h.latest_ne (heq ▸ h.mem_former hother hmoved) rfl
      refine ⟨ht, ?_⟩
      by_cases htarget' : other = target
      · rcases htarget with rfl | ⟨-, -, c', hlast⟩
        · exact absurd htarget' hformer
        · rw [htarget', hlast] at hmoved
          cases hmoved
          rw [htarget'] at hformer
          simp [htarget', hformer]
      · simp only [if_neg hformer, if_neg htarget', if_neg hne]
        split_ifs <;> omega

/-- A tombstone leads nowhere, so that the order of the slots stays as it is. -/
private theorem ranked_set_deleted (h : layout.Stores record) (id : RecordId) (capacity length : Nat)
    (relocated : Bool) : ∃ rank : RecordId → Nat, ∀ other ∈ record.ids, ∀ c target,
      (layout.set id (.bare (.deleted capacity length relocated))).header other = .moved c target →
        target ∈ record.ids ∧ rank target < rank other := by
  obtain ⟨rank, hrank⟩ := h.ranked
  refine ⟨rank, fun other hother c target hmoved => ?_⟩
  by_cases hne : other = id
  · rw [hne, header_set_self] at hmoved
    cases hmoved
  · rw [header_set_of_ne _ _ hne] at hmoved
    exact hrank other hother c target hmoved

/-- Deleting a record. -/
theorem deleted (h : layout.Stores record) {length : Nat} :
    (layout.set record.latest (.bare (.deleted record.capacity length false))).Stores record.deleted := by
  refine ⟨h.ordered, nofun, fun _ => ⟨length, header_set_self ..⟩, fun id hid => ?_, h.ranked_set_deleted ..⟩
  rw [header_set_of_ne _ _ (h.latest_ne hid).symm]
  rcases h.former id hid with hmoved | ⟨-, hdead⟩
  · exact .inl hmoved
  · exact .inr ⟨rfl, hdead⟩

/-- Burying a redirect of a deleted record. -/
theorem buried (h : layout.Stores record) (hdead : record.payload = none) {id : RecordId} {capacity : Nat}
    (hid : id ∈ record.former) : (layout.set id (.bare (.deleted capacity 0 true))).Stores record := by
  have hlatest := h.latest_ne hid
  refine ⟨h.ordered, fun payload hpayload => ?_, fun hdead => ?_, fun other hother => ?_, h.ranked_set_deleted ..⟩
  · rw [hdead] at hpayload
    cases hpayload
  · rw [header_set_of_ne _ _ hlatest]
    exact h.dead hdead
  · by_cases hne : other = id
    · rw [hne, header_set_self]
      exact .inr ⟨hdead, _, _, rfl⟩
    · rw [header_set_of_ne _ _ hne]
      exact h.former other hother

end Stores

/-! ### All records at once -/

namespace Represents

variable {layout layout' : Layout} {records before after : List StoredRecord} {record record' : StoredRecord}

theorem nil : Layout.empty.Represents [] where
  distinct := List.nodup_nil
  mem := fun id => by simp [Layout.empty]
  stores := by simp

theorem mem_ids (h : layout.Represents records) (hrecord : record ∈ records) {id : RecordId} (hid : id ∈ record.ids) :
    id ∈ layout.ids := ((h.mem id).1 (List.mem_flatMap.2 ⟨record, hrecord, hid⟩)).1

/-- Redirects lead to slots of the records. -/
theorem mem_target (h : layout.Represents records) {id target : RecordId} {capacity : Nat} (hid : id ∈ layout.ids)
    (hmoved : layout.header id = .moved capacity target) : target ∈ records.flatMap StoredRecord.ids := by
  have hstate : (layout.header id).state ≠ .padding := by
    rw [hmoved]
    nofun
  obtain ⟨record, hrecord, hid'⟩ := List.mem_flatMap.1 ((h.mem id).2 ⟨hid, hstate⟩)
  exact List.mem_flatMap.2 ⟨record, hrecord, (h.stores record hrecord).target_mem hid' hmoved⟩

theorem disjoint (h : layout.Represents (before ++ record :: after)) {other : StoredRecord}
    (hother : other ∈ before ∨ other ∈ after) {id : RecordId} (hid : id ∈ other.ids) : id ∉ record.ids :=
  fun hmem => Store.notMem_ids_of_nodup h.distinct hother hmem hid

/-- A change of the slots of one record, with the slots `fresh` taken for it. -/
theorem replace (h : layout.Represents (before ++ record :: after)) {fresh : List RecordId}
    (hids : layout'.ids = layout.ids ++ fresh) (hids' : record'.ids = fresh ++ record.ids) (hnodup : fresh.Nodup)
    (hfresh : ∀ id ∈ fresh, id ∉ layout.ids) (hstores : layout'.Stores record')
    (hrest : ∀ id ∉ record'.ids, layout'.slot id = layout.slot id) :
    layout'.Represents (before ++ record' :: after) := by
  -- the identifiers are the same ones and the fresh ones, in another order
  have hperm : ((before ++ record' :: after).flatMap StoredRecord.ids).Perm
      (fresh ++ (before ++ record :: after).flatMap StoredRecord.ids) := by
    simp only [List.flatMap_append, List.flatMap_cons, hids', List.append_assoc]
    exact List.perm_append_comm_assoc _ _ _
  refine ⟨hperm.nodup_iff.2 ?_, fun id => ?_, fun other hother => ?_⟩
  · refine List.nodup_append.2 ⟨hnodup, h.distinct, ?_⟩
    rintro id hid _ hmem rfl
    exact hfresh id hid ((h.mem id).1 hmem).1
  · rw [hperm.mem_iff, List.mem_append, h.mem, hids, List.mem_append]
    by_cases hid : id ∈ record'.ids
    · have hstate := hstores.state_ne_padding hid
      rw [hids', List.mem_append] at hid
      rcases hid with hid | hid
      · simp [hid, hstate]
      · have hstate' := (h.stores record (by simp)).state_ne_padding hid
        simp [h.mem_ids (by simp) hid, hstate, hstate']
    · have hid' : id ∉ fresh := fun hmem => hid (hids' ▸ List.mem_append_left _ hmem)
      unfold header
      rw [hrest id hid]
      simp [hid']
  · have hkeep : ∀ other ∈ before ++ record :: after, other ∈ before ∨ other ∈ after → layout'.Stores other := by
      intro other hother hside
      refine (h.stores other hother).congr fun id hid => hrest id ?_
      rw [hids', List.mem_append]
      rintro (hmem | hmem)
      · exact hfresh id hmem (h.mem_ids hother hid)
      · exact h.disjoint hside hid hmem
    rcases List.mem_append.1 hother with hbefore | hother
    · exact hkeep other (by simp [hbefore]) (.inl hbefore)
    · rcases List.mem_cons.1 hother with rfl | hafter
      · exact hstores
      · exact hkeep other (by simp [hafter]) (.inr hafter)

/-- A change of the slots of one record that takes no new one. -/
theorem change (h : layout.Represents (before ++ record :: after)) (hids : layout'.ids = layout.ids)
    (hids' : record'.ids = record.ids) (hstores : layout'.Stores record')
    (hrest : ∀ id ∉ record.ids, layout'.slot id = layout.slot id) : layout'.Represents (before ++ record' :: after) :=
  h.replace (by simpa using hids) (by simpa using hids') List.nodup_nil (by simp) hstores (hids' ▸ hrest)

/-- Slots that are appended are none of the records' business. -/
theorem stores_push (h : layout.Represents records) {id : RecordId} {slot : Slot} (hid : id ∉ layout.ids)
    (hrecord : record ∈ records) : (layout.push id slot).Stores record := by
  refine (h.stores record hrecord).congr fun other hother => slot_push_of_ne _ _ ?_
  rintro rfl
  exact hid (h.mem_ids hrecord hother)

theorem push_padding (h : layout.Represents records) {id : RecordId} {capacity : Nat} (hid : id ∉ layout.ids) :
    (layout.push id (.bare (.padding capacity))).Represents records := by
  refine ⟨h.distinct, fun other => ?_, fun record hrecord => h.stores_push hid hrecord⟩
  rw [h.mem, ids_push, List.mem_append, List.mem_singleton]
  by_cases hne : other = id
  · rw [hne, header_push_self]
    simp [hid, Slot.bare, SlotHeader.state]
  · rw [header_push_of_ne _ _ hne]
    simp [hne]

theorem insert (h : layout.Represents records) {id : RecordId} {capacity : Nat} {payload : ByteArray}
    (hid : id ∉ layout.ids) :
    (layout.push id { header := .live capacity payload.size none, payload }).Represents
      ({ latest := id, former := [], capacity, payload := some payload } :: records) := by
  refine ⟨?_, fun other => ?_, fun record hrecord => ?_⟩
  · refine List.nodup_cons.2 ⟨fun hmem => hid ((h.mem id).1 hmem).1, h.distinct⟩
  · rw [List.flatMap_cons, List.mem_append, h.mem, ids_push, List.mem_append, List.mem_singleton]
    by_cases hne : other = id
    · rw [hne, header_push_self]
      simp [StoredRecord.ids, SlotHeader.state]
    · rw [header_push_of_ne _ _ hne]
      simp [StoredRecord.ids, hne]
  · rcases List.mem_cons.1 hrecord with rfl | hrecord
    · exact Stores.single (slot_push_self ..)
    · exact h.stores_push hid hrecord

/-- The commit of a move: the slot `id` appended, and the slot before it pointed there. -/
theorem move (h : layout.Represents (before ++ record :: after)) {id : RecordId} {capacity : Nat}
    {payload old : ByteArray} (hlive : record.payload = some old) (hid : id ∉ layout.ids)
    (hlater : ∀ other ∈ layout.ids, other.offset < id.offset) :
    ((layout.push id { header := .live capacity payload.size (some record.first), payload }).set record.latest
      (.bare (.moved record.capacity id))).Represents (before ++ record.moved id capacity payload :: after) := by
  have hmem : ∀ other ∈ record.ids, other ∈ layout.ids := fun other hother => h.mem_ids (by simp) hother
  have hne : ∀ other ∈ record.ids, other ≠ id := by
    rintro other hother rfl
    exact hid (hmem _ hother)
  have hstores := h.stores record (by simp)
  refine h.replace rfl rfl (by simp) (by simpa using hid) ?_ fun other hother => ?_
  · refine hstores.moved hlive (fun other hother => hlater other (hmem other hother)) ?_ (header_set_self ..) ?_
    · rw [slot_set_of_ne _ _ (hne _ List.mem_cons_self).symm, slot_push_self]
    · intro other hother
      rw [header_set_of_ne _ _ (hstores.latest_ne hother).symm,
        header_push_of_ne _ _ (hne other (List.mem_cons_of_mem _ hother))]
  · have hother' : other ≠ id ∧ other ∉ record.ids := by
      simpa [StoredRecord.moved, StoredRecord.ids] using hother
    have hlatest : other ≠ record.latest := by
      rintro rfl
      exact hother'.2 List.mem_cons_self
    rw [slot_set_of_ne _ _ hlatest, slot_push_of_ne _ _ hother'.1]

end Represents

end Layout

end RecordStore
