import RecordStore.Proofs.Crashes

/-!
# Live slots after a crash

How many slots of a record can be live when the cache of a run was lost.  A record that was neither moved nor deleted
since the file header was written lives in one slot, and one that was deleted before in none; one that was moved may
live in its earlier slots as well.  So the live records counted are at most those of the store, those deleted since,
and the earlier slots of those moved since (`Recovered.liveRecords_le`, `unmoved_records_live_once`).
-/

namespace RecordStore

namespace Layout

variable {layout : Layout} {ids : List RecordId}

/-- The slots that are live. -/
def live (layout : Layout) (ids : List RecordId) : List RecordId :=
  ids.filter fun id => (layout.header id).state = .live

theorem mem_live {id : RecordId} : id ∈ layout.live ids ↔ id ∈ ids ∧ (layout.header id).state = .live := by
  simp [live]

theorem live_subset : layout.live ids ⊆ ids := List.filter_subset_self _

theorem live_append (ids others : List RecordId) :
    layout.live (ids ++ others) = layout.live ids ++ layout.live others := List.filter_append ..

theorem live_cons (id : RecordId) (ids : List RecordId) :
    layout.live (id :: ids) = if (layout.header id).state = .live then id :: layout.live ids else layout.live ids := by
  unfold live
  rw [List.filter_cons]
  simp only [decide_eq_true_eq]

theorem length_live_le (ids : List RecordId) : (layout.live ids).length ≤ ids.length := List.length_filter_le _ _

theorem header_of_mem_live {id : RecordId} (hid : id ∈ layout.live ids) :
    ∃ capacity length origin, layout.header id = .live capacity length origin := by
  obtain ⟨-, hstate⟩ := mem_live.1 hid
  cases hheader : layout.header id with
  | live capacity length origin => exact ⟨capacity, length, origin, rfl⟩
  | _ =>
    rw [hheader] at hstate
    cases hstate

/-- Every slot that counts as a record is live, a tombstone or a former one. -/
private theorem allocated_totals (ids : List RecordId) : (layout.totals ids).allocated =
    (layout.live ids).length + (layout.totals ids).deleted + (layout.totals ids).relocated := by
  induction ids with
  | nil => rfl
  | cons id ids ih =>
    rw [live_cons]
    simp only [totals_cons, Counters.allocated_add, Counters.deleted_add, Counters.relocated_add]
    generalize layout.header id = header
    rcases header with _ | _ | ⟨_, _, _ | _⟩ | _ <;>
      simp [SlotHeader.share, SlotHeader.state, Counters.account, Counters.zero] <;> omega

theorem liveRecords_totals (ids : List RecordId) (stop : Nat) :
    { layout.totals ids with size := stop : Counters }.liveRecords = (layout.live ids).length := by
  have hsum := layout.allocated_totals ids
  unfold Counters.liveRecords
  dsimp only
  omega

end Layout

namespace Store

/-- The record is under other identifiers than when the store was `flushed`, or is new. -/
def MovedSince (flushed : Store) (record : StoredRecord) : Prop := ∀ old ∈ flushed.records, old.ids ≠ record.ids

/-- The record is deleted, and was not when the store was `flushed`. -/
def DeletedSince (flushed : Store) (record : StoredRecord) : Prop :=
  record.payload = none ∧ ∀ old ∈ flushed.records, old.ids = record.ids → old.payload ≠ none

instance (flushed : Store) : DecidablePred flushed.MovedSince := fun record =>
  inferInstanceAs (Decidable (∀ old ∈ flushed.records, old.ids ≠ record.ids))

instance (flushed : Store) : DecidablePred flushed.DeletedSince := fun record =>
  inferInstanceAs (Decidable (record.payload = none ∧
    ∀ old ∈ flushed.records, old.ids = record.ids → old.payload ≠ none))

/-- How many slots of these records may be live. -/
def mayLive (flushed : Store) (records : List StoredRecord) : Nat :=
  (records.filter (·.payload.isSome)).length + (records.filter (flushed.DeletedSince ·)).length +
    ((records.filter (flushed.MovedSince ·)).flatMap StoredRecord.former).length

theorem mayLive_cons (flushed : Store) (record : StoredRecord) (records : List StoredRecord) :
    flushed.mayLive (record :: records) = flushed.mayLive [record] + flushed.mayLive records := by
  simp only [mayLive, List.filter_cons, List.filter_nil]
  split_ifs <;> simp <;> omega

end Store

namespace Session

variable {found : Session CachedFile} {layout : Layout} {store : Store} {after : List Event}

namespace Recovered

variable (h : Recovered found layout store after)
  (hdistinct : ∀ done, done <+: after → (runAll Store.respond done store).2.ids.Nodup)

include h

/-- A record under the same identifiers as before has one live slot at most. -/
private theorem live_unmoved {old : StoredRecord} (hold : old ∈ store.records)
    (hunmoved : ∃ last ∈ (runAll Store.respond after store).2.records, last.ids = old.ids) (hnodup : old.ids.Nodup) :
    (layout.live old.ids).length ≤ 1 := by
  have hsubset : layout.live old.ids ⊆ [old.latest] := fun id hid => by
    obtain ⟨capacity, length, origin, hlive⟩ := Layout.header_of_mem_live hid
    have hlatest := ((h.retains old hold hunmoved).latest id (Layout.live_subset hid) capacity length origin hlive).1
    exact List.mem_singleton.2 hlatest
  exact (hnodup.filter _).length_le_of_subset hsubset

include hdistinct

/-- And none if it was deleted before. -/
private theorem live_deleted {old : StoredRecord} (hold : old ∈ store.records)
    (hunmoved : ∃ last ∈ (runAll Store.respond after store).2.records, last.ids = old.ids)
    (hdead : old.payload = none) : layout.live old.ids = [] := by
  refine List.eq_nil_iff_forall_not_mem.2 fun id hid => ?_
  obtain ⟨capacity, length, origin, hlive⟩ := Layout.header_of_mem_live hid
  obtain ⟨payload, last, hfate, -, hshows⟩ := (h.retains old hold hunmoved).shows id (Layout.live_subset hid)
  obtain rfl := hfate.eq_none hdistinct hold hdead
  cases hshows with
  | deleted _ hdeleted => rw [hlive] at hdeleted; cases hdeleted
  | hop _ hmoved => rw [hlive] at hmoved; cases hmoved

private theorem length_live_record {record : StoredRecord}
    (hrecord : record ∈ (runAll Store.respond after store).2.records) :
    (layout.live record.ids).length ≤ store.mayLive [record] := by
  have hnodup : record.ids.Nodup := (List.nodup_flatMap.1 (hdistinct after (List.prefix_refl after))).1 record hrecord
  have hall : (layout.live record.ids).length ≤ record.former.length + 1 := layout.length_live_le record.ids
  by_cases hgone : ∃ gone ∈ store.records, gone.ids = record.ids ∧ gone.payload = none
  · obtain ⟨gone, hgone, hids, hdead⟩ := hgone
    rw [← hids, h.live_deleted hdistinct hgone ⟨record, hrecord, hids.symm⟩ hdead]
    exact Nat.zero_le _
  -- a record that was not deleted before counts itself
  have hcounts : record.payload.isSome ∨ store.DeletedSince record := by
    cases hpayload : record.payload with
    | some payload => exact .inl rfl
    | none => exact .inr ⟨hpayload, fun old hold hids hdead => hgone ⟨old, hold, hids, hdead⟩⟩
  by_cases hmoved : store.MovedSince record
  · rcases hcounts with hcounts | hcounts <;> simp [Store.mayLive, hmoved, hcounts] <;> omega
  · obtain ⟨old, hold, hids⟩ : ∃ old ∈ store.records, old.ids = record.ids := by
      by_contra hnot
      exact hmoved fun old hold hids => hnot ⟨old, hold, hids⟩
    have hone := h.live_unmoved hold ⟨record, hrecord, hids.symm⟩ (hids ▸ hnodup)
    rw [hids] at hone
    rcases hcounts with hcounts | hcounts <;> simp [Store.mayLive, hmoved, hcounts] <;> omega

private theorem length_live_records {records : List StoredRecord}
    (hrecords : records ⊆ (runAll Store.respond after store).2.records) :
    (layout.live (records.flatMap StoredRecord.ids)).length ≤ store.mayLive records := by
  induction records with
  | nil => exact Nat.zero_le _
  | cons record records ih =>
    have hfirst := h.length_live_record hdistinct (hrecords List.mem_cons_self)
    have hrest := ih fun other hother => hrecords (List.mem_cons_of_mem _ hother)
    rw [List.flatMap_cons, Layout.live_append, List.length_append, Store.mayLive_cons]
    omega

/-- A record that was neither moved nor deleted lives in one slot, which its identifiers lead to. -/
private theorem lives_once {record last : StoredRecord} (hrecord : record ∈ store.records)
    (hlast : last ∈ (runAll Store.respond after store).2.records) (hids : last.ids = record.ids)
    (hlive : last.payload ≠ none) :
    ∃ payload, store.Fate after record (some payload) ∧
      (∀ id ∈ record.ids, (perform (.resolve id) found).1 = .ok (.id record.latest) ∧
        (perform (.read id) found).1 = .ok (.payload payload)) ∧
      ∀ slot ∈ layout.ids.map layout.scanned, slot.id ∈ record.ids → ∀ capacity length origin,
        slot.header = .live capacity length origin → slot.id = record.latest ∧ slot.payload = some payload ∧
          ∀ first ∈ origin, (perform (.resolve first) found).1 = .ok (.id slot.id) := by
  have hretained := h.retains record hrecord ⟨last, hlast, hids⟩
  have hshown : ∀ id ∈ record.ids, ∃ payload, store.Fate after record (some payload) ∧
      layout.Shows 2 id record.latest (some payload) := by
    intro id hid
    obtain ⟨payload?, last', hfate, hlatest, hshows⟩ := hretained.shows id hid
    have hne := hfate.ne_none hdistinct hlast hids hlive
    obtain ⟨payload, rfl⟩ := Option.ne_none_iff_exists'.1 hne
    rw [hlatest hne] at hshows
    exact ⟨payload, hfate, hshows⟩
  obtain ⟨payload, hfate, hlatest⟩ := hshown record.latest List.mem_cons_self
  -- all slots of the record lead to its latest one, and so to one payload
  have hshows : ∀ id ∈ record.ids, layout.Shows 2 id record.latest (some payload) := fun id hid => by
    obtain ⟨payload', -, hshows⟩ := hshown id hid
    have hsame := hshows.payload_scanned
    rw [hlatest.payload_scanned] at hsame
    rwa [← hsame] at hshows
  refine ⟨payload, hfate, fun id hid => ⟨h.salvaged.resolve_eq (hshows id hid), h.salvaged.read_eq (hshows id hid)⟩,
    fun slot hslot hid capacity length origin hheader => ?_⟩
  obtain ⟨id, -, rfl⟩ := List.mem_map.1 hslot
  obtain ⟨rfl, rfl⟩ := hretained.latest id hid capacity length origin hheader
  refine ⟨rfl, hlatest.payload_scanned, fun first hfirst => h.salvaged.resolve_eq (hshows first ?_)⟩
  exact List.mem_cons_of_mem _ (List.mem_of_getLast? hfirst)

omit hdistinct in
/-- A record that never moved is lost, or is found in its slot. -/
private theorem lives_alone {record : StoredRecord} (hrecord : record ∈ (runAll Store.respond after store).2.records)
    (hformer : record.former = []) :
    ((perform (.resolve record.latest) found).1 = .error (.notFound record.latest) ∨
      ∃ payload, store.Fate after record payload ∧
        (perform (.resolve record.latest) found).1 = placeOf record.latest record.latest payload ∧
        (perform (.read record.latest) found).1 = answerTo record.latest payload) ∧
    ∀ slot ∈ layout.ids.map layout.scanned, slot.id = record.latest → ∀ capacity length origin,
      slot.header = .live capacity length origin →
        origin = none ∧ (perform (.resolve slot.id) found).1 = .ok (.id slot.id) := by
  have halone := h.alone record hrecord hformer
  refine ⟨?_, fun slot hslot hid capacity length origin hheader => ?_⟩
  · by_cases hthere : record.latest ∈ layout.ids ∧ (layout.header record.latest).state ≠ .padding
    · obtain ⟨⟨payload, hfate, hshows⟩, -⟩ := halone hthere.1 hthere.2
      have hshows' := hshows.mono (Nat.zero_le 2)
      exact .inr ⟨payload, hfate, h.salvaged.resolve_eq hshows', h.salvaged.read_eq hshows'⟩
    · exact .inl (h.salvaged.resolve_notFound fun hid => by_contra fun hstate => hthere ⟨hid, hstate⟩)
  · obtain ⟨id, hmem, rfl⟩ := List.mem_map.1 hslot
    obtain rfl : id = record.latest := hid
    have hlive : layout.header record.latest = .live capacity length origin := hheader
    obtain ⟨⟨payload, -, hshows⟩, horigin⟩ := halone hmem (by rw [hlive]; nofun)
    refine ⟨horigin capacity length origin hlive, ?_⟩
    cases hshows with
    | live hid hslot => exact h.salvaged.resolve_eq (.live hid hslot)
    | deleted _ hdeleted => rw [hlive] at hdeleted; cases hdeleted

/-- Every live slot found is one of a record. -/
theorem liveRecords_le : found.counters.liveRecords ≤ store.mayLive (runAll Store.respond after store).2.records := by
  rw [h.counters, Layout.liveRecords_totals]
  have hsubset : layout.live layout.ids ⊆ layout.live (runAll Store.respond after store).2.ids := fun id hid => by
    obtain ⟨hmem, hstate⟩ := Layout.mem_live.1 hid
    refine Layout.mem_live.2 ⟨?_, hstate⟩
    by_contra hmissing
    rw [h.missing id hmissing hmem] at hstate
    cases hstate
  have hnodup : (layout.live layout.ids).Nodup := h.salvaged.walks.tracks.nodup.filter _
  exact Nat.le_trans (hnodup.length_le_of_subset hsubset) (h.length_live_records hdistinct (List.Subset.refl _))

end Recovered

/-- A record that was neither moved nor deleted between the last flush and the crash lives in one slot: each of its
identifiers leads there, no other slot of it is live, and the identifier that this one names as its first leads back.
A record that never moved is lost, or found as it was at some moment, in a slot that names no other one.  The live
records counted are at most those that are not deleted, with those deleted since the flush, and the earlier slots of
those moved since. -/
theorem unmoved_records_live_once (path : String) (policy : CapacityPolicy) {options : Options}
    (hpageSize : checkPageSize options.pageSize = .ok ()) (hsuits : options.Suits options.pageSize)
    {before after : List Event} (hrun : CutRun options.pageSize before after) :
    ∃ session, openFile path .missing policy options = .ok session ∧
      let lost := runAll (handleFile path) after (runAll (handleFile path) before session).2
      let flushed := (runAll Store.respond before (.empty options.pageSize policy)).2
      let expected := (runAll Store.respond after flushed).2.records
      ∀ (policy' : CapacityPolicy) (options' : Options), options'.Suits options.pageSize → options'.recover = true →
        ∃ found, openFile path (.regular lost.2.storage.onDisk) policy' options' = .ok found ∧
          (records found).1.1 = none ∧
          found.counters.liveRecords ≤ (expected.filter (·.payload.isSome)).length +
            (expected.filter (flushed.DeletedSince ·)).length +
            ((expected.filter (flushed.MovedSince ·)).flatMap StoredRecord.former).length ∧
          (∀ record ∈ flushed.records, (∃ last ∈ expected, last.ids = record.ids ∧ last.payload ≠ none) →
            ∃ payload, flushed.Fate after record (some payload) ∧
              (∀ id ∈ record.ids, (perform (.resolve id) found).1 = .ok (.id record.latest) ∧
                (perform (.read id) found).1 = .ok (.payload payload)) ∧
              ∀ slot ∈ (records found).1.2, slot.id ∈ record.ids → ∀ capacity length origin,
                slot.header = .live capacity length origin → slot.id = record.latest ∧ slot.payload = some payload ∧
                  ∀ first ∈ origin, (perform (.resolve first) found).1 = .ok (.id slot.id)) ∧
          ∀ record ∈ expected, record.former = [] →
            ((perform (.resolve record.latest) found).1 = .error (.notFound record.latest) ∨
              ∃ payload, flushed.Fate after record payload ∧
                (perform (.resolve record.latest) found).1 = placeOf record.latest record.latest payload ∧
                (perform (.read record.latest) found).1 = answerTo record.latest payload) ∧
            ∀ slot ∈ (records found).1.2, slot.id = record.latest → ∀ capacity length origin,
              slot.header = .live capacity length origin →
                origin = none ∧ (perform (.resolve slot.id) found).1 = .ok (.id slot.id) := by
  obtain ⟨session, hopen, -, -, hdistinct, hsalvage⟩ := hrun.salvaged path policy hpageSize hsuits
  refine ⟨session, hopen, fun policy' options' hsuits' hrecover => ?_⟩
  obtain ⟨found, layout, hfound, -, hrecovered⟩ := hsalvage policy' options' hsuits' hrecover
  have hrecords : (records found).1 = (none, layout.ids.map layout.scanned) :=
    hrecovered.salvaged.walks.records_eq id hrecovered.salvaged.usable
  refine ⟨found, hfound, by rw [hrecords], hrecovered.liveRecords_le hdistinct,
    fun record hrecord ⟨last, hlast, hids, hlive⟩ => ?_, fun record hrecord hformer => ?_⟩
  · rw [hrecords]
    exact hrecovered.lives_once hdistinct hrecord hlast hids hlive
  · rw [hrecords]
    exact hrecovered.lives_alone hrecord hformer

/-- A record that moved before the flush. -/
def movedBefore : List Event :=
  [.request (.insert ⟨#[1, 2, 3]⟩), .request (.update firstId ⟨#[1, 2, 3, 4, 5, 6, 7, 8, 9]⟩), .request .flush]

theorem moved_record_lives_once : ∃ session, openFile "store" .missing .exactDefault onePage = .ok session ∧
    let flushed := runAll (handleFile "store") movedBefore session
    let lost := runAll (handleFile "store") laterEvents flushed.2
    ∃ found, openFile "store" (.regular lost.2.storage.onDisk) .exactDefault onePage = .ok found ∧
      found.counters.liveRecords ≤ 3 ∧
      (perform (.resolve firstId) found).1 = .ok (.id secondId) ∧
      (perform (.resolve secondId) found).1 = .ok (.id secondId) ∧
      ∀ slot ∈ (records found).1.2, slot.id = firstId ∨ slot.id = secondId → ∀ capacity length origin,
        slot.header = .live capacity length origin → slot.id = secondId := by
  have hsuits : onePage.Suits onePage.pageSize := by decide
  have hrun : CutRun onePage.pageSize movedBefore laterEvents := ⟨.inr ⟨[_, _], _, rfl, trivial⟩, by decide, by decide⟩
  obtain ⟨session, hopen, hlive⟩ := unmoved_records_live_once "store" .exactDefault (by decide) hsuits hrun
  obtain ⟨found, hfound, -, hcount, hkept, -⟩ := hlive .exactDefault onePage hsuits rfl
  let record : StoredRecord :=
    { latest := secondId, former := [firstId], capacity := 9, payload := some ⟨#[1, 2, 3, 4, 5, 6, 7, 8, 9]⟩ }
  have hrecord : record ∈ (runAll Store.respond movedBefore (.empty onePage.pageSize .exactDefault)).2.records :=
    List.mem_singleton.2 rfl
  have hlast := Store.mem_records_runAll hrecord fun event hevent id _ => not_changes_laterEvents event hevent id
  obtain ⟨payload, -, hids, hslots⟩ := hkept record hrecord ⟨record, hlast, rfl, nofun⟩
  refine ⟨session, hopen, found, hfound, Nat.le_trans hcount (by decide +kernel), (hids firstId (by decide)).1,
    (hids secondId (by decide)).1, fun slot hslot hid capacity length origin hheader => ?_⟩
  have hmem : slot.id ∈ record.ids := by
    rcases hid with hid | hid <;> rw [hid] <;> decide
  exact (hslots slot hslot hmem capacity length origin hheader).1

end Session

end RecordStore
