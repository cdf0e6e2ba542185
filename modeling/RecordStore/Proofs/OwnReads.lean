import RecordStore.Proofs.CalmEvents
import RecordStore.Proofs.Salvage

/-!
# Reads of a scan

A scan reads the header of the slot that it has come to and, if a record lives there, its payload.  Where a scan ends
with an error of the storage, one of these reads has failed: a step of it (`Walks.scanSlot_eq_io`) as well as one that
counts all slots (`Walks.countSlots_eq_io`).  They lie inside the storage, so none of them fails on a storage that does
not fail, nor on one whose reads do not (`Unreliable.not_failsToRead`).
-/

namespace RecordStore

open StorageView

variable {σ : Type} [PagedStorage σ] {contract : StorageContract σ} {cause : StorageError}

namespace StorageContract

/-- A storage that is in use does not give these bytes of it. -/
structure FailsToRead (contract : StorageContract σ) (storage : σ) (offset length : Nat) (cause : StorageError) :
    Prop where
  usable : contract.Usable storage
  inside : offset + length ≤ (contract.image storage).size
  failed : (PagedStorage.read offset length storage).1 = .error cause

theorem FailsToRead.fallible {storage : σ} {offset length : Nat}
    (h : contract.FailsToRead storage offset length cause) : contract.fallible := by
  have hread := (contract.read h.usable h.inside).2
  rw [h.failed] at hread
  exact hread.1

end StorageContract

/-- In front of a storage that does not fail no read does, unless it is meant to. -/
theorem Unreliable.not_failsToRead (hreliable : ¬contract.fallible) {storage : Unreliable σ} {offset length : Nat} :
    ¬(readableContract contract).FailsToRead storage offset length cause := by
  rintro ⟨⟨husable, hreadable⟩, hinside, hfailed⟩
  rw [read_eq hreadable] at hfailed
  exact hreliable (StorageContract.FailsToRead.fallible ⟨husable.1, hinside, hfailed⟩)

namespace Region

variable {region : Region} {img : Image} {storage storage' : σ} {offset : Nat} {header : SlotHeader}

/-- How many bytes of the slot at `offset` are read for its header. -/
def headerLength (region : Region) (offset : Nat) : Nat := min (region.pageEnd offset - offset) SlotHeader.fullSize

theorem pageEnd_le (hwf : img.WellFormed) (hpageSize : region.pageSize = img.pageSize) (hoffset : offset < img.size) :
    region.pageEnd offset ≤ img.size := by
  rw [region.pageEnd_eq, hpageSize]
  exact endOfPage_le hoffset hwf.pages

/-- Looking at a slot is one read: it fails for an error of the storage if that read does. -/
private theorem slotAt_cases (region : Region) (offset : Nat) (storage : σ) :
    match PagedStorage.read offset (region.headerLength offset) storage with
    | (.error cause, after) => region.slotAt offset storage = (.error (.io cause), after)
    | (.ok _, after) => (∃ fault, region.slotAt offset storage = (.error (.corruption offset fault), after)) ∨
        ∃ header, region.slotAt offset storage = (.ok header, after) ∧ header.Valid offset ∧
          offset + header.slotSize ≤ region.pageEnd offset := by
  unfold slotAt headerLength
  dsimp only
  rw [bind_apply, SlotM.onStorage_apply]
  rcases PagedStorage.read offset (min (region.pageEnd offset - offset) SlotHeader.fullSize) storage with
    ⟨cause | raw, after⟩
  · rfl
  · dsimp only [Except.mapError]
    cases hdecode : SlotHeader.decode offset raw.data.toList with
    | error fault => exact .inl ⟨fault, rfl⟩
    | ok header =>
      by_cases hover : region.pageEnd offset < offset + header.slotSize ∨ region.stop < offset + header.slotSize
      · exact .inl ⟨.overrun header.slotSize, by dsimp only; rw [if_pos hover]; rfl⟩
      · refine .inr ⟨header, by dsimp only; rw [if_neg hover]; rfl, (SlotHeader.decode_facts hdecode).1, by omega⟩

theorem slotAt_eq_io (h : (region.slotAt offset storage).1 = .error (.io cause)) :
    (PagedStorage.read offset (region.headerLength offset) storage).1 = .error cause := by
  have hcases := region.slotAt_cases offset storage
  generalize PagedStorage.read offset (region.headerLength offset) storage = answer at hcases ⊢
  rcases answer with ⟨failure | raw, after⟩
  · rw [hcases] at h
    simpa using h
  · rcases hcases with ⟨fault, hslot⟩ | ⟨header, hslot, -⟩
    · rw [hslot] at h
      cases h
    · rw [hslot] at h
      cases h

/-- A slot that was looked at ends inside its page. -/
theorem slotAt_eq_ok (h : region.slotAt offset storage = (.ok header, storage')) :
    (∃ raw, PagedStorage.read offset (region.headerLength offset) storage = (.ok raw, storage')) ∧
      header.Valid offset ∧ offset + header.slotSize ≤ region.pageEnd offset := by
  have hcases := region.slotAt_cases offset storage
  generalize PagedStorage.read offset (region.headerLength offset) storage = answer at hcases ⊢
  rcases answer with ⟨failure | raw, after⟩
  · rw [hcases] at h
    cases h
  · rcases hcases with ⟨fault, hslot⟩ | ⟨header', hslot, hvalid, hend⟩
    · rw [hslot] at h
      cases h
    · rw [hslot] at h
      cases h
      exact ⟨⟨raw, rfl⟩, hvalid, hend⟩

/-- A walk along the slots from `offset` on comes to one whose header it cannot read. -/
inductive WalkFails (contract : StorageContract σ) (region : Region) (cause : StorageError) : σ → Nat → Prop
  | here {storage : σ} {offset : Nat} (hlt : offset < region.stop)
      (hread : contract.FailsToRead storage offset (region.headerLength offset) cause) :
      WalkFails contract region cause storage offset
  | behind {storage storage' : σ} {offset : Nat} {header : SlotHeader} (hlt : offset < region.stop)
      (hslot : region.slotAt offset storage = (.ok header, storage'))
      (hrest : WalkFails contract region cause storage' (offset + header.slotSize)) :
      WalkFails contract region cause storage offset

theorem WalkFails.exists_read (h : region.WalkFails contract cause storage offset) :
    ∃ storage offset length, contract.FailsToRead storage offset length cause := by
  induction h with
  | here _ hread => exact ⟨_, _, _, hread⟩
  | behind _ _ _ ih => exact ih

section

variable (husable : contract.Usable storage) (hpageSize : region.pageSize = (contract.image storage).pageSize)

include husable hpageSize

theorem failsToRead_header (hoffset : offset < (contract.image storage).size)
    (h : (region.slotAt offset storage).1 = .error (.io cause)) :
    contract.FailsToRead storage offset (region.headerLength offset) cause := by
  have hend := pageEnd_le (contract.wellFormed husable) hpageSize hoffset
  refine ⟨husable, ?_, slotAt_eq_io h⟩
  unfold headerLength
  omega

/-- After a look at a slot the storage is in use and holds what it held. -/
theorem usable_slotAt (hoffset : offset < (contract.image storage).size)
    (h : region.slotAt offset storage = (.ok header, storage')) :
    contract.Usable storage' ∧ contract.image storage' = contract.image storage := by
  have hend := pageEnd_le (contract.wellFormed husable) hpageSize hoffset
  have hinside : offset + region.headerLength offset ≤ (contract.image storage).size := by
    unfold headerLength
    omega
  obtain ⟨husable', hpost⟩ := contract.read husable hinside
  obtain ⟨⟨raw, hread⟩, -⟩ := slotAt_eq_ok h
  rw [hread] at husable' hpost
  exact ⟨husable', hpost.2⟩

/-- A census ends with an error of the storage only where it cannot read a header. -/
theorem takeCensus_eq_io {census : Census} (hbound : region.stop ≤ (contract.image storage).size)
    (h : (region.takeCensus census storage).1 = .error (.io cause)) :
    region.WalkFails contract cause storage census.offset := by
  -- the slots that it gets over leave the storage as it is
  induction census using Region.takeCensus.induct region generalizing storage with
  | case1 census hlt ih =>
    rw [takeCensus, if_pos hlt, bind_apply] at h
    have hoffset := Nat.lt_of_lt_of_le hlt hbound
    rcases hslot : region.slotAt census.offset storage with ⟨e | header, after⟩
    · rw [hslot] at h
      obtain rfl : e = .io cause := by simpa using h
      exact .here hlt (failsToRead_header husable hpageSize hoffset (congrArg Prod.fst hslot))
    · rw [hslot] at h
      obtain ⟨husable', himage⟩ := usable_slotAt husable hpageSize hoffset hslot
      rw [← himage] at hpageSize hbound
      exact .behind hlt hslot (ih header husable' hpageSize hbound h)
  | case2 census hdone =>
    rw [takeCensus, if_neg hdone] at h
    cases h

end

end Region

namespace Session

variable {session : Session σ} {layout : Layout} {cursor : Cursor}

/-- Counting the slots comes to one whose header cannot be read. -/
def CountFails (contract : StorageContract σ) (session : Session σ) (cause : StorageError) : Prop :=
  session.region.WalkFails contract cause session.storage FileHeader.size

/-- A step of a scan cannot read the header of the slot that it has come to, or the payload there. -/
inductive StepFails (contract : StorageContract σ) (cursor : Cursor) (session : Session σ) (cause : StorageError) : Prop
  | header (hread : contract.FailsToRead session.storage cursor.offset
      (Region.headerLength { pageSize := session.pageSize, stop := cursor.stop } cursor.offset) cause)
  | payload {capacity length : Nat} {origin : Option RecordId} {storage : σ}
      (hslot : Region.slotAt { pageSize := session.pageSize, stop := cursor.stop } cursor.offset session.storage =
        (.ok (.live capacity length origin), storage))
      (hread : contract.FailsToRead storage (cursor.offset + SlotHeader.fullSize) length cause)

theorem StepFails.exists_read (h : session.StepFails contract cursor cause) :
    ∃ storage offset length, contract.FailsToRead storage offset length cause := by
  cases h with
  | header hread => exact ⟨_, _, _, hread⟩
  | payload _ hread => exact ⟨_, _, _, hread⟩

namespace Walks

section

variable (husable : contract.Usable session.storage) (h : (session.seen contract.toStorageView).Walks layout)

include husable h

/-- A count ends with an error of the storage only where it cannot read a header. -/
theorem countSlots_eq_io (hcount : (countSlots session).1 = .error (.io cause)) :
    session.CountFails contract cause := by
  have hopened : session.closed = false := h.opened
  unfold countSlots at hcount
  rw [ensureOpen_bind hopened, get_bind_apply] at hcount
  unfold onSlots Region.count at hcount
  rw [bind_apply] at hcount
  have hcensus : (session.region.takeCensus .start session.storage).1 = .error (.io cause) := by
    rcases htaken : session.region.takeCensus .start session.storage with ⟨e | census, after⟩
    · rw [htaken] at hcount
      simpa using hcount
    · rw [htaken] at hcount
      cases hcount
  exact Region.takeCensus_eq_io husable h.pageSize h.tracks.bound hcensus

/-- A step of a scan ends with an error of the storage only where it cannot read what it has to. -/
theorem scanSlot_eq_io (hoffset : cursor.offset < session.counters.size)
    (hscan : (scanSlot cursor session).1 = .error (.io cause)) : session.StepFails contract cursor cause := by
  have hopened : session.closed = false := h.opened
  have hinside : cursor.offset < (contract.image session.storage).size := Nat.lt_of_lt_of_le hoffset h.tracks.bound
  let region : Region := { pageSize := session.pageSize, stop := cursor.stop }
  have hpageSize : region.pageSize = (contract.image session.storage).pageSize := h.pageSize
  unfold scanSlot at hscan
  rw [ensureOpen_bind hopened, get_bind_apply, bind_apply] at hscan
  unfold onSlots at hscan
  rcases hslot : region.slotAt cursor.offset session.storage with ⟨e | header, storage⟩
  · rw [hslot] at hscan
    obtain rfl : e = .io cause := by simpa using hscan
    exact .header (Region.failsToRead_header husable hpageSize hinside (congrArg Prod.fst hslot))
  · rw [hslot] at hscan
    dsimp only at hscan
    cases hid : RecordId.ofOffset? cursor.offset with
    | none =>
      rw [hid] at hscan
      cases hscan
    | some id =>
      rw [hid] at hscan
      cases header with
      | live capacity length origin =>
        -- the payload lies inside the slot
        obtain ⟨husable', himage⟩ := Region.usable_slotAt husable hpageSize hinside hslot
        obtain ⟨-, hvalid, hend⟩ := Region.slotAt_eq_ok hslot
        have hpayload := hvalid.payload_le
        have hpage := Region.pageEnd_le (contract.wellFormed husable) hpageSize hinside
        refine .payload hslot ⟨husable', by rw [himage]; omega, ?_⟩
        dsimp only at hscan
        rw [bind_apply, SlotM.onStorage_apply] at hscan
        rcases hread : PagedStorage.read (cursor.offset + SlotHeader.fullSize) length storage with
          ⟨failure | bytes, after⟩
        · rw [hread] at hscan
          simpa [Except.mapError] using hscan
        · rw [hread] at hscan
          cases hscan
      | moved capacity target => cases hscan
      | deleted capacity length relocated => cases hscan
      | padding capacity => cases hscan

end

end Walks

end Session

end RecordStore
