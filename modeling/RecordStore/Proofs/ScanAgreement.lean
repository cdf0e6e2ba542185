import RecordStore.Proofs.SafeSessions
import RecordStore.Proofs.SlotWalks

/-!
# Two scans of the same bytes

A scan that lists the slots one by one, with their payloads, and a count that only adds up their headers, on the same
bytes whatever they are.  As long as every place in the region has an identifier, both come by the same slots and end
in the same way (`scans_agree`): at the end of the region, with slots that fill it without a gap (`ScannedSlot.Tile`)
and add up to the counters, or at the same slot, which cannot be read.
-/

namespace RecordStore

open Bytes StorageView

/-- The slots follow one another from `start` to `stop` without a gap, each inside of its page. -/
inductive ScannedSlot.Tile (pageSize : Nat) : Nat → List ScannedSlot → Nat → Prop
  | nil (start : Nat) : Tile pageSize start [] start
  | cons {slot : ScannedSlot} {rest : List ScannedSlot} {stop : Nat}
      (hpage : slot.id.offset + slot.header.slotSize ≤ endOfPage pageSize slot.id.offset)
      (hrest : Tile pageSize (slot.id.offset + slot.header.slotSize) rest stop) :
      Tile pageSize slot.id.offset (slot :: rest) stop

namespace ScannedSlot.Tile

variable {pageSize start stop : Nat} {slots : List ScannedSlot}

theorem first (h : Tile pageSize start slots stop) : start ∈ slots.map (·.id.offset) ++ [stop] := by
  cases h <;> simp

/-- Where one of the slots ends the next one starts, if it is not the last. -/
theorem next (h : Tile pageSize start slots stop) {slot : ScannedSlot} (hslot : slot ∈ slots) :
    slot.id.offset + slot.header.slotSize ∈ slots.map (·.id.offset) ++ [stop] := by
  induction h with
  | nil => cases hslot
  | cons hpage hrest ih =>
    rcases List.mem_cons.1 hslot with rfl | hslot
    · exact List.mem_cons_of_mem _ hrest.first
    · exact List.mem_cons_of_mem _ (ih hslot)

end ScannedSlot.Tile

namespace Session

variable {σ : Type} [PagedStorage σ] {contract : StorageContract σ} {session : Session Image}

/-- A step of a scan ends as reading the header does, unless a call fails. -/
theorem scanSlot_ends (hopened : session.closed = false) {cursor : Cursor}
    (hfits : ({ pageSize := session.pageSize, stop := cursor.stop } : Region).Fits session.storage)
    (hoffset : cursor.offset < cursor.stop) {id : RecordId} (hid : id.offset = cursor.offset) :
    Performs contract.toStorageView (scanSlot cursor) session fun result _ =>
      result.map (·.header) =
          ({ pageSize := session.pageSize, stop := cursor.stop } : Region).slotSeen session.storage cursor.offset ∨
        contract.fallible ∧ ∃ cause, result = .error (.io cause) := by
  unfold scanSlot
  refine Performs.step (Performs.ensureOpen hopened ?_)
  refine Performs.get_bind fun actual hactual => ?_
  have hpageSize : actual.pageSize = session.pageSize := by
    rw [← hactual]
    rfl
  rw [hpageSize]
  refine Performs.step (Performs.onSlots ((Region.slotAt_reads hfits hoffset σ contract).mono ?_))
  rintro result _ ⟨rfl, rfl | ⟨hfallible, cause, rfl⟩⟩
  · cases hseen : Region.slotSeen _ session.storage cursor.offset with
    | error e => exact .inl rfl
    | ok header =>
      obtain ⟨hdecode, -, hstop, -⟩ := Region.slotSeen_eq_ok hseen
      have hvalid := (SlotHeader.decode_facts hdecode).1
      have hbound : cursor.stop ≤ session.storage.size := hfits.bound
      dsimp only at hstop ⊢
      rw [← hid, RecordId.ofOffset?_offset]
      cases header with
      | live capacity length origin =>
        have hpayload := hvalid.payload_le
        have hread : id.offset + SlotHeader.fullSize + length ≤ session.storage.size := by omega
        refine Performs.step (Performs.onSlots ((contract.read_answers hread).mono ?_))
        rintro _ _ ⟨rfl, rfl | ⟨hfallible, cause, rfl⟩⟩
        · exact Performs.pure (.inl rfl)
        · exact .inr ⟨hfallible, cause, rfl⟩
      | moved | deleted | padding => exact Performs.pure (.inl rfl)
  · exact .inr ⟨hfallible, cause, rfl⟩

/-- What a scan has listed while a count came from `census` to `census'`. -/
structure Lists (region : Region) (img : Image) (census census' : Census) (slots : List ScannedSlot) : Prop where
  counts : region.Counts img census census'
  tile : ScannedSlot.Tile region.pageSize census.offset slots census'.offset
  stands : ∀ slot ∈ slots, slot.StandsIn img region.stop
  seen : ∀ slot ∈ slots, region.slotSeen img slot.id.offset = .ok slot.header
  counters : census'.counters =
    { (slots.map (·.header)).foldl Counters.account census.counters with size := census'.offset }

/-- The size is no part of what is added up. -/
private theorem foldl_account_size (headers : List SlotHeader) (counters : Counters) (size size' : Nat) :
    { headers.foldl Counters.account { counters with size } with size := size' } =
      { headers.foldl Counters.account counters with size := size' } := by
  induction headers generalizing counters with
  | nil => rfl
  | cons header headers ih =>
    have haccount : Counters.account { counters with size } header = { counters.account header with size } := by
      rcases header with _ | _ | ⟨_, _, _ | _⟩ | _ <;> rfl
    rw [List.foldl_cons, List.foldl_cons, haccount, ih]

namespace Lists

variable {region : Region} {img : Image} {census census' : Census} {slots : List ScannedSlot}

theorem nil (region : Region) (img : Image) (census : Census) : Lists region img census census [] :=
  ⟨.refl census, .nil _, nofun, nofun, rfl⟩

theorem cons {slot : ScannedSlot} (hoffset : slot.id.offset = census.offset)
    (hseen : region.slotSeen img census.offset = .ok slot.header) (hstands : slot.StandsIn img region.stop)
    (h : Lists region img (census.count slot.header) census' slots) :
    Lists region img census census' (slot :: slots) := by
  obtain ⟨-, hpage, hstop, -⟩ := Region.slotSeen_eq_ok hseen
  have hpos := slot.header.slotSize_pos
  refine ⟨.step (by omega) hseen h.counts, ?_, ?_, ?_, ?_⟩
  · have htile : ScannedSlot.Tile region.pageSize (census.offset + slot.header.slotSize) slots census'.offset := h.tile
    rw [← hoffset] at hpage htile ⊢
    exact .cons hpage htile
  · exact List.forall_mem_cons.2 ⟨hstands, h.stands⟩
  · exact List.forall_mem_cons.2 ⟨by rw [hoffset, hseen], h.seen⟩
  · rw [h.counters]
    exact foldl_account_size _ _ _ _

end Lists

/-- A scan goes on to the end of the region or to a slot that cannot be read. -/
private theorem forEachFrom_lists (hcalls : ¬contract.fallible) {actual : Session σ}
    (husable : contract.Usable actual.storage) (h : (actual.seen contract.toStorageView).Sound) {cursor : Cursor}
    (hstop : cursor.stop = actual.region.stop) (hlarge : cursor.stop ≤ 2 ^ 35) {census : Census}
    (hcensus : census.offset = cursor.offset) (hreached : Region.Reached census.offset cursor.stop)
    (seen : List ScannedSlot) :
    ∃ failure slots census',
      (forEachFrom cursor (fun slot seen => return (true, slot :: seen)) seen actual).1 =
          (failure, slots.reverse ++ seen) ∧
        Lists actual.region (contract.image actual.storage) census census' slots ∧
        (failure = none ∧ census'.offset = actual.region.stop ∨ ∃ e, failure = some e ∧
          census'.offset < actual.region.stop ∧
            actual.region.slotSeen (contract.image actual.storage) census'.offset = .error e) := by
  -- along the cursor, with a census of the slots that were passed
  induction hleft : cursor.stop - cursor.offset using Nat.strongRecOn generalizing actual cursor census seen with
  | ind left ih =>
    by_cases hlt : cursor.offset < cursor.stop
    · have hfits : ({ pageSize := (actual.seen contract.toStorageView).pageSize, stop := cursor.stop } : Region).Fits
          (actual.seen contract.toStorageView).storage := hstop ▸ h.fits
      have hlow : 0 < cursor.offset := hcensus ▸ Nat.lt_of_lt_of_le (by decide) hreached.start
      obtain ⟨id, hid⟩ := RecordId.exists_offset hlow (Nat.lt_of_lt_of_le hlt hlarge) (hcensus ▸ hreached.aligned)
      obtain ⟨husable', hsame, hslot⟩ := scanSlot_keeps h.opened hfits hlt actual husable rfl
      obtain ⟨-, hends⟩ := scanSlot_ends h.opened hfits hlt hid actual husable rfl
      have hends := hends.resolve_right fun hfailed => hcalls hfailed.1
      rw [show ({ pageSize := _, stop := cursor.stop } : Region) = actual.region by rw [hstop]; rfl] at hends
      rw [forEachFrom_of_lt _ hlt]
      rcases hstep : scanSlot cursor actual with ⟨e | slot, after⟩
      · rw [hstep] at hends
        exact ⟨some e, [], census, rfl, .nil _ _ census, .inr ⟨e, rfl, by omega, hcensus ▸ hends.symm⟩⟩
      · rw [hstep] at husable' hsame hslot hends
        obtain ⟨hoffset, hstands⟩ := hslot slot rfl
        have himage : contract.image after.storage = contract.image actual.storage :=
          congrArg (fun s : Session Image => s.storage) hsame
        have hregion : after.region = actual.region := congrArg (fun s : Session Image => s.region) hsame
        have hseen : actual.region.slotSeen (contract.image actual.storage) census.offset = .ok slot.header :=
          hcensus ▸ hends.symm
        obtain ⟨-, -, hend, -⟩ := Region.slotSeen_eq_ok hseen
        have hpos := slot.header.slotSize_pos
        let next : Cursor := { cursor with offset := cursor.offset + slot.header.slotSize }
        have hless : next.stop - next.offset < left := by
          change cursor.stop - (cursor.offset + slot.header.slotSize) < left
          omega
        have hnextStop : next.stop = after.region.stop := by
          rw [hregion]
          exact hstop
        have hnextCensus : (census.count slot.header).offset = next.offset :=
          congrArg (· + slot.header.slotSize) hcensus
        rw [← hsame] at h
        obtain ⟨failure, slots, census', hscan, hlists, hfailure⟩ :=
          ih _ hless husable' h hnextStop hlarge hnextCensus (hreached.count (hstop ▸ hend)) (slot :: seen) rfl
        rw [himage, hregion] at hlists hfailure
        refine ⟨failure, slot :: slots, census', ?_, hlists.cons (hoffset.trans hcensus.symm) hseen (hstop ▸ hstands),
          hfailure⟩
        change (forEachFrom next _ (slot :: seen) after).1 = _
        rw [hscan, List.reverse_cons, List.append_assoc]
        rfl
    · rw [forEachFrom, if_neg hlt]
      have hend : census.offset = actual.region.stop := by
        have hle := hreached.stop
        omega
      exact ⟨none, [], census, rfl, .nil _ _ census, .inl ⟨rfl, hend⟩⟩

/-- What cannot be gone on with: the end of the region, or a slot that cannot be read. -/
def Halts (region : Region) (img : Image) (offset : Nat) : Prop :=
  offset < region.stop → ∀ header, region.slotSeen img offset ≠ .ok header

/-- The full walk comes by the slots that were listed and by no others. -/
private theorem Lists.visits_iff {region : Region} {img : Image} {census : Census} {slots : List ScannedSlot}
    (h : Lists region img .start census slots) (hends : Halts region img census.offset) (offset : Nat) :
    region.Visits img offset ↔ offset ∈ slots.map (·.id.offset) ++ [census.offset] := by
  have htile : ScannedSlot.Tile region.pageSize FileHeader.size slots census.offset := h.tile
  constructor
  · intro hvisits
    induction hvisits with
    | first => exact htile.first
    | @next offset header _ hlt hseen ih =>
      rcases List.mem_append.1 ih with hlisted | hlast
      · obtain ⟨slot, hslot, rfl⟩ := List.mem_map.1 hlisted
        obtain rfl : slot.header = header := Except.ok.inj ((h.seen slot hslot).symm.trans hseen)
        exact htile.next hslot
      · obtain rfl := List.mem_singleton.1 hlast
        exact absurd hseen (hends hlt header)
  · intro hlisted
    -- generalized to a scan that starts at any place the walk visits
    have hvisits : ∀ {start stop : Nat} {slots : List ScannedSlot},
        ScannedSlot.Tile region.pageSize start slots stop → region.Visits img start →
          (∀ slot ∈ slots, region.slotSeen img slot.id.offset = .ok slot.header) →
            ∀ offset ∈ slots.map (·.id.offset) ++ [stop], region.Visits img offset := by
      intro start stop slots htile hstart hseen
      induction htile with
      | nil =>
        rintro offset hoffset
        rwa [List.mem_singleton.1 hoffset]
      | @cons slot rest stop hpage hrest ih =>
        obtain ⟨hslot, hothers⟩ := List.forall_mem_cons.1 hseen
        refine List.forall_mem_cons.2 ⟨hstart, ih (hstart.next ?_ hslot) hothers⟩
        obtain ⟨-, -, hstop, -⟩ := Region.slotSeen_eq_ok hslot
        have hpos := slot.header.slotSize_pos
        omega
    exact hvisits htile .first h.seen offset hlisted

/-- Two walks that start together and cannot go on have come equally far. -/
private theorem eq_of_halts {region : Region} {img : Image} {census left right : Census}
    (h : region.Counts img census left) (h' : region.Counts img census right) (hleft : Halts region img left.offset)
    (hright : Halts region img right.offset) : left = right := by
  rcases h.linear h' with hrest | hrest
  · cases hrest with
    | refl => rfl
    | step hlt hseen _ => exact absurd hseen (hleft hlt _)
  · cases hrest with
    | refl => rfl
    | step hlt hseen _ => exact absurd hseen (hright hlt _)

/-- Whatever the storage holds: the scan that lists the slots and the count come by the same slots, which follow one
another without a gap, each inside of its page.  Both come to the end of the region, and then the slots listed add up
to what was counted; or both end with the same error, at the slot behind those listed. -/
theorem scans_agree {session : Session σ} (h : InUse contract session) (hcalls : ¬contract.fallible)
    (hlarge : session.counters.size ≤ 2 ^ 35) :
    let img := contract.image session.storage
    let region := session.region
    ∃ failure slots reached, (records session).1 = (failure, slots) ∧
      ScannedSlot.Tile region.pageSize FileHeader.size slots reached ∧
      (∀ slot ∈ slots, slot.StandsIn img region.stop) ∧
      (∀ offset, region.Visits img offset ↔ offset ∈ slots.map (·.id.offset) ++ [reached]) ∧
      (failure = none ∧ reached = session.counters.size ∧ (countSlots session).1 =
          .ok { (slots.map (·.header)).foldl Counters.account Counters.zero with size := reached } ∨
        reached < session.counters.size ∧ ∃ fault, failure = some (.corruption reached fault) ∧
          (countSlots session).1 = .error (.corruption reached fault)) := by
  obtain ⟨husable, hsound⟩ := h.sound
  intro img region
  obtain ⟨failure, slots, census, hscan, hlists, hfailure⟩ := forEachFrom_lists hcalls husable hsound
    (show session.cursor.stop = session.region.stop from rfl) hlarge
    (show Census.start.offset = session.cursor.offset from rfl) ⟨Nat.le_refl _, rfl, hsound.fits.start⟩ []
  obtain ⟨census', counted, hcounts, hreads, hcounted⟩ := Region.count_ends hsound.fits
  have hhalts : Halts region img census.offset := by
    intro hlt header hseen
    rcases hfailure with ⟨-, hend⟩ | ⟨e, -, -, hseen'⟩
    · exact Nat.ne_of_lt hlt hend
    · cases hseen.symm.trans hseen'
  have hhalts' : Halts region img census'.offset := by
    intro hlt header hseen
    rcases hcounted with ⟨hend, -⟩ | ⟨-, e, hseen', -⟩
    · exact Nat.ne_of_lt hlt hend
    · cases hseen.symm.trans hseen'
  -- the count has come equally far
  obtain rfl := eq_of_halts hlists.counts hcounts hhalts hhalts'
  have hcount : (countSlots session).1 = counted :=
    (countSlots_answers husable hsound.opened hreads).2.resolve_right fun hfailed => hcalls hfailed.1
  refine ⟨failure, slots, census.offset, ?_, hlists.tile, hlists.stands, hlists.visits_iff hhalts, ?_⟩
  · change ((forEachFrom session.cursor _ [] session).1.1, (forEachFrom session.cursor _ [] session).1.2.reverse) = _
    rw [hscan, List.append_nil, List.reverse_reverse]
  · rcases hfailure with ⟨rfl, hend⟩ | ⟨e, rfl, hlt, hseen⟩
    · rcases hcounted with ⟨-, rfl⟩ | ⟨hlt, -⟩
      · refine .inl ⟨rfl, hend, ?_⟩
        rw [hcount, hlists.counters]
        exact congrArg Except.ok (foldl_account_size _ Counters.zero FileHeader.size _)
      · exact absurd hend (Nat.ne_of_lt hlt)
    · rcases hcounted with ⟨hend, -⟩ | ⟨-, e', hseen', rfl⟩
      · exact absurd hend (Nat.ne_of_lt hlt)
      · obtain rfl : e = e' := Except.error.inj (hseen.symm.trans hseen')
        obtain ⟨fault, rfl⟩ := Region.slotSeen_eq_error hseen
        exact .inr ⟨hlt, fault, rfl, hcount⟩

/-- The second slot claims to be larger than the file. -/
theorem scans_agree_in_memory : ∃ session, openOn damagedMemory .exactDefault .default = .ok session ∧
    session.counters.size ≤ 2 ^ 35 ∧ ∃ slot, slot.id = firstId ∧
      (records session).1 = (some (.corruption 88 (.overrun 4294967312)), [slot]) ∧
      (countSlots session).1 = .error (.corruption 88 (.overrun 4294967312)) := by
  have hrun : (openOn damagedMemory .exactDefault .default).toOption.map (fun session =>
      (session.counters.size, (records session).1.1, (records session).1.2.map (·.id))) =
        some (256, some (.corruption 88 (.overrun 4294967312)), [firstId]) := by
    decide +kernel
  rcases hopen : openOn damagedMemory .exactDefault .default with e | session
  · rw [hopen] at hrun
    cases hrun
  · rw [hopen] at hrun
    obtain ⟨hsize, hfailed, hlisted⟩ : _ ∧ _ ∧ _ := by simpa using Option.some.inj hrun
    have hlarge : session.counters.size ≤ 2 ^ 35 := hsize ▸ (by decide)
    have huse : InUse Memory.contract session := .opened usable_damagedMemory hopen
    obtain ⟨failure, slots, reached, hrecords, -, -, -, hends⟩ := scans_agree huse id hlarge
    rw [hrecords] at hfailed hlisted
    obtain ⟨slot, rfl, hid⟩ : ∃ slot, slots = [slot] ∧ slot.id = firstId := hlisted
    obtain rfl : failure = _ := hfailed
    rcases hends with ⟨hnone, -⟩ | ⟨-, fault, hfailure, hcount⟩
    · cases hnone
    · cases hfailure
      exact ⟨session, rfl, hlarge, slot, hid, hrecords, hcount⟩

end Session

end RecordStore
