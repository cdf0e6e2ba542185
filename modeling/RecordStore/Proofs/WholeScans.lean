import RecordStore.Proofs.ForeignFiles

/-!
# Scans that come to their end

A scan that comes to its end has seen every slot of the region, whoever wrote the file (`records_tracks`).  So a session
whose counters are those of a scan can be told by what it lists: a request that succeeds keeps to the slots, and of the
records it changes only the one that its identifier leads to (`successful_request_keeps_to_slots`).  It does so because
it takes the origin of that record for a slot.  Where the origin names a place inside of a payload that looks like a
redirect, that payload is overwritten (`forged_origin_spoils_record`).
-/

namespace RecordStore

open Bytes StorageView

/-- The redirects among the scanned slots lead from `id` to the slot `last`, which is none. -/
inductive ScannedSlot.LeadsTo (scanned : List ScannedSlot) : RecordId → ScannedSlot → Prop
  | here {slot : ScannedSlot} (hslot : slot ∈ scanned) (h : slot.header.redirect? = none) : LeadsTo scanned slot.id slot
  | hop {slot last : ScannedSlot} {target : RecordId} (hslot : slot ∈ scanned)
      (h : slot.header.redirect? = some target) (hrest : LeadsTo scanned target last) : LeadsTo scanned slot.id last

theorem ScannedSlot.LeadsTo.mem {scanned : List ScannedSlot} {id : RecordId} {last : ScannedSlot}
    (h : LeadsTo scanned id last) : last ∈ scanned := by
  induction h with
  | here hslot => exact hslot
  | hop _ _ _ ih => exact ih

namespace Layout

variable {layout : Layout} {id : RecordId}

/-- What was found is what the scanned slots lead to. -/
theorem Finds.leadsTo {found : Resolution} (h : layout.Finds id found) :
    ScannedSlot.LeadsTo (layout.ids.map layout.scanned) id (layout.scanned found.id) := by
  obtain ⟨last, header, passed⟩ := found
  obtain ⟨hmem, -, hleads, hpassed⟩ := h
  dsimp only at hmem hleads hpassed ⊢
  clear header
  induction hleads with
  | here hnone => exact .here (List.mem_map_of_mem hmem) hnone
  | @hop id target last capacity passed hmoved _ ih =>
    have hid : id ∈ layout.ids := hpassed ⟨id, capacity⟩ List.mem_cons_self
    have hredirect : (layout.scanned id).header.redirect? = some target := by
      change (layout.header id).redirect? = _
      rw [hmoved]
      rfl
    exact .hop (List.mem_map_of_mem hid) hredirect
      (ih hmem fun redirect hredirect => hpassed redirect (List.mem_cons_of_mem _ hredirect))

theorem map_id_scanned (layout : Layout) : (layout.ids.map layout.scanned).map (·.id) = layout.ids := by
  rw [List.map_map]
  exact List.map_id _

theorem scanned_congr {layout' : Layout} (h : layout'.slot id = layout.slot id) :
    layout'.scanned id = layout.scanned id := by
  simp only [scanned, header, h]

/-- What was scanned is what the layout has to show for it. -/
theorem scanned_push_self {img : Image} {stop : Nat} {scanned : ScannedSlot} (h : scanned.StandsIn img stop) :
    (layout.push scanned.id { header := scanned.header, payload := scanned.payload.getD .empty }).scanned scanned.id =
      scanned := by
  obtain ⟨id, header, payload⟩ := scanned
  have hrecord : payload.isSome ↔ header.state = .live := h.record
  simp only [Layout.scanned, header_push_self, slot_push_self]
  cases header with
  | live capacity length origin =>
    obtain ⟨bytes, rfl⟩ := Option.isSome_iff_exists.1 (hrecord.2 rfl)
    rfl
  | moved | deleted | padding =>
    have hnone : payload = none := by simpa [SlotHeader.state] using hrecord
    rw [hnone]

end Layout

namespace Session

variable {σ : Type} [PagedStorage σ] {contract : StorageContract σ} {actual : Session σ}

/-- The slots that a scan has come through make up a layout. -/
private theorem forEachFrom_tracks (husable : contract.Usable actual.storage)
    (h : (actual.seen contract.toStorageView).Sound) {cursor : Cursor} (hstop : cursor.stop = actual.counters.size)
    (hle : cursor.offset ≤ cursor.stop) {layout : Layout}
    (htracks : layout.Tracks (contract.image actual.storage) cursor.offset) {seen : List ScannedSlot}
    (hseen : seen.reverse = layout.ids.map layout.scanned) {scanned : List ScannedSlot}
    (hscan : (forEachFrom cursor (fun slot seen => return (true, slot :: seen)) seen actual).1 = (none, scanned)) :
    ∃ layout' : Layout, layout'.Tracks (contract.image actual.storage) cursor.stop ∧
      scanned.reverse = layout'.ids.map layout'.scanned := by
  induction hleft : cursor.stop - cursor.offset using Nat.strongRecOn generalizing actual cursor layout seen with
  | ind left ih =>
    by_cases hlt : cursor.offset < cursor.stop
    · have hfits : ({ pageSize := (actual.seen contract.toStorageView).pageSize, stop := cursor.stop } : Region).Fits
          (actual.seen contract.toStorageView).storage := hstop ▸ h.fits
      obtain ⟨husable', hsame, hslot⟩ := scanSlot_keeps h.opened hfits hlt actual husable rfl
      rw [forEachFrom_of_lt _ hlt] at hscan
      rcases hstep : scanSlot cursor actual with ⟨e | slot, after⟩
      · rw [hstep] at hscan
        cases hscan
      · rw [hstep] at husable' hsame hslot hscan
        obtain ⟨hoffset, hstands⟩ := hslot slot rfl
        have himage : contract.image after.storage = contract.image actual.storage :=
          congrArg (fun s : Session Image => s.storage) hsame
        have hcounters : after.counters = actual.counters := congrArg (fun s => s.header.counters) hsame
        -- what was scanned goes behind the slots that were known so far
        have hpush := htracks.append hoffset hstands.slot
        have hpushed : (slot :: seen).reverse = (layout.push slot.id
            { header := slot.header, payload := slot.payload.getD .empty }).ids.map (layout.push slot.id
            { header := slot.header, payload := slot.payload.getD .empty }).scanned := by
          rw [Layout.ids_push, List.map_append, List.map_singleton, Layout.scanned_push_self hstands, List.reverse_cons,
            hseen]
          refine congrArg (· ++ [slot]) (List.map_congr_left fun other hother => ?_)
          have hne : other ≠ slot.id := by
            rintro rfl
            have := htracks.offset_lt hother
            omega
          exact (Layout.scanned_congr (Layout.slot_push_of_ne _ _ hne)).symm
        have hend := hstands.stop
        have hpos := slot.header.slotSize_pos
        rw [← himage] at hpush ⊢
        rw [← hsame] at h
        let next : Cursor := { cursor with offset := cursor.offset + slot.header.slotSize }
        have hnext : next.stop = after.counters.size := hstop.trans (congrArg Counters.size hcounters.symm)
        have hle' : next.offset ≤ next.stop := by
          rw [hoffset] at hend
          exact hend
        have hless : next.stop - next.offset < left := by
          change cursor.stop - (cursor.offset + slot.header.slotSize) < left
          omega
        exact @ih _ hless after husable' h next hnext hle' _ hpush _ hpushed hscan rfl
    · rw [forEachFrom, if_neg hlt] at hscan
      obtain rfl : seen = scanned := congrArg Prod.snd hscan
      have hend : cursor.offset = cursor.stop := by omega
      exact ⟨layout, hend ▸ htracks, hseen⟩

/-- A scan that comes to its end has seen all slots. -/
theorem records_tracks (husable : contract.Usable actual.storage) (h : (actual.seen contract.toStorageView).Sound)
    {scanned : List ScannedSlot} (hscan : (records actual).1 = (none, scanned)) :
    ∃ layout : Layout, (actual.seen contract.toStorageView).Walks layout ∧
      scanned = layout.ids.map layout.scanned := by
  have hrecords : (records actual).1 =
      (let found := (forEachFrom actual.cursor (fun slot seen => return (true, slot :: seen)) [] actual).1
      (found.1, found.2.reverse)) := rfl
  rw [hrecords] at hscan
  rcases hfound : (forEachFrom actual.cursor (fun slot seen => return (true, slot :: seen)) [] actual).1 with
    ⟨failure, seen⟩
  rw [hfound] at hscan
  obtain ⟨rfl, rfl⟩ := Prod.mk.inj hscan
  have hempty : Layout.empty.Tracks (contract.image actual.storage) FileHeader.size :=
    ⟨rfl, by simp [Layout.empty], by simp [Layout.empty], Nat.le_trans h.fits.start h.fits.bound⟩
  obtain ⟨layout, htracks, hlisted⟩ := forEachFrom_tracks husable h rfl h.fits.start hempty rfl hfound
  exact ⟨layout, ⟨h.opened, h.fits.pageSize, h.fits.supported, htracks⟩, hlisted⟩

variable {session : Session Image} {layout : Layout}

/-- What resolves is a slot to which the redirects lead. -/
theorem Walks.resolve_finds (h : session.Walks layout) (id : RecordId) :
    Performs contract.toStorageView (resolve id) session fun result after => after = session ∧
      ∀ last, result = .ok last → ∃ found, layout.Finds id found ∧ found.id = last := by
  unfold resolve
  refine Performs.step (Performs.ensureOpen h.opened (Performs.step ((h.resolveSlot_performs id).mono ?_)))
  rintro (e | found) _ ⟨rfl, hfound⟩
  · exact ⟨rfl, by rintro last ⟨⟩⟩
  · dsimp only
    cases found.header with
    | live capacity length origin =>
      refine Performs.pure ⟨rfl, ?_⟩
      rintro _ ⟨⟩
      exact ⟨found, hfound found rfl, rfl⟩
    | moved capacity target => exact Performs.throw ⟨rfl, by rintro last ⟨⟩⟩
    | deleted capacity length relocated => exact Performs.throw ⟨rfl, by rintro last ⟨⟩⟩
    | padding capacity => exact Performs.throw ⟨rfl, by rintro last ⟨⟩⟩

/-- A count gives the shares of the slots. -/
theorem Walks.countSlots_performs (h : session.Walks layout) :
    Performs contract.toStorageView countSlots session fun result after => after = session ∧
      (result = .ok { layout.totals layout.ids with size := session.counters.size } ∨
        contract.fallible ∧ ∃ cause, result = .error (.io cause)) := by
  refine contract.performs_of_wellFormed fun hwf => ?_
  unfold countSlots
  refine Performs.step (Performs.ensureOpen h.opened ?_)
  refine Performs.get_bind fun actual hactual => Performs.onSlots ?_
  rw [h.region_seen hactual]
  have hcount : contract.Answers _ session.storage _ := Region.count_answers hwf h.tracks
  refine hcount.mono ?_
  rintro result _ ⟨rfl, hresult⟩
  exact ⟨rfl, hresult⟩

/-- Whoever wrote a file: if a scan of it comes to its end and the counters are those of the scan, then a request that
succeeds keeps to the slots, provided that the origin of the record that it changes is a slot.  The slots that were
there start where they did and new ones are behind them, the file header in the file is as it was, the counters are
those of a scan again, and of the records only the one that the identifier leads to may have changed. -/
theorem successful_request_keeps_to_slots {session : Session σ} (h : InUse contract session)
    {scanned : List ScannedSlot} (hscan : (records session).1 = (none, scanned))
    (hcounters : (countSlots session).1 = .ok session.counters) {request : Request} (hflush : request ≠ .flush)
    (horigin : ∀ id ∈ request.record?, ∀ last, ScannedSlot.LeadsTo scanned id last → ∀ capacity length first,
      last.header = .live capacity length (some first) → ∃ slot ∈ scanned, slot.id = first)
    {reply : Reply} (hok : (perform request session).1 = .ok reply) :
    let after := (perform request session).2
    (∀ id last, (resolve id session).1 = .ok last → ∃ slot, ScannedSlot.LeadsTo scanned id slot ∧ slot.id = last) ∧
      ((countSlots after).1 = .ok after.counters ∨
        contract.fallible ∧ ∃ cause, (countSlots after).1 = .error (.io cause)) ∧
      (contract.image session.storage).AgreeOn (contract.image after.storage) 0 FileHeader.size ∧
      ∃ scanned', ((records after).1 = (none, scanned') ∨
          contract.fallible ∧ ∃ cause, (records after).1.1 = some (.io cause)) ∧
        (∃ fresh, scanned'.map (·.id) = scanned.map (·.id) ++ fresh ∧ ∀ id ∈ fresh, session.counters.size ≤ id.offset) ∧
        ∀ slot ∈ scanned, slot.header.state = .live →
          (∀ id ∈ request.record?, ¬ScannedSlot.LeadsTo scanned id slot) → slot ∈ scanned' := by
  obtain ⟨husable, hsound⟩ := h.sound
  obtain ⟨layout, hwalks, rfl⟩ := records_tracks husable hsound hscan
  -- the scan met every slot, and the counters count them
  have htallies : (session.seen contract.toStorageView).Tallies layout := by
    refine ⟨hwalks, ?_⟩
    obtain ⟨-, -, hcount | ⟨-, cause, hcount⟩⟩ := hwalks.countSlots_performs session husable rfl
    · rw [hcounters] at hcount
      exact Except.ok.inj hcount
    · rw [hcounters] at hcount
      cases hcount
  have hknown : ∀ id ∈ request.record?, layout.KnowsOriginOf id := by
    intro id hid found hfound capacity length first hlive
    obtain ⟨slot, hslot, rfl⟩ := horigin id hid _ hfound.leadsTo capacity length first (hfound.header_eq hlive)
    obtain ⟨other, hother, rfl⟩ := List.mem_map.1 hslot
    exact hother
  obtain ⟨husable', hrevised⟩ := htallies.perform_revises hflush hknown session husable rfl
  obtain ⟨layout', htallies', hrevises, hagree⟩ := hrevised reply hok
  have hcount := (htallies'.toWalks.countSlots_performs _ husable' rfl).2.2
  rw [← htallies'.counters_eq] at hcount
  obtain ⟨fresh, hids, hfresh⟩ := hrevises.ids
  refine ⟨fun id last hlast => ?_, hcount, hagree, _, htallies'.toWalks.records_answers husable', ⟨fresh, ?_, hfresh⟩,
    fun slot hslot hlive hother => ?_⟩
  · obtain ⟨-, -, hfound⟩ := hwalks.resolve_finds id session husable rfl
    obtain ⟨found, hfinds, rfl⟩ := hfound last hlast
    exact ⟨_, hfinds.leadsTo, rfl⟩
  · rw [Layout.map_id_scanned, Layout.map_id_scanned, hids]
  · obtain ⟨id, hid, rfl⟩ := List.mem_map.1 hslot
    -- a live slot that the request does not lead to is left as it was
    have hsame : layout'.slot id = layout.slot id := by
      refine hrevises.slot id hid hlive ?_
      rintro ⟨asked, hasked, found, hfound, rfl⟩
      exact hother asked hasked hfound.leadsTo
    rw [← Layout.scanned_congr hsame]
    refine List.mem_map_of_mem ?_
    rw [hids]
    exact List.mem_append_left _ hid

/-- A payload that looks like a slot with this header. -/
def payloadOf (header : SlotHeader) : ByteArray := ofList (header.encode ++ List.replicate 8 97)

/-- Two records, the first with a payload that looks like a redirect, the second with an origin. -/
def foreignMemory (origin : RecordId) : Memory :=
  .holding 256 256 <|
    FileHeader.encode { version := 1, pageSize := 256, status := .closed, counters := ⟨2, 0, 0, 25, 25, 128⟩ } ++
      SlotHeader.encode (.live 24 24 none) ++ (payloadOf (.moved 8 firstId)).data.toList ++
      SlotHeader.encode (.live 1 1 (some origin)) ++ [98]

theorem usable_foreignMemory (origin : RecordId) : Memory.contract.Usable (foreignMemory origin) :=
  Memory.usable_holding (by decide) rfl (by simp [payloadOf, FileHeader.length_encode, SlotHeader.length_encode_header,
    SlotHeader.headerSize, SlotHeader.fullSize, FileHeader.size])

/-- The second record. -/
def laterId : RecordId := ⟨13, by decide, by decide⟩

/-- The payload of the first record, which is no slot. -/
def insideId : RecordId := ⟨10, by decide, by decide⟩

theorem successful_request_keeps_to_slots_in_memory : ∃ session scanned,
    openOn (foreignMemory firstId) .exactDefault .default = .ok session ∧ (records session).1 = (none, scanned) ∧
      (perform (.delete laterId) session).1 = .ok .done ∧
      ∃ slot ∈ scanned, slot.id = firstId ∧ ∃ scanned', (records (perform (.delete laterId) session).2).1 =
        (none, scanned') ∧ slot ∈ scanned' := by
  have hrun : (openOn (foreignMemory firstId) .exactDefault .default).toOption.map (fun session =>
      ((records session).1.1, (records session).1.2.map fun slot => (slot.id, slot.header), (countSlots session).1,
        session.counters)) =
        some (none, [(firstId, .live 24 24 none), (laterId, .live 1 1 (some firstId))], .ok ⟨2, 0, 0, 25, 25, 128⟩,
          ⟨2, 0, 0, 25, 25, 128⟩) := by
    decide +kernel
  have hdelete : (openOn (foreignMemory firstId) .exactDefault .default).toOption.map (fun session =>
      (perform (.delete laterId) session).1) = some (.ok .done) := by
    decide +kernel
  rcases hopen : openOn (foreignMemory firstId) .exactDefault .default with e | session
  · rw [hopen] at hrun
    cases hrun
  · rw [hopen] at hrun hdelete
    obtain ⟨hscan, hlisted, hcount, hcounters⟩ : _ ∧ _ ∧ _ ∧ _ := by simpa using Option.some.inj hrun
    have hdeleted : (perform (.delete laterId) session).1 = .ok .done := Option.some.inj hdelete
    rw [← hcounters] at hcount
    obtain ⟨scanned, hscanned⟩ : ∃ scanned, (records session).1 = (none, scanned) := ⟨_, Prod.ext hscan rfl⟩
    rw [hscanned] at hlisted
    have huse : InUse Memory.contract session := .opened (usable_foreignMemory _) hopen
    obtain ⟨first, _, rfl, hfirst, hrest⟩ := List.map_eq_cons_iff.1 hlisted
    obtain ⟨later, _, rfl, hlater, hnil⟩ := List.map_eq_cons_iff.1 hrest
    obtain rfl := List.map_eq_nil_iff.1 hnil
    obtain ⟨hfirstId, hfirstHeader⟩ := Prod.mk.inj hfirst
    obtain ⟨hlaterId, hlaterHeader⟩ := Prod.mk.inj hlater
    have hflush : Request.delete laterId ≠ .flush := by rintro ⟨⟩
    have horigin : ∀ id ∈ (Request.delete laterId).record?, ∀ last,
        ScannedSlot.LeadsTo [first, later] id last → ∀ capacity length origin,
          last.header = .live capacity length (some origin) → ∃ slot ∈ [first, later], slot.id = origin := by
      intro id _ last hleads capacity length origin hlive
      rcases List.mem_pair.1 hleads.mem with rfl | rfl
      · rw [hfirstHeader] at hlive
        cases hlive
      · rw [hlaterHeader] at hlive
        cases hlive
        exact ⟨first, List.mem_cons_self, hfirstId⟩
    have hother : ∀ id ∈ (Request.delete laterId).record?, ¬ScannedSlot.LeadsTo [first, later] id first := by
      rintro _ ⟨⟩ hleads
      generalize hasked : laterId = asked at hleads
      cases hleads with
      | here hslot hnone => exact absurd (hasked.trans hfirstId) (by decide)
      | @hop slot _ target hslot hredirect =>
        rcases List.mem_pair.1 hslot with rfl | rfl
        · rw [hfirstHeader] at hredirect
          cases hredirect
        · rw [hlaterHeader] at hredirect
          cases hredirect
    obtain ⟨-, -, -, scanned', hscanned', -, hkept⟩ :=
      successful_request_keeps_to_slots huse hscanned hcount hflush horigin hdeleted
    have hlive : first.header.state = .live := by
      rw [hfirstHeader]
      rfl
    exact ⟨session, _, rfl, hscanned, hdeleted, first, List.mem_cons_self, hfirstId, scanned',
      hscanned'.resolve_right fun hfailed => hfailed.1, hkept first List.mem_cons_self hlive hother⟩

/-- An origin inside of a payload that looks like a redirect: with the record that has this origin, a part of the other
record is turned into a tombstone. -/
theorem forged_origin_spoils_record : ∃ session, InUse Memory.contract session ∧ (records session).1.1 = none ∧
    (countSlots session).1 = .ok session.counters ∧
    (runAll perform [.read firstId, .delete laterId, .read firstId] session).1 =
      [.ok (.payload (payloadOf (.moved 8 firstId))), .ok .done, .ok (.payload (payloadOf (.deleted 8 0 true)))] := by
  have hrun : (openOn (foreignMemory insideId) .exactDefault .default).toOption.map (fun session =>
      ((records session).1.1, (countSlots session).1, session.counters,
        (runAll perform [.read firstId, .delete laterId, .read firstId] session).1)) =
        some (none, .ok ⟨2, 0, 0, 25, 25, 128⟩, ⟨2, 0, 0, 25, 25, 128⟩, [.ok (.payload (payloadOf (.moved 8 firstId))),
          .ok .done, .ok (.payload (payloadOf (.deleted 8 0 true)))]) := by
    decide +kernel
  rcases hopen : openOn (foreignMemory insideId) .exactDefault .default with e | session
  · rw [hopen] at hrun
    cases hrun
  · rw [hopen] at hrun
    obtain ⟨hscan, hcount, hcounters, hresults⟩ : _ ∧ _ ∧ _ ∧ _ := by simpa using Option.some.inj hrun
    rw [← hcounters] at hcount
    exact ⟨session, .opened (usable_foreignMemory _) hopen, hscan, hcount, hresults⟩

end Session

end RecordStore
