import RecordStore.Proofs.Totals
import RecordStore.Proofs.Writing

/-!
# Scans of a tracked region

A census over whole slots counts each of them once (`count_answers`).  One that goes on behind its region counts the
slots there as well and ends where they end: at zeros, at the end of the storage, or at a relocated copy that nothing
leads to (`recount_answers`).  It takes no committed copy for such a one, since the redirect to it stands in front of
it (`Stores.exists_redirect`).
-/

namespace RecordStore

open StorageView

namespace Layout

variable {layout : Layout} {record : StoredRecord}

/-- The last redirect of a chain points at the slot in which the chain ends. -/
theorem Leads.exists_last {id last : RecordId} {passed : List Redirect} (h : layout.Leads id passed last)
    (hne : passed ≠ []) : ∃ redirect ∈ passed, layout.header redirect.id = .moved redirect.capacity last := by
  induction h with
  | here => exact absurd rfl hne
  | @hop id target last capacity passed hmoved hrest ih =>
    rcases hpassed : passed with _ | ⟨redirect, passed'⟩
    · subst hpassed
      cases hrest
      exact ⟨_, List.mem_cons_self, hmoved⟩
    · obtain ⟨redirect', hmem, hlast⟩ := ih (by simp [hpassed])
      exact ⟨redirect', List.mem_cons_of_mem _ (hpassed ▸ hmem), hlast⟩

/-- The only live slot of a record is its latest one, and it has an origin only if the record moved. -/
theorem Stores.eq_latest_of_live (h : layout.Stores record) {id : RecordId} {capacity length : Nat}
    {origin : Option RecordId} (hid : id ∈ record.ids) (hheader : layout.header id = .live capacity length origin) :
    id = record.latest ∧ record.payload ≠ none ∧ origin = record.former.getLast? := by
  rcases List.mem_cons.1 hid with rfl | hformer
  · cases hpayload : record.payload with
    | none =>
      obtain ⟨length, hdead⟩ := h.dead hpayload
      rw [hheader] at hdead
      cases hdead
    | some payload =>
      have hlatest := h.header_latest hpayload
      rw [hheader] at hlatest
      obtain ⟨-, -, rfl⟩ := SlotHeader.live.inj hlatest
      exact ⟨rfl, nofun, rfl⟩
  · rcases h.former id hformer with ⟨c, t, hmoved⟩ | ⟨-, c, l, hdead⟩
    · rw [hheader] at hmoved
      cases hmoved
    · rw [hheader] at hdead
      cases hdead

/-- Some redirect of a record that moved and still lives points at its latest slot. -/
theorem Stores.exists_redirect (h : layout.Stores record) (hlive : record.payload ≠ none)
    (hmoved : record.former ≠ []) :
    ∃ id ∈ record.former, (layout.header id).redirect? = some record.latest := by
  obtain ⟨first, hfirst⟩ := List.exists_mem_of_ne_nil _ hmoved
  obtain ⟨passed, last, hleads, -, hpassed, -, hlast, -⟩ := h.leads (List.mem_cons_of_mem _ hfirst)
  have hlast := hlast hlive
  have hne : passed ≠ [] := by
    rintro rfl
    cases hleads
    exact h.latest_ne hfirst hlast.symm
  obtain ⟨redirect, hmem, hheader⟩ := hleads.exists_last hne
  rw [hlast] at hheader
  exact ⟨redirect.id, hpassed redirect hmem, by rw [hheader]; rfl⟩

end Layout

namespace Census

theorem mem_targets_foldl {headers : List SlotHeader} {census : Census} {target : RecordId} :
    target ∈ (headers.foldl count census).targets ↔
      target ∈ census.targets ∨ ∃ header ∈ headers, header.redirect? = some target := by
  induction headers generalizing census with
  | nil => simp
  | cons header headers ih =>
    rw [List.foldl_cons, ih, count]
    simp [or_assoc, or_left_comm]

end Census

namespace Region

variable {σ : Type} [PagedStorage σ] {contract : StorageContract σ} {layout : Layout} {img : Image} {stop : Nat}
  {records : List StoredRecord}

/-- The census after the slots `ids`. -/
def censusOf (layout : Layout) (census : Census) (ids : List RecordId) : Census :=
  (ids.map layout.header).foldl Census.count census

theorem counters_censusOf (census : Census) {ids : List RecordId}
    (h : layout.Tiles img.pageSize census.offset ids stop) :
    (censusOf layout census ids).counters = { census.counters + layout.totals ids with size := stop } := by
  have hsize : census.offset + ((ids.map layout.header).map SlotHeader.slotSize).sum = stop := by
    generalize census.offset = start at h ⊢
    induction ids generalizing start with
    | nil => exact h
    | cons id ids ih =>
      have := ih _ h.2.2
      rw [List.map_cons, List.map_cons, List.sum_cons, ← Nat.add_assoc]
      exact this
  unfold censusOf
  rw [Census.counters_foldl_count, hsize, List.map_map]
  rfl

theorem censusOf_append (census : Census) (ids others : List RecordId) :
    censusOf layout census (ids ++ others) = censusOf layout (censusOf layout census ids) others := by
  unfold censusOf
  rw [List.map_append, List.foldl_append]

/-- A census from the start adds up the shares of the slots. -/
theorem counters_censusOf_start {ids : List RecordId} (h : layout.Tiles img.pageSize FileHeader.size ids stop) :
    (censusOf layout .start ids).counters = { layout.totals ids with size := stop } := by
  have hstart : layout.Tiles img.pageSize Census.start.offset ids stop := h
  rw [counters_censusOf _ hstart]
  ext <;> simp [Census.start, Counters.zero]

theorem offset_censusOf {ids : List RecordId} (h : layout.Tiles img.pageSize FileHeader.size ids stop) :
    (censusOf layout .start ids).offset = stop := by
  rw [Census.offset, counters_censusOf_start h]

theorem takeCensus_answers (hwf : img.WellFormed) (h : layout.Tracks img stop) {region : Region}
    (hpageSize : region.pageSize = img.pageSize) {ids : List RecordId} (hids : ∀ id ∈ ids, id ∈ layout.ids)
    {census : Census} (htiles : layout.Tiles img.pageSize census.offset ids region.stop) :
    contract.Answers (region.takeCensus census) img (.ok (censusOf layout census ids)) := by
  induction ids generalizing census with
  | nil =>
    have hstop : census.offset = region.stop := htiles
    rw [takeCensus, if_neg (by omega)]
    exact Answers.pure _
  | cons id ids ih =>
    obtain ⟨hid, hpage, hrest⟩ := htiles
    have hend : id.offset + layout.size id ≤ region.stop := by
      rw [hid]
      exact hrest.le
    have hpos := layout.size_pos id
    rw [takeCensus, if_pos (by omega), ← hid]
    refine (slotAt_answers hwf h (hids id List.mem_cons_self) hpageSize hend).bind ?_
    exact ih (fun other hother => hids other (List.mem_cons_of_mem _ hother)) hrest

/-- A scan of all slots gives their totals. -/
theorem count_answers (hwf : img.WellFormed) (h : layout.Tracks img stop) :
    contract.Answers (count { pageSize := img.pageSize, stop }) img
      (.ok { layout.totals layout.ids with size := stop }) := by
  have htiles : layout.Tiles img.pageSize Census.start.offset layout.ids stop := h.tiles
  refine (takeCensus_answers hwf h rfl (fun id hid => hid) htiles).bind ?_
  rw [counters_censusOf_start h.tiles]
  exact Answers.pure _

/-! ### Behind the recorded end -/

/-- Where there is nothing but zeros up to the end of the page no slot can be read. -/
theorem slotAt_answers_blank (hwf : img.WellFormed) (hpageSize : SupportedPageSize img.pageSize) {offset : Nat}
    (hzeros : ∀ i, offset ≤ i → i < endOfPage img.pageSize offset → img.byte i = 0) (hmod : offset % alignment = 0)
    (hsize : offset < img.size) {region : Region}
    (hregion : region.pageSize = img.pageSize) :
    contract.Answers (region.slotAt offset) img (.error (.corruption offset (.unknownTag 0))) := by
  have hend := endOfPage_le hsize hwf.pages
  have hlt := lt_endOfPage hpageSize.pos offset
  have hendMod := endOfPage_mod hpageSize.aligned offset
  have hlength : min (endOfPage img.pageSize offset - offset) SlotHeader.fullSize = 8 ∨
      min (endOfPage img.pageSize offset - offset) SlotHeader.fullSize = 16 := by
    unfold SlotHeader.fullSize alignment at *
    omega
  unfold slotAt
  rw [region.pageEnd_eq, hregion]
  refine (contract.read_answers (by omega)).bind ?_
  rw [Image.toList_read_of_zeros fun i hlow hhigh => hzeros i hlow (by omega)]
  rcases hlength with hlength | hlength <;> rw [hlength] <;> exact Answers.throw _

/-- A census that goes on counts the slots in front of it, as long as none is an orphan. -/
theorem extendCensus_answers (hwf : img.WellFormed) (h : layout.Tracks img stop) {region : Region}
    (hpageSize : region.pageSize = img.pageSize) (hstop : stop ≤ region.stop) {ids : List RecordId}
    (hids : ∀ id ∈ ids, id ∈ layout.ids) {census : Census} (htiles : layout.Tiles img.pageSize census.offset ids stop)
    (horphan : ∀ before id after, ids = before ++ id :: after →
      ¬(censusOf layout census before).isOrphan (layout.header id)) {result : Except StoreError Census}
    (hrest : contract.Answers (region.extendCensus (censusOf layout census ids)) img result) :
    contract.Answers (region.extendCensus census) img result := by
  induction ids generalizing census with
  | nil => exact hrest
  | cons id ids ih =>
    obtain ⟨hid, hpage, htiles⟩ := htiles
    have hend : id.offset + layout.size id ≤ stop := by
      rw [hid]
      exact htiles.le
    have hpos := layout.size_pos id
    have hhead : ¬census.isOrphan (layout.header id) := horphan [] id ids rfl
    rw [extendCensus, if_pos (by omega), ← hid]
    have hslot : contract.Answers (region.slotAt id.offset) img _ :=
      slotAt_answers hwf h (hids id List.mem_cons_self) hpageSize (by omega)
    refine hslot.attempt_bind ?_ fun _ => rfl
    show contract.Answers (if census.isOrphan (layout.header id) then pure census
      else region.extendCensus (census.count (layout.header id))) img result
    rw [if_neg hhead]
    refine ih (fun other hother => hids other (List.mem_cons_of_mem _ hother)) htiles ?_ hrest
    rintro before other after rfl
    exact horphan (id :: before) other after rfl

/-- Where the slots end the census ends as well. -/
theorem extendCensus_answers_end (hwf : img.WellFormed) (hpageSize : SupportedPageSize img.pageSize)
    (h : layout.Tracks img stop) (hends : layout.Ends img stop) {census : Census} (hoffset : census.offset = stop)
    (htargets : ∀ id ∈ census.targets, id ∈ layout.ids) :
    contract.Answers (extendCensus { pageSize := img.pageSize, stop := img.size } census) img (.ok census) := by
  rw [extendCensus, hoffset]
  by_cases hsize : stop < img.size
  · rw [if_pos hsize]
    cases hends with
    | blank hblank =>
      have hslot : contract.Answers (slotAt { pageSize := img.pageSize, stop := img.size } stop) img _ :=
        slotAt_answers_blank hwf hpageSize (fun i hi _ => hblank i hi) h.stop_mod hsize rfl
      exact hslot.attempt_bind (Answers.pure census) fun _ => rfl
    | @copy id first capacity length payload hid hcopy _ =>
      -- the copy can be read, but nothing in front of it leads there
      have hmem : id ∉ layout.ids := fun hid' => absurd (h.offset_lt hid') (by omega)
      have horphan : census.isOrphan (.live capacity length (some first)) = true := by
        have hcontains : id ∉ census.targets := fun htarget => hmem (htargets id htarget)
        rw [Census.isOrphan, hoffset, ← hid, RecordId.ofOffset?_offset]
        simpa using hcontains
      have hcopyMem : id ∈ (layout.push id { header := .live capacity length (some first), payload }).ids :=
        List.mem_append_right _ (List.mem_singleton_self id)
      have hend : id.offset + (layout.push id { header := .live capacity length (some first), payload }).size id ≤
          img.size := by
        rw [Layout.size, Layout.header_push_self, hid]
        exact hcopy.bound
      have hslot : contract.Answers (slotAt { pageSize := img.pageSize, stop := img.size } id.offset) img _ :=
        slotAt_answers hwf hcopy hcopyMem rfl hend
      rw [Layout.header_push_self, hid] at hslot
      refine hslot.attempt_bind ?_ fun _ => rfl
      show contract.Answers (if census.isOrphan (.live capacity length (some first)) then pure census
        else extendCensus { pageSize := img.pageSize, stop := img.size }
          (census.count (.live capacity length (some first)))) img (.ok census)
      rw [if_pos horphan]
      exact Answers.pure census
  · rw [if_neg hsize]
    exact Answers.pure census

/-- A slot of the store is no orphan to a census that has counted all slots in front of it. -/
private theorem not_isOrphan (h : layout.Tracks img stop) (hrep : layout.Represents records)
    {before after : List RecordId} {id : RecordId} (hids : layout.ids = before ++ id :: after) :
    ¬(censusOf layout .start before).isOrphan (layout.header id) := by
  intro horphan
  have hmem : id ∈ layout.ids := by simp [hids]
  have htiles := h.tiles
  rw [hids] at htiles
  obtain ⟨start, hbefore, hid, -⟩ := Layout.Tiles.append_iff.1 htiles
  have hoffset : (censusOf layout .start before).offset = id.offset := (offset_censusOf hbefore).trans hid.symm
  rcases hheader : layout.header id with ⟨capacity, length, _ | first⟩ | _ | _ | _ <;> rw [hheader] at horphan
  · cases horphan
  · -- a live slot with an origin is the latest slot of a record that moved
    obtain ⟨record, hrecord, hid'⟩ := List.mem_flatMap.1 ((hrep.mem id).2 ⟨hmem, by simp [hheader, SlotHeader.state]⟩)
    have hstores := hrep.stores record hrecord
    obtain ⟨rfl, hlive, horigin⟩ := hstores.eq_latest_of_live hid' hheader
    have hmoved : record.former ≠ [] := fun hnil => by
      rw [hnil] at horigin
      cases horigin
    obtain ⟨redirect, hredirect, htarget⟩ := hstores.exists_redirect hlive hmoved
    -- slots are appended, so what leads to it stands in front of it
    have hearlier : redirect ∈ before := by
      have hlt : redirect.offset < record.latest.offset := (List.pairwise_cons.1 hstores.ordered).1 _ hredirect
      have hredirect' := hrep.mem_ids hrecord (List.mem_cons_of_mem _ hredirect)
      rw [hids, List.mem_append] at hredirect'
      rcases hredirect' with hredirect' | hredirect'
      · exact hredirect'
      · have hpairwise := h.tiles.pairwise
        rw [hids] at hpairwise
        rcases List.mem_cons.1 hredirect' with rfl | hredirect'
        · omega
        · have := (List.pairwise_cons.1 (List.pairwise_append.1 hpairwise).2.1).1 _ hredirect'
          omega
    have hcontains : record.latest ∈ (censusOf layout .start before).targets :=
      Census.mem_targets_foldl.2 (.inr ⟨_, List.mem_map_of_mem hearlier, htarget⟩)
    rw [Census.isOrphan, hoffset, RecordId.ofOffset?_offset] at horphan
    simp [hcontains] at horphan
  all_goals cases horphan

/-- All redirects lead to slots of the store. -/
private theorem targets_mem (hrep : layout.Represents records) {id : RecordId}
    (hid : id ∈ (censusOf layout .start layout.ids).targets) : id ∈ layout.ids := by
  rcases Census.mem_targets_foldl.1 hid with hstart | ⟨header, hheader, htarget⟩
  · cases hstart
  · obtain ⟨redirect, hredirect, rfl⟩ := List.mem_map.1 hheader
    rcases hcase : layout.header redirect with _ | ⟨capacity, target⟩ | _ | _ <;> rw [hcase] at htarget <;>
      cases htarget
    exact ((hrep.mem _).1 (hrep.mem_target hredirect hcase)).1

/-- A recount from the end of any of the slots on counts them all. -/
theorem recount_answers (hwf : img.WellFormed) (hpageSize : SupportedPageSize img.pageSize) (h : layout.Tracks img stop)
    (hrep : layout.Represents records) (hends : layout.Ends img stop) {before after : List RecordId} {recorded : Nat}
    (hids : layout.ids = before ++ after) (hbefore : layout.Tiles img.pageSize FileHeader.size before recorded) :
    contract.Answers (recount { pageSize := img.pageSize, stop := recorded }) img
      (.ok { layout.totals layout.ids with size := stop }) := by
  have hstart : layout.Tiles img.pageSize Census.start.offset before recorded := hbefore
  have hafter : layout.Tiles img.pageSize (censusOf layout .start before).offset after stop := by
    have htiles := h.tiles
    rw [hids] at htiles
    obtain ⟨mid, hbefore', hafter⟩ := Layout.Tiles.append_iff.1 htiles
    rw [offset_censusOf hbefore']
    exact hafter
  have hmem : ∀ id ∈ before, id ∈ layout.ids := fun id hid => by simp [hids, hid]
  have hmem' : ∀ id ∈ after, id ∈ layout.ids := fun id hid => by simp [hids, hid]
  unfold recount
  refine (takeCensus_answers hwf h rfl hmem hstart).bind ?_
  refine contract.size_answers.bind ?_
  have hextend : contract.Answers (extendCensus { pageSize := img.pageSize, stop := img.size }
      (censusOf layout .start before)) img (.ok (censusOf layout .start layout.ids)) := by
    refine extendCensus_answers hwf h rfl h.bound hmem' hafter (fun mid id rest heq => ?_) ?_
    · rw [← censusOf_append]
      exact not_isOrphan h hrep (by rw [hids, heq, List.append_assoc])
    · rw [← censusOf_append, ← hids]
      exact extendCensus_answers_end hwf hpageSize h hends (offset_censusOf h.tiles) fun id => targets_mem hrep
  refine hextend.bind ?_
  rw [counters_censusOf_start h.tiles]
  exact Answers.pure _

end Region

end RecordStore
