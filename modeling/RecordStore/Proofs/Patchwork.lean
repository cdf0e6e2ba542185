import RecordStore.Proofs.Serving

/-!
# Files patched together from several moments

What is found on disk after a crash that lost a cache: every page of it is as it was at some moment, but different
pages may be from different moments.  Since no slot crosses a page and slots keep their places, the slots of the pages
still follow one another up to the end that the file header records, and some way behind it (`Patchwork.exists_tracks`).
-/

namespace RecordStore

open Bytes StorageView

namespace Layout

variable {layout : Layout} {img : Image} {start stop pageSize : Nat} {ids : List RecordId}

/-- Every position of a tiling lies in one of its slots. -/
theorem Tiles.exists_covering (h : layout.Tiles pageSize start ids stop) {place : Nat} (hlow : start ≤ place)
    (hhigh : place < stop) : ∃ id ∈ ids, id.offset ≤ place ∧ place < id.offset + layout.size id := by
  induction ids generalizing start with
  | nil =>
    have : start = stop := h
    omega
  | cons id ids ih =>
    obtain ⟨rfl, -, hrest⟩ := h
    by_cases hplace : place < id.offset + layout.size id
    · exact ⟨id, List.mem_cons_self, hlow, hplace⟩
    · obtain ⟨other, hother, hcovers⟩ := ih hrest (Nat.not_lt.1 hplace)
      exact ⟨other, List.mem_cons_of_mem _ hother, hcovers⟩

/-- A slot that starts inside another one is that slot. -/
theorem Tiles.eq_of_covers (h : layout.Tiles pageSize start ids stop) {id other : RecordId} (hid : id ∈ ids)
    (hother : other ∈ ids) (hlow : id.offset ≤ other.offset) (hhigh : other.offset < id.offset + layout.size id) :
    other = id := by
  by_contra hne
  have hpos := layout.size_pos other
  rcases h.disjoint hid hother (Ne.symm hne) with hbehind | hbefore
  · omega
  · omega

/-- The slots of one page: they fill it, or they end where the layout ends. -/
theorem Tracks.slots_of_page (h : layout.Tracks img stop) (hlarge : FileHeader.size < img.pageSize) (page : Nat) :
    ∃ ids stop', layout.Tiles img.pageSize (max (page * img.pageSize) FileHeader.size) ids stop' ∧
      (∀ id ∈ ids, id ∈ layout.ids ∧ id.offset / img.pageSize = page) ∧
      (stop' = (page + 1) * img.pageSize ∨ stop ≤ stop' ∧ stop' < (page + 1) * img.pageSize) := by
  have hend : (page + 1) * img.pageSize = page * img.pageSize + img.pageSize := by rw [Nat.add_mul, Nat.one_mul]
  have hheader : max (page * img.pageSize) FileHeader.size < (page + 1) * img.pageSize := by
    rcases Nat.eq_zero_or_pos page with rfl | hpos
    · omega
    · have := Nat.le_mul_of_pos_left img.pageSize hpos
      omega
  have hpage : ∀ {ids : List RecordId} {stop' : Nat},
      layout.Tiles img.pageSize (max (page * img.pageSize) FileHeader.size) ids stop' →
      stop' ≤ (page + 1) * img.pageSize → (∀ id ∈ ids, id ∈ layout.ids) →
      ∀ id ∈ ids, id ∈ layout.ids ∧ id.offset / img.pageSize = page := by
    intro ids stop' htiles hstop' hids id hid
    have hlow := htiles.start_le hid
    have hhigh := htiles.end_le hid
    have hpos := layout.size_pos id
    refine ⟨hids id hid, ?_⟩
    rw [Nat.div_eq_iff (by omega)]
    omega
  -- the slots that start in front of the page are cut off, and then those behind it
  rcases Nat.lt_or_ge (max (page * img.pageSize) FileHeader.size) stop with hlt | hle
  · obtain ⟨before, after, hids, -, hafter⟩ : ∃ before after, layout.ids = before ++ after ∧
        layout.Tiles img.pageSize FileHeader.size before (max (page * img.pageSize) FileHeader.size) ∧
        layout.Tiles img.pageSize (max (page * img.pageSize) FileHeader.size) after stop := by
      rcases Nat.le_total (page * img.pageSize) FileHeader.size with hle | hle
      · rw [Nat.max_eq_right hle]
        exact ⟨[], layout.ids, rfl, rfl, h.tiles⟩
      · rw [Nat.max_eq_left hle] at hlt ⊢
        exact h.tiles.split_at_page hle hlt
    have hmem : ∀ id ∈ after, id ∈ layout.ids := fun id hid => hids ▸ List.mem_append_right _ hid
    rcases Nat.lt_or_ge ((page + 1) * img.pageSize) stop with hlong | hshort
    · obtain ⟨inside, outside, hsplit, hinside, -⟩ := hafter.split_at_page (Nat.le_of_lt hheader) hlong
      refine ⟨inside, _, hinside, hpage hinside (Nat.le_refl _) fun id hid => hmem id ?_, .inl rfl⟩
      rw [hsplit]
      exact List.mem_append_left _ hid
    · refine ⟨after, stop, hafter, hpage hafter hshort hmem, ?_⟩
      omega
  · exact ⟨[], _, rfl, by simp, .inr ⟨hle, hheader⟩⟩

end Layout

/-- The slots up to some boundary. -/
theorem Layout.Tracks.take {layout : Layout} {img : Image} {stop mid : Nat} {before after : List RecordId}
    (h : layout.Tracks img stop) (hids : layout.ids = before ++ after)
    (hbefore : layout.Tiles img.pageSize FileHeader.size before mid) :
    ({ layout with ids := before } : Layout).Tracks img mid where
  tiles := hbefore.congr fun _ _ => rfl
  valid id hid := h.valid id (hids ▸ List.mem_append_left _ hid)
  holds id hid := h.holds id (hids ▸ List.mem_append_left _ hid)
  bound := by
    have htiles := h.tiles
    rw [hids] at htiles
    obtain ⟨mid', hbefore', hafter⟩ := Layout.Tiles.append_iff.1 htiles
    have hmid : mid = mid' := hbefore.stop_unique hbefore'
    rw [hmid]
    exact Nat.le_trans hafter.le h.bound

/-- The slots `ids`, each as the layout of its page has it. -/
def Layout.patched (pageSize : Nat) (layouts : Nat → Layout) (ids : List RecordId) : Layout :=
  { ids, slot := fun id => (layouts (id.offset / pageSize)).slot id }

/-- The slots up to any boundary. -/
theorem Layout.Tracks.exists_cut {layout : Layout} {img : Image} {stop at' : Nat} (h : layout.Tracks img stop)
    (hboundary : layout.Boundary stop at') : ∃ before, ({ layout with ids := before } : Layout).Tracks img at' := by
  obtain ⟨before, after, hids, hbefore⟩ := hboundary.split h.tiles
  exact ⟨before, h.take hids hbefore⟩

/-- Every page of `disk` is that page of some image, whose slots `layouts` has.  In each of these a slot begins at
`recorded`, or the last one ends there. -/
structure Paged (disk : Image) (recorded : Nat) (imgs : Nat → Image) (layouts : Nat → Layout) (stops : Nat → Nat) :
    Prop where
  supported : SupportedPageSize disk.pageSize
  wellFormed : disk.WellFormed
  bound : recorded ≤ disk.size
  tracks : ∀ page, (layouts page).Tracks (imgs page) (stops page)
  boundary : ∀ page, (layouts page).Boundary (stops page) recorded
  pageSize : ∀ page, (imgs page).pageSize = disk.pageSize
  bytes : ∀ page i, i / disk.pageSize = page → disk.byte i = (imgs page).byte i

namespace Paged

variable {disk : Image} {recorded : Nat} {imgs : Nat → Image} {layouts : Nat → Layout} {stops : Nat → Nat}
  (h : Paged disk recorded imgs layouts stops)

include h

theorem header_lt : FileHeader.size < disk.pageSize := Nat.lt_of_lt_of_le (by decide) h.supported.large

theorem size_le_recorded : FileHeader.size ≤ recorded := by
  rcases h.boundary 0 with heq | ⟨id, hid, heq⟩
  · rw [heq]
    exact (h.tracks 0).size_le_stop
  · rw [← heq]
    exact (h.tracks 0).size_le_offset hid

theorem recorded_le_stop (page : Nat) : recorded ≤ stops page := by
  rcases h.boundary page with heq | ⟨id, hid, heq⟩
  · exact Nat.le_of_eq heq
  · rw [← heq]
    exact Nat.le_of_lt ((h.tracks page).offset_lt hid)

/-- The slots of the first `count` pages follow one another, or stop in a page that no more of them are in. -/
private theorem exists_tiles (ids₀ : List RecordId) (count : Nat) : ∃ ids stop,
    (Layout.patched disk.pageSize layouts ids₀).Tiles disk.pageSize FileHeader.size ids stop ∧
      (∀ id ∈ ids, id ∈ (layouts (id.offset / disk.pageSize)).ids) ∧
      (stop = max (count * disk.pageSize) FileHeader.size ∨
        stop < count * disk.pageSize ∧ stops (stop / disk.pageSize) ≤ stop) := by
  -- page by page, with the slots that the layout of the page has there
  induction count with
  | zero => exact ⟨[], FileHeader.size, rfl, by simp, .inl (by simp)⟩
  | succ count ih =>
    have hend : (count + 1) * disk.pageSize = count * disk.pageSize + disk.pageSize := by
      rw [Nat.add_mul, Nat.one_mul]
    have hlarge := h.header_lt
    obtain ⟨ids, stop, htiles, hids, hstop | ⟨hstop, hlast⟩⟩ := ih
    · have hpageSize := h.pageSize count
      obtain ⟨ids', stop', htiles', hids', hstop'⟩ := (h.tracks count).slots_of_page (hpageSize ▸ hlarge) count
      rw [hpageSize] at htiles' hids' hstop'
      rw [← hstop] at htiles'
      have hsame : (Layout.patched disk.pageSize layouts ids₀).Tiles disk.pageSize stop ids' stop' := by
        refine htiles'.congr fun id hid => ?_
        change ((layouts (id.offset / disk.pageSize)).slot id).header.slotSize = _
        rw [(hids' id hid).2]
        rfl
      refine ⟨ids ++ ids', stop', Layout.Tiles.append_iff.2 ⟨stop, htiles, hsame⟩, fun id hid => ?_, ?_⟩
      · rcases List.mem_append.1 hid with hid | hid
        · exact hids id hid
        · rw [(hids' id hid).2]
          exact (hids' id hid).1
      · rcases hstop' with hfull | ⟨hlast, hshort⟩
        · exact .inl (by omega)
        · have hle : stop ≤ stop' := hsame.le
          have hpage : stop' / disk.pageSize = count := by
            rw [Nat.div_eq_iff h.supported.pos]
            omega
          rw [← hpage] at hlast
          exact .inr ⟨hshort, hlast⟩
    · exact ⟨ids, stop, htiles, hids, .inr ⟨by omega, hlast⟩⟩

/-- The slots that the pages hold together. -/
theorem exists_tracks : ∃ (layout : Layout) (stop : Nat), layout.Tracks disk stop ∧
    (∀ id, layout.slot id = (layouts (id.offset / disk.pageSize)).slot id) ∧
    (∀ id ∈ layout.ids, id ∈ (layouts (id.offset / disk.pageSize)).ids) ∧ recorded ≤ stop ∧
    (stop = disk.size ∨ stop < disk.size ∧ stops (stop / disk.pageSize) ≤ stop) := by
  have hsize : disk.size / disk.pageSize * disk.pageSize = disk.size :=
    Nat.div_mul_cancel (Nat.dvd_of_mod_eq_zero h.wellFormed.pages)
  have hrecorded := h.size_le_recorded
  have hbound := h.bound
  obtain ⟨ids, stop, htiles, hids, hstop⟩ := h.exists_tiles [] (disk.size / disk.pageSize)
  rw [hsize] at hstop
  have hle : recorded ≤ stop := by
    rcases hstop with hstop | ⟨-, hlast⟩
    · omega
    · exact Nat.le_trans (h.recorded_le_stop _) hlast
  refine ⟨.patched disk.pageSize layouts ids, stop,
    ⟨htiles.congr fun _ _ => rfl, fun id hid => ?_, fun id hid => ?_, by omega⟩, fun _ => rfl, hids, hle, by omega⟩
  · exact (h.tracks _).valid id (hids id hid)
  · have htracks := h.tracks (id.offset / disk.pageSize)
    have hmem := hids id hid
    intro i hi
    have hend := htracks.tiles.end_le_endOfPage hmem
    have hsmall := htracks.bytes_end_le hmem
    have hlow := Nat.div_mul_le_self id.offset disk.pageSize
    rw [h.pageSize] at hend
    unfold endOfPage at hend
    rw [Nat.add_mul, Nat.one_mul] at hend
    have hi' : i < ((layouts (id.offset / disk.pageSize)).slot id).bytes.size := hi
    -- a slot lies in one page, and its bytes are those of the layout of that page
    have hpage : (id.offset + i) / disk.pageSize = id.offset / disk.pageSize := by
      rw [Nat.div_eq_iff h.supported.pos]
      omega
    rw [h.bytes _ _ hpage]
    exact htracks.holds id hmem i hi

/-- The recorded end is where one of the slots begins that were put together, or where they end. -/
theorem boundary_of_tracks {layout : Layout} {stop : Nat} (htracks : layout.Tracks disk stop)
    (hslot : ∀ id, layout.slot id = (layouts (id.offset / disk.pageSize)).slot id)
    (hids : ∀ id ∈ layout.ids, id ∈ (layouts (id.offset / disk.pageSize)).ids) (hrecorded : recorded ≤ stop) :
    layout.Boundary stop recorded := by
  rcases Nat.lt_or_eq_of_le hrecorded with hlt | heq
  · obtain ⟨id, hid, hlow, hhigh⟩ := htracks.tiles.exists_covering h.size_le_recorded hlt
    have htracks' := h.tracks (id.offset / disk.pageSize)
    have hsize : layout.size id = (layouts (id.offset / disk.pageSize)).size id := by
      unfold Layout.size Layout.header
      rw [hslot]
    have hmem := hids id hid
    refine .inr ⟨id, hid, ?_⟩
    rcases h.boundary (id.offset / disk.pageSize) with hlast | ⟨other, hother, hoffset⟩
    · have hend := htracks'.tiles.end_le hmem
      omega
    · rw [← hoffset, htracks'.tiles.eq_of_covers hmem hother (by omega) (by omega)]
  · exact .inl heq

/-- The slots in front of the recorded end are there. -/
theorem tracks_recorded : ∃ layout : Layout, layout.Tracks disk recorded := by
  obtain ⟨layout, stop, htracks, hslot, hids, hrecorded, -⟩ := h.exists_tracks
  obtain ⟨before, hbefore⟩ := htracks.exists_cut (h.boundary_of_tracks htracks hslot hids hrecorded)
  exact ⟨_, hbefore⟩

end Paged

/-- An image at some moment since `header` was written: its slots end behind the recorded end, and those that are not
`known` stand there as well, copies that nothing leads to. -/
structure Image.Version (img : Image) (header : FileHeader) (known : RecordId → Prop) (layout : Layout) (stop : Nat) :
    Prop where
  holds : img.Holds 0 (ofList header.encode)
  tracks : layout.Tracks img stop
  blank : img.BlankFrom stop
  boundary : layout.Boundary stop header.counters.size
  accounted : ∀ id ∈ layout.ids, (layout.header id).state ≠ .padding → known id ∨
    header.counters.size ≤ id.offset ∧ ∃ capacity length first, layout.header id = .live capacity length (some first)
  targets : ∀ id ∈ layout.ids, ∀ capacity target, layout.header id = .moved capacity target → known target

/-- More may be known. -/
theorem Image.Version.mono {img : Image} {header : FileHeader} {known known' : RecordId → Prop} {layout : Layout}
    {stop : Nat} (h : img.Version header known layout stop) (hknown : ∀ id, known id → known' id) :
    img.Version header known' layout stop where
  holds := h.holds
  tracks := h.tracks
  blank := h.blank
  boundary := h.boundary
  accounted id hid hstate := (h.accounted id hid hstate).imp_left (hknown id)
  targets id hid capacity target hmoved := hknown target (h.targets id hid capacity target hmoved)

/-- Every page of `disk` is that page of some version, whose slots `layouts` has. -/
structure Patchwork (disk : Image) (header : FileHeader) (known : RecordId → Prop) (layouts : Nat → Layout) : Prop where
  supported : SupportedPageSize disk.pageSize
  wellFormed : disk.WellFormed
  bound : header.counters.size ≤ disk.size
  version : ∀ page : Nat, ∃ (img : Image) (stop : Nat), img.Version header known (layouts page) stop ∧
    img.pageSize = disk.pageSize ∧ ∀ i, i / disk.pageSize = page → disk.byte i = img.byte i

/-- Behind `stop` there is nothing, as far as its page goes. -/
def Image.EndsAt (img : Image) (stop : Nat) : Prop :=
  stop = img.size ∨ stop < img.size ∧ ∀ i, stop ≤ i → i < endOfPage img.pageSize stop → img.byte i = 0

namespace Patchwork

variable {disk : Image} {header : FileHeader} {known : RecordId → Prop} {layouts : Nat → Layout}

theorem exists_paged (h : Patchwork disk header known layouts) : ∃ imgs stops,
    Paged disk header.counters.size imgs layouts stops ∧
      ∀ page, (imgs page).Version header known (layouts page) (stops page) := by
  choose imgs stops hversion hpageSize hbytes using h.version
  exact ⟨imgs, stops, ⟨h.supported, h.wellFormed, h.bound, fun page => (hversion page).tracks,
    fun page => (hversion page).boundary, hpageSize, hbytes⟩, hversion⟩

/-- The slots that the pages hold together, with nothing behind them. -/
theorem exists_tracks (h : Patchwork disk header known layouts) : ∃ (layout : Layout) (stop : Nat),
    layout.Tracks disk stop ∧ (∀ id, layout.slot id = (layouts (id.offset / disk.pageSize)).slot id) ∧
    (∀ id ∈ layout.ids, id ∈ (layouts (id.offset / disk.pageSize)).ids) ∧ header.counters.size ≤ stop ∧
    layout.Boundary stop header.counters.size ∧ disk.EndsAt stop := by
  obtain ⟨imgs, stops, hpaged, hversion⟩ := h.exists_paged
  obtain ⟨layout, stop, htracks, hslot, hids, hrecorded, hstop⟩ := hpaged.exists_tracks
  refine ⟨layout, stop, htracks, hslot, hids, hrecorded, hpaged.boundary_of_tracks htracks hslot hids hrecorded, ?_⟩
  rcases hstop with hstop | ⟨hlt, hlast⟩
  · exact .inl hstop
  · refine .inr ⟨hlt, fun i hlow hhigh => ?_⟩
    have hfloor := Nat.div_mul_le_self stop disk.pageSize
    have hpage : i / disk.pageSize = stop / disk.pageSize := by
      unfold endOfPage at hhigh
      rw [Nat.add_mul, Nat.one_mul] at hhigh
      rw [Nat.div_eq_iff h.supported.pos]
      omega
    rw [hpaged.bytes _ _ hpage]
    exact (hversion _).blank i (Nat.le_trans hlast hlow)

/-- Behind the slots a census that goes on finds nothing more. -/
private theorem extendCensus_answers_end {σ : Type} [PagedStorage σ] {contract : StorageContract σ} {img : Image}
    {stop : Nat} (hwf : img.WellFormed) (hpageSize : SupportedPageSize img.pageSize) (hmod : stop % alignment = 0)
    (hends : img.EndsAt stop) {census : Census} (hoffset : census.offset = stop) :
    contract.Answers (Region.extendCensus { pageSize := img.pageSize, stop := img.size } census) img (.ok census) := by
  rw [Region.extendCensus, hoffset]
  rcases hends with rfl | ⟨hsize, hzeros⟩
  · rw [if_neg (Nat.lt_irrefl _)]
    exact Answers.pure census
  · rw [if_pos hsize]
    have hslot : contract.Answers (Region.slotAt { pageSize := img.pageSize, stop := img.size } stop) img _ :=
      Region.slotAt_answers_blank hwf hpageSize hzeros hmod hsize rfl
    exact hslot.attempt_bind (Answers.pure census) fun _ => rfl

/-- A census that goes on counts slots up to the first orphan. -/
private theorem extendCensus_answers {σ : Type} [PagedStorage σ] (contract : StorageContract σ) {img : Image}
    {layout : Layout} {stop : Nat} (hwf : img.WellFormed) (hpageSize : SupportedPageSize img.pageSize)
    (h : layout.Tracks img stop) (hends : img.EndsAt stop) {ids : List RecordId} (hids : ∀ id ∈ ids, id ∈ layout.ids)
    {census : Census} (htiles : layout.Tiles img.pageSize census.offset ids stop) :
    ∃ before after, ids = before ++ after ∧
      contract.Answers (Region.extendCensus { pageSize := img.pageSize, stop := img.size } census) img
        (.ok (Region.censusOf layout census before)) ∧
      ∀ front id back, before = front ++ id :: back →
        ¬(Region.censusOf layout census front).isOrphan (layout.header id) := by
  induction ids generalizing census with
  | nil =>
    have hoffset : census.offset = stop := htiles
    exact ⟨[], [], rfl, extendCensus_answers_end hwf hpageSize h.stop_mod hends hoffset, by simp⟩
  | cons id ids ih =>
    obtain ⟨hid, hpage, hrest⟩ := htiles
    have hend : id.offset + layout.size id ≤ img.size := by
      rw [hid]
      exact Nat.le_trans hrest.le h.bound
    have hpos := layout.size_pos id
    have htail : layout.Tiles img.pageSize (census.count (layout.header id)).offset ids stop := hrest
    have hslot : contract.Answers (Region.slotAt { pageSize := img.pageSize, stop := img.size } id.offset) img _ :=
      Region.slotAt_answers hwf h (hids id List.mem_cons_self) rfl hend
    -- the census stops in front of a copy that nothing leads to
    by_cases horphan : census.isOrphan (layout.header id)
    · refine ⟨[], id :: ids, rfl, ?_, by simp⟩
      rw [Region.extendCensus, if_pos (by dsimp only; omega), ← hid]
      refine hslot.attempt_bind ?_ fun _ => rfl
      show contract.Answers (if census.isOrphan (layout.header id) then pure census
        else Region.extendCensus { pageSize := img.pageSize, stop := img.size }
          (census.count (layout.header id))) img (.ok census)
      rw [if_pos horphan]
      exact Answers.pure census
    · obtain ⟨before, after, hsplit, hanswers, hnone⟩ :=
        ih (fun other hother => hids other (List.mem_cons_of_mem _ hother)) htail
      refine ⟨id :: before, after, by rw [hsplit]; rfl, ?_, fun front other back heq => ?_⟩
      · rw [Region.extendCensus, if_pos (by dsimp only; omega), ← hid]
        refine hslot.attempt_bind ?_ fun _ => rfl
        show contract.Answers (if census.isOrphan (layout.header id) then pure census
          else Region.extendCensus { pageSize := img.pageSize, stop := img.size }
            (census.count (layout.header id))) img _
        rw [if_neg horphan]
        exact hanswers
      · rcases front with _ | ⟨first, front⟩
        · obtain ⟨rfl, -⟩ := List.cons.inj heq
          exact horphan
        · obtain ⟨rfl, hback⟩ := List.cons.inj heq
          exact hnone front other back hback

/-- The slots that a recount finds, which end behind the recorded end: those of the pages in front of it are all
there, what was found besides was known, and something leads to every copy. -/
structure Found (disk : Image) (header : FileHeader) (known : RecordId → Prop) (layouts : Nat → Layout)
    (layout : Layout) (stop : Nat) : Prop where
  tracks : layout.Tracks disk stop
  recorded : header.counters.size ≤ stop
  slot : ∀ id, layout.slot id = (layouts (id.offset / disk.pageSize)).slot id
  present : ∀ id ∈ layout.ids, id ∈ (layouts (id.offset / disk.pageSize)).ids
  complete : ∀ id, id ∈ (layouts (id.offset / disk.pageSize)).ids → id.offset < header.counters.size → id ∈ layout.ids
  known : ∀ id ∈ layout.ids, (layout.header id).state ≠ .padding → known id
  led : ∀ id ∈ layout.ids, header.counters.size ≤ id.offset → ∀ capacity length first,
    layout.header id = .live capacity length (some first) →
      ∃ other ∈ layout.ids, ∃ capacity, layout.header other = .moved capacity id

theorem Found.header_eq {layout : Layout} {stop : Nat} (h : Found disk header known layouts layout stop) (id : RecordId) :
    layout.header id = (layouts (id.offset / disk.pageSize)).header id := congrArg Slot.header (h.slot id)

/-- A slot in front of the recorded end is one of those that stand there, being the one of its page that covers the
place. -/
private theorem mem_of_offset_lt (h : Patchwork disk header known layouts) {layout : Layout} {stop : Nat}
    (htracks : layout.Tracks disk stop) (hslot : ∀ id, layout.slot id = (layouts (id.offset / disk.pageSize)).slot id)
    (hids : ∀ id ∈ layout.ids, id ∈ (layouts (id.offset / disk.pageSize)).ids) {before : List RecordId}
    (hmem : ∀ id ∈ before, id ∈ layout.ids)
    (hbefore : layout.Tiles disk.pageSize FileHeader.size before header.counters.size) {id : RecordId}
    (hid : id ∈ (layouts (id.offset / disk.pageSize)).ids) (hlow : id.offset < header.counters.size) :
    id ∈ before := by
  have hlow' : FileHeader.size ≤ id.offset := by
    obtain ⟨img, last, hversion, -⟩ := h.version (id.offset / disk.pageSize)
    exact hversion.tracks.size_le_offset hid
  obtain ⟨other, hother, hcovers, hend⟩ := hbefore.exists_covering hlow' hlow
  have hpage := htracks.tiles.end_le_endOfPage (hmem other hother)
  have hsame : id.offset / disk.pageSize = other.offset / disk.pageSize := by
    have hfloor := Nat.div_mul_le_self other.offset disk.pageSize
    unfold endOfPage at hpage
    rw [Nat.add_mul, Nat.one_mul] at hpage
    rw [Nat.div_eq_iff h.supported.pos]
    omega
  obtain ⟨img, last, hversion, -⟩ := h.version (other.offset / disk.pageSize)
  have hsize : layout.size other = (layouts (other.offset / disk.pageSize)).size other := by
    unfold Layout.size Layout.header
    rw [hslot]
  rw [hsame] at hid
  rw [hsize] at hend
  rw [hversion.tracks.tiles.eq_of_covers (hids other (hmem other hother)) hid hcovers hend]
  exact hother

/-- A copy counts only if something leads to it. -/
private theorem exists_moved_of_counted {layout : Layout} {front : List RecordId} {id : RecordId}
    (hfront : layout.Tiles disk.pageSize FileHeader.size front id.offset) {capacity length : Nat} {first : RecordId}
    (hlive : layout.header id = .live capacity length (some first))
    (hcounts : ¬(Region.censusOf layout .start front).isOrphan (layout.header id)) :
    ∃ other ∈ front, ∃ capacity, layout.header other = .moved capacity id := by
  have htarget : id ∈ (Region.censusOf layout .start front).targets := by
    by_contra hmissing
    apply hcounts
    rw [hlive, Census.isOrphan, Region.offset_censusOf hfront, RecordId.ofOffset?_offset]
    simpa using hmissing
  rcases Census.mem_targets_foldl.1 htarget with hstart | ⟨redirect, hredirect, htarget⟩
  · cases hstart
  · obtain ⟨other, hother, rfl⟩ := List.mem_map.1 hredirect
    cases hmoved : layout.header other with
    | moved capacity target =>
      rw [hmoved] at htarget
      obtain rfl := Option.some.inj htarget
      exact ⟨other, hother, capacity, hmoved⟩
    | _ =>
      rw [hmoved] at htarget
      cases htarget

/-- What stands there was known: it is of a record, or something leads to it. -/
private theorem known_of_led (h : Patchwork disk header known layouts) {layout : Layout}
    (hslot : ∀ id, layout.slot id = (layouts (id.offset / disk.pageSize)).slot id)
    (hids : ∀ id ∈ layout.ids, id ∈ (layouts (id.offset / disk.pageSize)).ids) {id : RecordId}
    (hid : id ∈ layout.ids) (hstate : (layout.header id).state ≠ .padding)
    (hled : header.counters.size ≤ id.offset → ∀ capacity length first,
      layout.header id = .live capacity length (some first) →
        ∃ other ∈ layout.ids, ∃ capacity, layout.header other = .moved capacity id) : known id := by
  have hheader : ∀ other, layout.header other = (layouts (other.offset / disk.pageSize)).header other := fun other =>
    congrArg Slot.header (hslot other)
  obtain ⟨img, last, hversion, -⟩ := h.version (id.offset / disk.pageSize)
  rw [hheader] at hstate
  rcases hversion.accounted id (hids id hid) hstate with hknown | ⟨hbehind, capacity, length, first, hlive⟩
  · exact hknown
  · rw [← hheader] at hlive
    obtain ⟨other, hother, capacity, hmoved⟩ := hled hbehind capacity length first hlive
    obtain ⟨img, last, hversion, -⟩ := h.version (other.offset / disk.pageSize)
    rw [hheader] at hmoved
    exact hversion.targets other (hids other hother) capacity id hmoved

/-- What is recounted is what was found: all slots up to the recorded end, and behind it only slots that were known. -/
private theorem found_of_census (h : Patchwork disk header known layouts) {layout : Layout} {stop stop' : Nat}
    (htracks : layout.Tracks disk stop) (hslot : ∀ id, layout.slot id = (layouts (id.offset / disk.pageSize)).slot id)
    (hids : ∀ id ∈ layout.ids, id ∈ (layouts (id.offset / disk.pageSize)).ids) {before middle after : List RecordId}
    (hall : layout.ids = (before ++ middle) ++ after)
    (hbefore : layout.Tiles disk.pageSize FileHeader.size before header.counters.size)
    (hmiddle : layout.Tiles disk.pageSize header.counters.size middle stop')
    (hcounts : ∀ front id back, middle = front ++ id :: back →
      ¬(Region.censusOf layout .start (before ++ front)).isOrphan (layout.header id)) :
    Found disk header known layouts { layout with ids := before ++ middle } stop' := by
  have hmem : ∀ id ∈ before ++ middle, id ∈ layout.ids := fun id hid => hall ▸ List.mem_append_left _ hid
  have htiles : layout.Tiles disk.pageSize FileHeader.size (before ++ middle) stop' :=
    Layout.Tiles.append_iff.2 ⟨_, hbefore, hmiddle⟩
  have hled : ∀ id ∈ before ++ middle, header.counters.size ≤ id.offset → ∀ capacity length first,
      layout.header id = .live capacity length (some first) →
        ∃ other ∈ before ++ middle, ∃ capacity, layout.header other = .moved capacity id := by
    intro id hid hbehind capacity length first hlive
    rcases List.mem_append.1 hid with hid | hid
    · have hend := hbefore.end_le hid
      have hpos := layout.size_pos id
      omega
    · -- a copy was counted behind the slots in front of it
      obtain ⟨front, back, rfl⟩ := List.append_of_mem hid
      obtain ⟨place, hfront, rfl, -⟩ := Layout.Tiles.append_iff.1 hmiddle
      obtain ⟨other, hother, hmoved⟩ :=
        exists_moved_of_counted (Layout.Tiles.append_iff.2 ⟨_, hbefore, hfront⟩) hlive (hcounts front id back rfl)
      refine ⟨other, ?_, hmoved⟩
      rw [← List.append_assoc]
      exact List.mem_append_left _ hother
  refine ⟨htracks.take hall htiles, hmiddle.le, hslot, fun id hid => hids id (hmem id hid), fun id hid hlow => ?_,
    fun id hid hstate => ?_, hled⟩
  · refine List.mem_append_left _ (h.mem_of_offset_lt htracks hslot hids (fun other hother => ?_) hbefore hid hlow)
    exact hmem other (List.mem_append_left _ hother)
  · refine h.known_of_led hslot hids (hmem id hid) hstate fun hbehind capacity length first hlive => ?_
    obtain ⟨other, hother, hmoved⟩ := hled id hid hbehind capacity length first hlive
    exact ⟨other, hmem other hother, hmoved⟩

/-- A recount finds slots, and adds up their shares. -/
theorem recount_answers {σ : Type} [PagedStorage σ] (contract : StorageContract σ)
    (h : Patchwork disk header known layouts) : ∃ layout stop, Found disk header known layouts layout stop ∧
      contract.Answers (Region.recount { pageSize := disk.pageSize, stop := header.counters.size }) disk
        (.ok { layout.totals layout.ids with size := stop }) := by
  obtain ⟨layout, stop, htracks, hslot, hids, -, hboundary, hends⟩ := h.exists_tracks
  obtain ⟨before, rest, hsplit, hbefore⟩ := hboundary.split htracks.tiles
  have hmem : ∀ id ∈ before, id ∈ layout.ids := fun id hid => hsplit ▸ List.mem_append_left _ hid
  have hmem' : ∀ id ∈ rest, id ∈ layout.ids := fun id hid => hsplit ▸ List.mem_append_right _ hid
  have htiles := htracks.tiles
  rw [hsplit] at htiles
  obtain ⟨mid, hbefore', hrest⟩ := Layout.Tiles.append_iff.1 htiles
  obtain rfl : header.counters.size = mid := hbefore.stop_unique hbefore'
  have hrest' : layout.Tiles disk.pageSize (Region.censusOf layout .start before).offset rest stop := by
    rw [Region.offset_censusOf hbefore]
    exact hrest
  -- the recount goes on behind the recorded end, up to the first copy that nothing leads to
  obtain ⟨middle, after, rfl, hanswers, hnone⟩ :=
    extendCensus_answers contract h.wellFormed h.supported htracks hends hmem' hrest'
  obtain ⟨stop', hmiddle, -⟩ := Layout.Tiles.append_iff.1 hrest
  have hfound : Found disk header known layouts { layout with ids := before ++ middle } stop' :=
    h.found_of_census htracks hslot hids (by rw [hsplit, List.append_assoc]) hbefore hmiddle fun front id back heq => by
      rw [Region.censusOf_append]
      exact hnone front id back heq
  have hcounters : (Region.censusOf layout (Region.censusOf layout .start before) middle).counters =
      { layout.totals (before ++ middle) with size := stop' } := by
    rw [← Region.censusOf_append]
    exact Region.counters_censusOf_start (Layout.Tiles.append_iff.2 ⟨_, hbefore, hmiddle⟩)
  refine ⟨_, stop', hfound, ?_⟩
  change contract.Answers _ disk (.ok { layout.totals (before ++ middle) with size := stop' })
  rw [← hcounters]
  unfold Region.recount
  have hcounted : contract.Answers
      (Region.takeCensus { pageSize := disk.pageSize, stop := header.counters.size } .start) disk _ :=
    Region.takeCensus_answers h.wellFormed htracks rfl hmem hbefore
  refine hcounted.bind ?_
  refine contract.size_answers.bind ?_
  exact hanswers.bind (Answers.pure _)

end Patchwork

end RecordStore
