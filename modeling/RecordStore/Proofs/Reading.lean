import RecordStore.Proofs.Layout
import RecordStore.Region.Resolution

/-!
# Reading a tracked region

What the reading functions answer on an image that a layout tracks: the header of every slot (`slotAt_answers`), and
for every identifier whether it names a slot (`isSlot_answers`), whatever bytes the payloads hold.
-/

namespace RecordStore

open Bytes StorageView

theorem SlotHeader.headerSize_le (header : SlotHeader) : header.headerSize ≤ fullSize := by
  cases header <;> simp [headerSize, fullSize, paddingSize]

theorem Layout.headerSize_le_size (layout : Layout) (id : RecordId) :
    (layout.header id).headerSize ≤ layout.size id := by
  have := (layout.header id).size_le_slotSize
  unfold size
  omega

namespace Layout.Tracks

variable {layout : Layout} {img : Image} {stop : Nat}

/-- Decoding the bytes at a slot gives its header, if as many bytes are there as the header has. -/
theorem decode_read (h : layout.Tracks img stop) {id : RecordId} (hid : id ∈ layout.ids) {length : Nat}
    (hlength : (layout.header id).headerSize ≤ length) :
    SlotHeader.decode id.offset (img.read id.offset length).data.toList = .ok (layout.header id) := by
  have hencode : (layout.slot id).header.encode.length ≤ length := by
    rw [SlotHeader.length_encode_header]
    exact hlength
  obtain ⟨rest, hrest⟩ := (h.holds id hid).left.toList_read hencode
  rw [hrest]
  exact SlotHeader.decode_encode_append (h.valid id hid).header rest

/-- The slots from the first one of a page on. -/
theorem split_at_first (h : layout.Tracks img stop) {offset : Nat} (hoffset : offset < stop) :
    ∃ before after, layout.ids = before ++ after ∧
      layout.Tiles img.pageSize FileHeader.size before (max (offset / img.pageSize * img.pageSize) FileHeader.size) ∧
      layout.Tiles img.pageSize (max (offset / img.pageSize * img.pageSize) FileHeader.size) after stop := by
  have hpage := Nat.div_mul_le_self offset img.pageSize
  rcases Nat.le_total (offset / img.pageSize * img.pageSize) FileHeader.size with hle | hle
  · rw [Nat.max_eq_right hle]
    exact ⟨[], layout.ids, rfl, rfl, h.tiles⟩
  · rw [Nat.max_eq_left hle]
    exact h.tiles.split_at_page hle (by omega)

end Layout.Tracks

namespace Region

variable {σ : Type} [PagedStorage σ] {contract : StorageContract σ} {layout : Layout} {img : Image} {stop : Nat}

theorem slotAt_answers (hwf : img.WellFormed) (h : layout.Tracks img stop) {id : RecordId} (hid : id ∈ layout.ids)
    {region : Region} (hpageSize : region.pageSize = img.pageSize) (hstop : id.offset + layout.size id ≤ region.stop) :
    contract.Answers (region.slotAt id.offset) img (.ok (layout.header id)) := by
  have hpage := h.tiles.end_le_endOfPage hid
  have hpageEnd := endOfPage_le (Nat.lt_of_lt_of_le (h.offset_lt hid) h.bound) hwf.pages
  have hheader := layout.headerSize_le_size id
  have hfull := (layout.header id).headerSize_le
  have hlength : (layout.header id).headerSize ≤
      min (endOfPage img.pageSize id.offset - id.offset) SlotHeader.fullSize := by omega
  unfold slotAt
  rw [region.pageEnd_eq, hpageSize]
  refine (contract.read_answers (by omega)).bind ?_
  rw [h.decode_read hid hlength]
  change contract.Answers (if _ then _ else _) img _
  rw [if_neg (by unfold Layout.size at hstop hpage; omega)]
  exact Answers.pure _

/-- Walking the slots of a page finds out whether a slot starts at `target`. -/
theorem reaches_eq (h : layout.Tracks img stop) {first length target : Nat} (hstop : target < stop)
    (hlength : ∀ id ∈ layout.ids, endOfPage img.pageSize id.offset = endOfPage img.pageSize target →
      id.offset + layout.size id ≤ first + length)
    {ids : List RecordId} (hids : ∀ id ∈ ids, id ∈ layout.ids) {position : Nat}
    (htiles : layout.Tiles img.pageSize position ids stop) (hfirst : first ≤ position) (hposition : position ≤ target)
    (hsame : endOfPage img.pageSize position = endOfPage img.pageSize target) :
    reaches (img.read first length) first target position = .ok (decide (∃ id ∈ ids, id.offset = target)) := by
  -- the walk steps from slot to slot, all in the page of the target
  induction ids generalizing position with
  | nil =>
    have : position = stop := htiles
    omega
  | cons id ids ih =>
    obtain ⟨rfl, hpage, hrest⟩ := htiles
    have hmem := hids id List.mem_cons_self
    rw [reaches]
    rcases Nat.lt_or_eq_of_le hposition with hlt | heq
    · have hend := hlength id hmem hsame
      have hheader := layout.headerSize_le_size id
      have hfull := (layout.header id).headerSize_le
      have hcover : (layout.header id).headerSize ≤
          min (id.offset - first + SlotHeader.fullSize) length - (id.offset - first) := by omega
      have hstart : first + (id.offset - first) = id.offset := by omega
      rw [if_pos hlt]
      simp only [Image.extract_read]
      rw [hstart, h.decode_read hmem hcover]
      change reaches _ _ _ (id.offset + layout.size id) = _
      have hskip : (∃ other ∈ id :: ids, other.offset = target) ↔ ∃ other ∈ ids, other.offset = target := by
        simp [Nat.ne_of_lt hlt]
      simp only [hskip]
      rcases Nat.lt_or_ge target (id.offset + layout.size id) with hover | hle
      · -- the slot that is stepped over covers the target
        have hnone : ¬∃ other ∈ ids, other.offset = target := by
          rintro ⟨other, hother, rfl⟩
          have := hrest.start_le hother
          omega
        rw [reaches, if_neg (by omega), decide_eq_false hnone, decide_eq_false (by omega)]
      · have hpage' := Nat.le_antisymm (endOfPage_mono img.pageSize hle)
          (hsame ▸ endOfPage_mono img.pageSize (Nat.le_add_right id.offset (layout.size id)))
        exact ih (fun other hother => hids other (List.mem_cons_of_mem _ hother)) hrest (by omega) hle hpage'
    · rw [if_neg (by omega), decide_eq_true heq, decide_eq_true ⟨id, List.mem_cons_self, heq⟩]

/-- The slots in front of a tiling are not among those that start in it. -/
private theorem mem_ids_iff {pageSize start mid : Nat} {before after : List RecordId}
    (hids : layout.ids = before ++ after) (hbefore : layout.Tiles pageSize start before mid) {id : RecordId}
    (hmid : mid ≤ id.offset) : id ∈ layout.ids ↔ ∃ other ∈ after, other.offset = id.offset := by
  rw [hids, List.mem_append]
  constructor
  · rintro (hid | hid)
    · have hend := hbefore.end_le hid
      have hpos := layout.size_pos id
      omega
    · exact ⟨id, hid, rfl⟩
  · rintro ⟨other, hother, hoffset⟩
    exact .inr (RecordId.offset_inj hoffset ▸ hother)

theorem isSlotStart_answers (h : layout.Tracks img stop) {id : RecordId}
    (hlow : FileHeader.size ≤ id.offset) (hhigh : id.offset < stop) :
    contract.Answers (isSlotStart { pageSize := img.pageSize, stop } id.offset) img
      (.ok (decide (id ∈ layout.ids))) := by
  obtain ⟨before, after, hids, hbefore, hafter⟩ := h.split_at_first hhigh
  have hpageStart := Nat.div_mul_le_self id.offset img.pageSize
  have hdecide := mem_ids_iff hids hbefore (show _ ≤ id.offset by omega)
  unfold isSlotStart pageStart
  by_cases hfirst : id.offset = max (id.offset / img.pageSize * img.pageSize) FileHeader.size
  · -- the first slot of its page
    have hmem : id ∈ layout.ids := by
      refine hdecide.2 ?_
      cases after with
      | nil =>
        have : max (id.offset / img.pageSize * img.pageSize) FileHeader.size = stop := hafter
        omega
      | cons other after => exact ⟨other, List.mem_cons_self, hafter.1.trans hfirst.symm⟩
    rw [if_pos hfirst, decide_eq_true hmem]
    exact Answers.pure _
  · rw [if_neg hfirst, Region.pageEnd_eq]
    dsimp only
    generalize hstart : max (id.offset / img.pageSize * img.pageSize) FileHeader.size = first at *
    have hle : first ≤ id.offset := by omega
    have hsame : endOfPage img.pageSize first = endOfPage img.pageSize id.offset := by
      refine Nat.le_antisymm (endOfPage_mono _ hle) ?_
      rw [← endOfPage_start]
      exact endOfPage_mono _ (by omega)
    have hbound := h.bound
    have hend := lt_endOfPage (h.pageSize_pos (by omega)) id.offset
    -- only the slots of the page are walked over
    have hreaches :
        reaches (img.read first (min (endOfPage img.pageSize id.offset) stop - first)) first id.offset first =
          .ok (decide (∃ other ∈ after, other.offset = id.offset)) := by
      refine reaches_eq h hhigh ?_ ?_ hafter (Nat.le_refl _) hle hsame
      · intro other hother hpage
        have := h.tiles.end_le_endOfPage hother
        have := h.tiles.end_le hother
        omega
      · intro other hother
        rw [hids]
        exact List.mem_append_right _ hother
    refine (contract.read_answers (by omega)).bind ?_
    rw [hreaches]
    simp only [hdecide]
    exact Answers.ofExcept _

theorem isSlot_answers (h : layout.Tracks img stop) (id : RecordId) :
    contract.Answers (isSlot { pageSize := img.pageSize, stop } id) img (.ok (decide (id ∈ layout.ids))) := by
  unfold isSlot
  by_cases hcontains : FileHeader.size ≤ id.offset ∧ id.offset < stop
  · rw [if_pos (by simpa [contains] using hcontains)]
    exact isSlotStart_answers h hcontains.1 hcontains.2
  · have hmem : id ∉ layout.ids := fun hid => hcontains ⟨h.size_le_offset hid, h.offset_lt hid⟩
    rw [if_neg (by simpa [contains] using hcontains), decide_eq_false hmem]
    exact Answers.pure _

end Region

end RecordStore
