import RecordStore.Proofs.Reading
import RecordStore.Page.File
import RecordStore.Region.Placement

/-!
# Writing to a tracked region

What the writing functions make of a layout.  A slot is overwritten as a whole or not at all (`setSlot_runs`).  A new
slot is appended, perhaps behind padding (`append_runs`); what an append that was cut off leaves behind lies behind the
end of the region (`Layout.Tail`).
-/

namespace RecordStore

open Bytes StorageView

/-- A page size that a store can have. -/
structure SupportedPageSize (pageSize : Nat) : Prop where
  large : minPageSize ≤ pageSize
  aligned : pageSize % alignment = 0
  fits : pageSize < 2 ^ 32

theorem SupportedPageSize.pos {pageSize : Nat} (h : SupportedPageSize pageSize) : 0 < pageSize :=
  Nat.lt_of_lt_of_le (by decide) h.large

theorem SupportedPageSize.le_reach {pageSize : Nat} (h : SupportedPageSize pageSize) : pageSize ≤ reach := by
  have hfits := h.fits
  unfold reach
  omega

theorem SupportedPageSize.header_le {pageSize : Nat} (h : SupportedPageSize pageSize) : FileHeader.size ≤ pageSize :=
  Nat.le_trans (by decide) h.large

namespace Layout

/-- `base` is the layout, with padding at its end if there is a gap between `stop` and `stop'`. -/
inductive Padded (layout : Layout) (stop : Nat) : Layout → Nat → Prop
  | whole : Padded layout stop layout stop
  | gap {id : RecordId} {capacity : Nat} (hid : id.offset = stop) :
      Padded layout stop (layout.push id (.bare (.padding capacity))) (stop + (SlotHeader.padding capacity).slotSize)

/-- Behind the slots there is nothing, or first a relocated copy that is no part of the layout. -/
inductive Ends (layout : Layout) (img : Image) (stop : Nat) : Prop
  | blank (h : img.BlankFrom stop)
  | copy {id first : RecordId} {capacity length : Nat} {payload : ByteArray} (hid : id.offset = stop)
      (h : (layout.push id { header := .live capacity length (some first), payload }).Tracks img
        (stop + (SlotHeader.live capacity length (some first)).slotSize))
      (hblank : img.BlankFrom (stop + (SlotHeader.live capacity length (some first)).slotSize))

/-- What an append that did not take effect may leave behind the slots. -/
def Tail (layout : Layout) (img : Image) (stop : Nat) : Prop :=
  ∃ base stop', layout.Padded stop base stop' ∧ base.Tracks img stop' ∧ base.Ends img stop'

end Layout

namespace Image

variable {img img' : Image} {start stop stop' reach : Nat}

/-- Padding stands between `stop` and `stop'`, if there is anything between them. -/
inductive Gap (img : Image) (stop : Nat) : Nat → Prop
  | whole : Gap img stop stop
  | padding {id : RecordId} {capacity : Nat} (hid : id.offset = stop)
      (hslot : img.HasSlot id (.bare (.padding capacity))) :
      Gap img stop (stop + (SlotHeader.padding capacity).slotSize)

/-- Nothing stands behind `stop`, or the header of a padding slot alone. -/
structure Spare (img : Image) (stop : Nat) : Prop where
  blank : img.BlankFrom (stop + SlotHeader.paddingSize)
  gap : ∃ stop', img.Gap stop stop' ∧ img.BlankFrom stop'

/-- Or a relocated copy behind it that reaches no further than `reach`, inside which anything may stand. -/
inductive Trail (img : Image) (stop reach : Nat) : Prop
  | spare (h : img.Spare stop)
  | copy {id first : RecordId} {capacity length : Nat} {payload : ByteArray} (hgap : img.Gap stop id.offset)
      (hslot : img.HasSlot id { header := .live capacity length (some first), payload })
      (hblank : img.BlankFrom (id.offset + (SlotHeader.live capacity length (some first)).slotSize))
      (hreach : id.offset + (SlotHeader.live capacity length (some first)).slotSize ≤ reach)

theorem BlankFrom.spare (h : img.BlankFrom stop) : img.Spare stop :=
  ⟨fun i hi => h i (by omega), stop, .whole, h⟩

theorem Gap.le (h : img.Gap stop stop') : stop ≤ stop' := by
  cases h with
  | whole => exact Nat.le_refl _
  | padding => exact Nat.le_add_right _ _

/-- What happens in front of `stop` is of no account. -/
theorem Gap.congr (h : img.Gap stop stop') (hchanged : img.ChangedWithin img' start stop) : img'.Gap stop stop' := by
  cases h with
  | whole => exact .whole
  | padding hid hslot => exact .padding hid (hslot.congr hchanged (Nat.le_of_eq hid.symm))

theorem Spare.congr (h : img.Spare stop) (hchanged : img.ChangedWithin img' start stop) : img'.Spare stop := by
  obtain ⟨stop', hgap, hblank⟩ := h.gap
  refine ⟨fun i hi => ?_, stop', hgap.congr hchanged, fun i hi => ?_⟩
  · rw [hchanged.byte i (.inr (by omega))]
    exact h.blank i hi
  · have hle := hgap.le
    rw [hchanged.byte i (.inr (by omega))]
    exact hblank i hi

theorem Trail.congr (h : img.Trail stop reach) (hchanged : img.ChangedWithin img' start stop) :
    img'.Trail stop reach := by
  cases h with
  | spare h => exact .spare (h.congr hchanged)
  | copy hgap hslot hblank hreach =>
    have hle := hgap.le
    refine .copy (hgap.congr hchanged) (hslot.congr hchanged hle) (fun i hi => ?_) hreach
    rw [hchanged.byte i (.inr (by omega))]
    exact hblank i hi

/-- A copy stands behind `stop`. -/
theorem Trail.spare_of_le (h : img.Trail stop reach) (hle : reach ≤ stop) : img.Spare stop := by
  cases h with
  | spare h => exact h
  | @copy id first capacity length payload hgap _ _ hreach =>
    have hbehind := hgap.le
    have hsize := SlotHeader.paddingSize_le_slotSize (.live capacity length (some first))
    unfold SlotHeader.paddingSize at hsize
    omega

theorem Trail.blankFrom (h : img.Trail stop reach) {mark : Nat} (hreach : reach ≤ mark)
    (hstop : stop + SlotHeader.paddingSize ≤ mark) : img.BlankFrom mark := by
  cases h with
  | spare h => exact fun i hi => h.blank i (by omega)
  | copy _ _ hblank hend => exact fun i hi => hblank i (by omega)

theorem Gap.padded (h : img.Gap stop stop') {layout : Layout} (htracks : layout.Tracks img stop) :
    ∃ base, layout.Padded stop base stop' ∧ base.Tracks img stop' := by
  cases h with
  | whole => exact ⟨layout, .whole, htracks⟩
  | padding hid hslot => exact ⟨_, .gap hid, htracks.append hid hslot⟩

/-- Behind the slots of a layout this is its tail. -/
theorem Trail.tail (h : img.Trail stop reach) {layout : Layout} (htracks : layout.Tracks img stop) :
    layout.Tail img stop := by
  cases h with
  | spare h =>
    obtain ⟨stop', hgap, hblank⟩ := h.gap
    obtain ⟨base, hpadded, hbase⟩ := hgap.padded htracks
    exact ⟨base, stop', hpadded, hbase, .blank hblank⟩
  | copy hgap hslot hblank _ =>
    obtain ⟨base, hpadded, hbase⟩ := hgap.padded htracks
    exact ⟨base, _, hpadded, hbase, .copy rfl (hbase.append rfl hslot) hblank⟩

end Image

theorem Layout.Padded.gap_of_tracks {layout base : Layout} {img : Image} {stop stop' : Nat}
    (h : layout.Padded stop base stop') (hbase : base.Tracks img stop') : img.Gap stop stop' := by
  cases h with
  | whole => exact .whole
  | gap hid => exact .padding hid hbase.hasSlot_push

namespace Region

variable {σ : Type} [PagedStorage σ] {contract : StorageContract σ} {layout : Layout} {img : Image} {stop : Nat}

/-- Overwriting a slot by one of the same size. -/
theorem setSlot_runs (h : layout.Tracks img stop) {id : RecordId} {slot : Slot} (hid : id ∈ layout.ids)
    (hvalid : slot.Valid id.offset) (hsize : slot.header.slotSize = layout.size id)
    {post : Except StoreError Unit → Image → Prop}
    (hok : ∀ after, (layout.set id slot).Tracks after stop → img.ChangedWithin after FileHeader.size stop →
      post (.ok ()) after)
    (hio : contract.fallible → ∀ cause, post (.error (.io cause)) img) :
    contract.Runs (SlotM.onStorage (PagedStorage.write id.offset slot.bytes)) img post := by
  have hbytes := hvalid.size_bytes_le
  have hend := h.tiles.end_le hid
  have hbound := h.bound
  exact contract.write_runs (by omega)
    (hok _ (h.set hid hvalid hsize) (.write img (h.size_le_offset hid) (by omega))) hio

theorem valid_bare {header : SlotHeader} {offset : Nat} (h : header.Valid offset) (hlength : header.payloadLength = 0) :
    (Slot.bare header).Valid offset := ⟨h, hlength.symm⟩

theorem setHeader_runs (h : layout.Tracks img stop) {id : RecordId} {header : SlotHeader} (hid : id ∈ layout.ids)
    (hvalid : header.Valid id.offset) (hlength : header.payloadLength = 0) (hsize : header.slotSize = layout.size id)
    {post : Except StoreError Unit → Image → Prop}
    (hok : ∀ after, (layout.set id (.bare header)).Tracks after stop → img.ChangedWithin after FileHeader.size stop →
      post (.ok ()) after)
    (hio : contract.fallible → ∀ cause, post (.error (.io cause)) img) :
    contract.Runs (writeHeader id.offset header) img post := by
  unfold writeHeader
  rw [← Slot.bytes_bare]
  exact setSlot_runs h hid (valid_bare hvalid hlength) hsize hok hio

/-! ### Appending -/

theorem endOfPage_mod {pageSize : Nat} (h : pageSize % alignment = 0) (offset : Nat) :
    endOfPage pageSize offset % alignment = 0 := by
  unfold endOfPage
  rw [Nat.mul_mod, h, Nat.mul_zero, Nat.zero_mod]

/-- Where a slot goes that does not fit the rest of the page at `stop`. -/
theorem gap_facts (hpages : img.size % img.pageSize = 0) (hbound : stop ≤ img.size) (hstop : stop % alignment = 0)
    (hpageSize : img.pageSize % alignment = 0) (hpos : 0 < img.pageSize) {size : Nat} (hsize : size ≤ img.pageSize)
    (hgap : endOfPage img.pageSize stop < stop + size) :
    stop < img.size ∧ endOfPage img.pageSize stop ≤ img.size ∧ stop + 8 ≤ endOfPage img.pageSize stop := by
  have hlt := lt_endOfPage hpos stop
  have hmod := endOfPage_mod hpageSize stop
  have hne : stop ≠ img.size := by
    rintro rfl
    have hend : endOfPage img.pageSize img.size = img.size + img.pageSize := by
      unfold endOfPage
      rw [Nat.add_mul, Nat.one_mul, Nat.div_mul_cancel (Nat.dvd_of_mod_eq_zero hpages)]
    omega
  have hsize : stop < img.size := by omega
  refine ⟨hsize, endOfPage_le hsize hpages, ?_⟩
  unfold alignment at hmod hstop
  omega

/-- Writing a slot at the end of the region, where its page has room for it. -/
private theorem write_at_end_runs (h : layout.Tracks img stop) (hpageSize : SupportedPageSize img.pageSize)
    {id : RecordId} {header : SlotHeader} {payload : ByteArray} (hid : id.offset = stop)
    (hvalid : (Slot.mk header payload).Valid id.offset) (hroom : stop + header.slotSize ≤ endOfPage img.pageSize stop)
    {post : Except StoreError (RecordId × Nat) → Image → Prop}
    (hok : ∀ after, layout.Tracks after stop →
      (layout.push id { header, payload }).Tracks after (stop + header.slotSize) →
      img.ChangedWithin after stop (stop + header.slotSize) → post (.ok (id, stop + header.slotSize)) after)
    (hio : contract.fallible → ∀ after cause, img.ChangedWithin after stop stop → post (.error (.io cause)) after) :
    contract.Runs (do
      SlotM.onStorage (PagedStorage.grow (stop + header.slotSize))
      writeSlot stop header payload
      return (id, stop + header.slotSize)) img post := by
  have hreach : stop + header.slotSize ≤ reach := by
    have hlt := id.offset_lt
    have hfits := hpageSize.fits
    have hend := endOfPage_le_add img.pageSize stop
    unfold reach
    omega
  have hbytes := hvalid.size_bytes_le
  -- the storage grows first, and if the slot is cut off, no byte has changed
  refine Runs.step (contract.grow_runs hreach (fun size htarget hsize => ?_) fun hfallible cause => ?_)
  · have hgrown : img.ChangedWithin { img with size } stop stop := .grow img hsize
    have htracks := h.of_changedWithin hgrown (Nat.le_refl _)
    have hpush := htracks.push hid hvalid hroom htarget
    have hchanged : img.ChangedWithin (({ img with size } : Image).write stop (Slot.mk header payload).bytes) stop
        (stop + header.slotSize) :=
      (hgrown.mono (Nat.le_refl _) (Nat.le_add_right _ _)).trans
        (.write _ (Nat.le_refl _) (Nat.add_le_add_left hbytes stop))
    refine Runs.step (contract.write_runs ?_ (Runs.pure ?_) fun hfallible cause => ?_)
    · exact Nat.le_trans (Nat.add_le_add_left hbytes stop) htarget
    · exact hok _ (h.of_changedWithin hchanged (Nat.le_refl _)) hpush hchanged
    · exact hio hfallible _ cause hgrown
  · exact hio hfallible _ cause (.refl ..)

theorem placement_here {pageSize size : Nat} (h : stop + size ≤ endOfPage pageSize stop) :
    placement { pageSize, stop } size = { offset := stop, padding := none } := if_neg (Nat.not_lt.2 h)

theorem placement_next {pageSize size : Nat} (h : endOfPage pageSize stop < stop + size) :
    placement { pageSize, stop } size =
      { offset := endOfPage pageSize stop
        padding := some (endOfPage pageSize stop - stop - SlotHeader.paddingSize) } := if_pos h

/-- Padding up to the end of the page. -/
private theorem gap_padding (h : layout.Tracks img stop) (hpageSize : SupportedPageSize img.pageSize)
    (hroom : stop + 8 ≤ endOfPage img.pageSize stop) {capacity : Nat}
    (hcapacity : endOfPage img.pageSize stop - stop - SlotHeader.paddingSize = capacity) (offset : Nat) :
    stop + (SlotHeader.padding capacity).slotSize = endOfPage img.pageSize stop ∧
      (Slot.bare (.padding capacity)).Valid offset := by
  have hmod := endOfPage_mod hpageSize.aligned stop
  have hstop := h.stop_mod
  have hfits := hpageSize.fits
  have hend := endOfPage_le_add img.pageSize stop
  have hcapacity' : capacity < 2 ^ 32 := by omega
  refine ⟨?_, valid_bare hcapacity' rfl⟩
  simp only [SlotHeader.slotSize, SlotHeader.sizeFor, SlotHeader.headerSize, SlotHeader.capacity, alignUp]
  unfold SlotHeader.paddingSize alignment at *
  omega

/-- The rest of the page filled with padding. -/
private theorem pad_page (h : layout.Tracks img stop) (hpageSize : SupportedPageSize img.pageSize)
    (hlt : stop < 2 ^ 35) (hroom : stop + 8 ≤ endOfPage img.pageSize stop)
    (hend : endOfPage img.pageSize stop ≤ img.size) {capacity : Nat}
    (hcapacity : endOfPage img.pageSize stop - stop - SlotHeader.paddingSize = capacity) :
    stop + (Slot.bare (.padding capacity)).bytes.size ≤ endOfPage img.pageSize stop ∧
      ∃ base, layout.Padded stop base (endOfPage img.pageSize stop) ∧
        base.Tracks (img.write stop (Slot.bare (.padding capacity)).bytes) (endOfPage img.pageSize stop) := by
  obtain ⟨gap, hgap⟩ : ∃ gap : RecordId, gap.offset = stop := by
    have hlow := h.size_le_stop
    unfold FileHeader.size at hlow
    exact RecordId.exists_offset (by omega) hlt h.stop_mod
  obtain ⟨hpadding, hvalid⟩ := gap_padding h hpageSize hroom hcapacity gap.offset
  rw [← hpadding] at hend
  have hpage : stop + (SlotHeader.padding capacity).slotSize ≤ endOfPage img.pageSize stop := Nat.le_of_eq hpadding
  have hpush := h.push hgap hvalid hpage hend
  refine ⟨Nat.le_trans (Nat.add_le_add_left hvalid.size_bytes_le stop) hpage, ?_⟩
  rw [← hpadding]
  exact ⟨_, .gap hgap, hpush⟩

/-- There is no room for a slot whose place has no identifier. -/
theorem append_answers_full {header : SlotHeader} {payload : ByteArray} {region : Region}
    (hid : RecordId.ofOffset? (region.placement header.slotSize).offset = none) :
    contract.Answers (region.append header payload) img (.error (.full (region.placement header.slotSize).offset)) := by
  unfold append
  simp only [hid]
  exact Answers.throw _

/-- A slot appended: behind padding if the rest of the page is too small.  An append that is cut off changes nothing
in front of the end of the region. -/
theorem append_runs (hwf : img.WellFormed) (hpageSize : SupportedPageSize img.pageSize) (h : layout.Tracks img stop)
    {id : RecordId} {header : SlotHeader} {payload : ByteArray}
    (hid : RecordId.ofOffset? (placement { pageSize := img.pageSize, stop } header.slotSize).offset = some id)
    (hvalid : (Slot.mk header payload).Valid id.offset) (hsize : header.slotSize ≤ img.pageSize)
    {post : Except StoreError (RecordId × Nat) → Image → Prop}
    (hok : ∀ base after, layout.Padded stop base id.offset → base.Tracks after id.offset →
      (base.push id { header, payload }).Tracks after (id.offset + header.slotSize) →
      img.ChangedWithin after stop (id.offset + header.slotSize) → post (.ok (id, id.offset + header.slotSize)) after)
    (hio : contract.fallible → ∀ after cause, layout.Tracks after stop →
      img.ChangedWithin after stop (endOfPage img.pageSize stop) → (img.Spare stop → after.Spare stop) →
      post (.error (.io cause)) after) :
    contract.Runs (append { pageSize := img.pageSize, stop } header payload) img post := by
  have hpos := hpageSize.pos
  unfold append
  simp only [hid]
  by_cases hgap : endOfPage img.pageSize stop < stop + header.slotSize
  · -- padding up to the end of the page, and the slot behind it
    obtain ⟨hstop, hend, hroom⟩ := gap_facts hwf.pages h.bound h.stop_mod hpageSize.aligned hpos hsize hgap
    generalize hcapacity : endOfPage img.pageSize stop - stop - SlotHeader.paddingSize = capacity
    have hplace := placement_next hgap
    rw [hcapacity] at hplace
    rw [hplace] at hid ⊢
    dsimp only at hid ⊢
    have hoffset := RecordId.offset_of_ofOffset? hid
    have hhigh := id.offset_lt
    obtain ⟨hbytes, base, hpadded, hbase⟩ := pad_page h hpageSize (by omega) hroom hend hcapacity
    have hwritten : img.ChangedWithin (img.write stop (Slot.bare (.padding capacity)).bytes) stop
        (endOfPage img.pageSize stop) := .write img (Nat.le_refl _) hbytes
    have hroom' : endOfPage img.pageSize stop + header.slotSize ≤
        endOfPage img.pageSize (endOfPage img.pageSize stop) := by
      rw [endOfPage_endOfPage hpos]
      omega
    unfold writeHeader
    rw [← Slot.bytes_bare]
    refine Runs.step (contract.write_runs (by omega) ?_ fun hfallible cause => ?_)
    · rw [← hoffset] at hbase hroom' hpadded hwritten ⊢
      refine write_at_end_runs hbase hpageSize rfl hvalid hroom' (fun after htracks hpush hchanged => ?_)
        fun hfallible after cause hchanged => ?_
      · have hle : stop ≤ id.offset := by omega
        exact hok _ after hpadded htracks hpush
          ((hwritten.mono (Nat.le_refl _) (Nat.le_add_right _ _)).trans (hchanged.mono hle (Nat.le_refl _)))
      · -- cut off behind the padding, which is all that was written
        have hbase' := hbase.of_changedWithin hchanged (Nat.le_refl _)
        have hchanged' : img.ChangedWithin after stop id.offset :=
          hwritten.trans (hchanged.mono (by omega) (Nat.le_refl _))
        refine hio hfallible after cause (h.of_changedWithin hchanged' (Nat.le_refl _)) (hoffset ▸ hchanged')
          fun hspare => ⟨fun i hi => ?_, _, hpadded.gap_of_tracks hbase', hchanged'.blankFrom hspare.blank
            (hoffset ▸ hroom)⟩
        have hheader : (Slot.bare (.padding capacity)).bytes.size = SlotHeader.paddingSize := by
          rw [Slot.bytes_bare, size_ofList, SlotHeader.length_encode_header]
          rfl
        rw [hchanged.byte i (by omega), Image.byte_write_of_le _ _ (by omega)]
        exact hspare.blank i hi
    · exact hio hfallible _ cause h (.refl ..) fun hspare => hspare
  · have hroom : stop + header.slotSize ≤ endOfPage img.pageSize stop := Nat.not_lt.1 hgap
    rw [placement_here hroom] at hid ⊢
    dsimp only at hid ⊢
    obtain rfl := RecordId.offset_of_ofOffset? hid
    refine write_at_end_runs h hpageSize rfl hvalid hroom (fun after htracks hpush hchanged => ?_)
      fun hfallible after cause hchanged => ?_
    · exact hok _ after .whole htracks hpush hchanged
    · have h' := h.of_changedWithin hchanged (Nat.le_refl _)
      have hchanged' := hchanged.mono (Nat.le_refl _) (Nat.le_of_lt (lt_endOfPage hpos _))
      exact hio hfallible after cause h' hchanged' fun hspare => hspare.congr hchanged

end Region

end RecordStore
