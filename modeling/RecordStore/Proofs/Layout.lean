import Mathlib.Data.List.Pairwise
import Mathlib.Logic.Function.Basic
import RecordStore.Proofs.Contract
import RecordStore.Proofs.SlotCodec

/-!
# Layouts

The slots of a region as data: their identifiers in file order and what each of them holds.  `Layout.Tracks` ties a
layout to an image: the slots follow one another from the end of the file header on, none crosses a page, and the
image holds the bytes of every slot.  A slot can be overwritten by one of the same size and a slot can be appended
(`Tracks.set`, `Tracks.push`); what stands behind the last slot is of no account (`Tracks.congr`).
-/

namespace RecordStore

open Bytes

theorem alignUp_mod (size : Nat) : alignUp size % alignment = 0 := by
  unfold alignUp alignment
  omega

theorem alignUp_le {size bound : Nat} (h : size ≤ bound) (hbound : bound % alignment = 0) : alignUp size ≤ bound := by
  unfold alignUp alignment at *
  omega

theorem RecordId.offset_mod (id : RecordId) : id.offset % alignment = 0 := Nat.mul_mod_left ..

theorem RecordId.offset_lt (id : RecordId) : id.offset < 2 ^ 35 := by
  have := id.index_lt
  unfold offset alignment
  omega

/-- A slot that has an identifier ends where a storage may grow to. -/
theorem RecordId.offset_add_le_reach (id : RecordId) {size : Nat} (hsize : size ≤ 2 ^ 32) :
    id.offset + size ≤ reach := by
  have hlt := id.offset_lt
  unfold reach
  omega

theorem RecordId.offset_inj {a b : RecordId} (h : a.offset = b.offset) : a = b := by
  unfold offset alignment at h
  exact RecordId.ext (by omega)

theorem RecordId.offset_of_ofOffset? {offset : Nat} {id : RecordId} (h : ofOffset? offset = some id) :
    id.offset = offset := by
  unfold ofOffset? at h
  split at h
  · have hindex := ofIndex?_eq_some_iff.1 h
    unfold RecordId.offset alignment at *
    omega
  · cases h

theorem RecordId.exists_offset {offset : Nat} (hpos : 0 < offset) (hlt : offset < 2 ^ 35)
    (hmod : offset % alignment = 0) : ∃ id : RecordId, id.offset = offset := by
  unfold alignment at hmod
  refine ⟨⟨offset / 8, by omega, by omega⟩, ?_⟩
  change offset / 8 * 8 = offset
  omega

/-- The end of the page that `offset` lies in. -/
def endOfPage (pageSize offset : Nat) : Nat := (offset / pageSize + 1) * pageSize

theorem Region.pageEnd_eq (region : Region) (offset : Nat) :
    region.pageEnd offset = endOfPage region.pageSize offset := rfl

theorem lt_endOfPage {pageSize : Nat} (h : 0 < pageSize) (offset : Nat) : offset < endOfPage pageSize offset := by
  unfold endOfPage
  rw [Nat.mul_comm]
  exact Nat.lt_mul_div_succ offset h

theorem endOfPage_le_add (pageSize offset : Nat) : endOfPage pageSize offset ≤ offset + pageSize := by
  unfold endOfPage
  have := Nat.div_mul_le_self offset pageSize
  rw [Nat.add_mul, Nat.one_mul]
  omega

theorem endOfPage_endOfPage {pageSize : Nat} (h : 0 < pageSize) (offset : Nat) :
    endOfPage pageSize (endOfPage pageSize offset) = endOfPage pageSize offset + pageSize := by
  unfold endOfPage
  rw [Nat.mul_div_cancel _ h, Nat.add_mul _ 1, Nat.one_mul]

theorem endOfPage_mono (pageSize : Nat) {a b : Nat} (h : a ≤ b) : endOfPage pageSize a ≤ endOfPage pageSize b :=
  Nat.mul_le_mul_right pageSize (Nat.succ_le_succ (Nat.div_le_div_right h))

theorem endOfPage_start (pageSize offset : Nat) :
    endOfPage pageSize (offset / pageSize * pageSize) = endOfPage pageSize offset := by
  rcases Nat.eq_zero_or_pos pageSize with rfl | hpos
  · rfl
  · unfold endOfPage
    rw [Nat.mul_div_cancel _ hpos]

theorem endOfPage_le_mul {pageSize offset page : Nat} (h : offset < page * pageSize) :
    endOfPage pageSize offset ≤ page * pageSize := by
  have hdiv : offset / pageSize < page := Nat.div_lt_of_lt_mul (by rwa [Nat.mul_comm])
  exact Nat.mul_le_mul_right pageSize hdiv

/-- A page that begins inside a whole number of pages ends inside it. -/
theorem endOfPage_le {pageSize offset size : Nat} (h : offset < size) (hpages : size % pageSize = 0) :
    endOfPage pageSize offset ≤ size := by
  have hsize : size / pageSize * pageSize = size := Nat.div_mul_cancel (Nat.dvd_of_mod_eq_zero hpages)
  rw [← hsize] at h ⊢
  exact endOfPage_le_mul h

namespace SlotHeader

/-- A slot with a full header takes room, whatever its capacity is. -/
theorem sizeFor_pos (capacity : Nat) : 0 < sizeFor fullSize capacity := slotSize_pos (.live capacity 0 none)

theorem slotSize_mod (header : SlotHeader) : header.slotSize % alignment = 0 := alignUp_mod _

theorem size_le_slotSize (header : SlotHeader) : header.headerSize + header.capacity ≤ header.slotSize := le_alignUp _

/-- The bytes of payload behind the header. -/
def payloadLength : SlotHeader → Nat
  | .live _ length _ => length
  | _ => 0

theorem Valid.payloadLength_le {offset : Nat} {header : SlotHeader} (h : header.Valid offset) :
    header.payloadLength ≤ header.capacity := by
  cases header with
  | live => exact h.2.1
  | moved => exact Nat.zero_le _
  | deleted => exact Nat.zero_le _
  | padding => exact Nat.zero_le _

/-- The payload of a record ends inside its slot. -/
theorem Valid.payload_le {offset capacity length : Nat} {origin : Option RecordId}
    (h : (live capacity length origin).Valid offset) : fullSize + length ≤ (live capacity length origin).slotSize :=
  Nat.le_trans (Nat.add_le_add_left h.2.1 fullSize) (live capacity length origin).size_le_slotSize

end SlotHeader

structure Slot where
  header : SlotHeader
  payload : ByteArray

namespace Slot

/-- A slot that holds no payload. -/
def bare (header : SlotHeader) : Slot := { header, payload := ByteArray.empty }

def bytes (slot : Slot) : ByteArray := ofList slot.header.encode ++ slot.payload

structure Valid (slot : Slot) (offset : Nat) : Prop where
  header : slot.header.Valid offset
  size_payload : slot.payload.size = slot.header.payloadLength

theorem size_bytes (slot : Slot) : slot.bytes.size = slot.header.headerSize + slot.payload.size := by
  simp [bytes]

theorem Valid.size_bytes_le {slot : Slot} {offset : Nat} (h : slot.Valid offset) :
    slot.bytes.size ≤ slot.header.slotSize := by
  have hcap := h.header.payloadLength_le
  have hsize := slot.header.size_le_slotSize
  rw [size_bytes, h.size_payload]
  omega

theorem bytes_bare (header : SlotHeader) : (bare header).bytes = ofList header.encode := by
  simp [bare, bytes]

end Slot

/-- The slot stands in the image, inside one page. -/
structure Image.HasSlot (img : Image) (id : RecordId) (slot : Slot) : Prop where
  valid : slot.Valid id.offset
  holds : img.Holds id.offset slot.bytes
  page : id.offset + slot.header.slotSize ≤ endOfPage img.pageSize id.offset
  bound : id.offset + slot.header.slotSize ≤ img.size

/-- A header that stands in the image makes a slot with the bytes behind it. -/
theorem Image.hasSlot_of_header {img : Image} {id : RecordId} {header : SlotHeader} (hvalid : header.Valid id.offset)
    (hholds : img.Holds id.offset (ofList header.encode))
    (hpage : id.offset + header.slotSize ≤ endOfPage img.pageSize id.offset)
    (hbound : id.offset + header.slotSize ≤ img.size) :
    img.HasSlot id { header, payload := img.read (id.offset + header.headerSize) header.payloadLength } where
  valid := ⟨hvalid, img.size_read _ _⟩
  holds := by
    refine hholds.append ?_
    rw [size_ofList, SlotHeader.length_encode_header]
    exact img.holds_read _ _
  page := hpage
  bound := hbound

/-- It still stands there after a change in front of it. -/
theorem Image.HasSlot.congr {img img' : Image} {id : RecordId} {slot : Slot} (h : img.HasSlot id slot)
    {start stop : Nat} (hchanged : img.ChangedWithin img' start stop) (hstop : stop ≤ id.offset) :
    img'.HasSlot id slot where
  valid := h.valid
  holds := h.holds.congr fun i hi _ => hchanged.byte i (.inr (by omega))
  page := by
    rw [hchanged.pageSize]
    exact h.page
  bound := Nat.le_trans h.bound hchanged.size

structure Layout where
  /-- The slots in file order. -/
  ids : List RecordId
  slot : RecordId → Slot

namespace Layout

def header (layout : Layout) (id : RecordId) : SlotHeader := (layout.slot id).header

def size (layout : Layout) (id : RecordId) : Nat := (layout.header id).slotSize

/-- The layout without slots. -/
def empty : Layout := { ids := [], slot := fun _ => .bare (.padding 0) }

/-- The layout with the slot `id` overwritten. -/
def set (layout : Layout) (id : RecordId) (slot : Slot) : Layout :=
  { layout with slot := Function.update layout.slot id slot }

/-- The layout with one slot more at its end. -/
def push (layout : Layout) (id : RecordId) (slot : Slot) : Layout :=
  { ids := layout.ids ++ [id], slot := Function.update layout.slot id slot }

/-- The slots `ids` follow one another from `start` to `stop`, none across the end of a page. -/
def Tiles (layout : Layout) (pageSize : Nat) : Nat → List RecordId → Nat → Prop
  | start, [], stop => start = stop
  | start, id :: ids, stop =>
    id.offset = start ∧ start + layout.size id ≤ endOfPage pageSize start ∧
      layout.Tiles pageSize (start + layout.size id) ids stop

structure Tracks (layout : Layout) (img : Image) (stop : Nat) : Prop where
  tiles : layout.Tiles img.pageSize FileHeader.size layout.ids stop
  valid : ∀ id ∈ layout.ids, (layout.slot id).Valid id.offset
  holds : ∀ id ∈ layout.ids, img.Holds id.offset (layout.slot id).bytes
  bound : stop ≤ img.size

theorem size_pos (layout : Layout) (id : RecordId) : 0 < layout.size id := SlotHeader.slotSize_pos _

@[simp] theorem ids_set (layout : Layout) (id : RecordId) (slot : Slot) : (layout.set id slot).ids = layout.ids := rfl

@[simp] theorem ids_push (layout : Layout) (id : RecordId) (slot : Slot) :
    (layout.push id slot).ids = layout.ids ++ [id] := rfl

@[simp] theorem slot_set_self (layout : Layout) (id : RecordId) (slot : Slot) : (layout.set id slot).slot id = slot :=
  Function.update_self ..

theorem slot_set_of_ne (layout : Layout) {id other : RecordId} (slot : Slot) (h : other ≠ id) :
    (layout.set id slot).slot other = layout.slot other := Function.update_of_ne h ..

theorem header_set_self (layout : Layout) (id : RecordId) (slot : Slot) :
    (layout.set id slot).header id = slot.header := by
  rw [header, slot_set_self]

theorem header_set_of_ne (layout : Layout) {id other : RecordId} (slot : Slot) (h : other ≠ id) :
    (layout.set id slot).header other = layout.header other := by
  rw [header, slot_set_of_ne _ _ h, header]

@[simp] theorem slot_push_self (layout : Layout) (id : RecordId) (slot : Slot) : (layout.push id slot).slot id = slot :=
  Function.update_self ..

theorem slot_push_of_ne (layout : Layout) {id other : RecordId} (slot : Slot) (h : other ≠ id) :
    (layout.push id slot).slot other = layout.slot other := Function.update_of_ne h ..

theorem header_push_self (layout : Layout) (id : RecordId) (slot : Slot) :
    (layout.push id slot).header id = slot.header := by
  rw [header, slot_push_self]

theorem header_push_of_ne (layout : Layout) {id other : RecordId} (slot : Slot) (h : other ≠ id) :
    (layout.push id slot).header other = layout.header other := by
  rw [header, slot_push_of_ne _ _ h, header]

/-- Overwriting a slot by one of the same size changes no size. -/
theorem size_set (layout : Layout) {id : RecordId} {slot : Slot} (h : slot.header.slotSize = layout.size id)
    (other : RecordId) : (layout.set id slot).size other = layout.size other := by
  unfold size
  by_cases hne : other = id
  · rw [hne, header_set_self]
    exact h
  · rw [header_set_of_ne _ _ hne]

/-! ### Tilings -/

namespace Tiles

variable {layout layout' : Layout} {pageSize start mid stop : Nat} {ids ids' : List RecordId}

theorem append_iff : layout.Tiles pageSize start (ids ++ ids') stop ↔
    ∃ mid, layout.Tiles pageSize start ids mid ∧ layout.Tiles pageSize mid ids' stop := by
  induction ids generalizing start with
  | nil => simp [Tiles]
  | cons id ids ih =>
    simp only [List.cons_append, Tiles, ih]
    constructor
    · rintro ⟨hid, hpage, mid, h, h'⟩
      exact ⟨mid, ⟨hid, hpage, h⟩, h'⟩
    · rintro ⟨mid, ⟨hid, hpage, h⟩, h'⟩
      exact ⟨hid, hpage, mid, h, h'⟩

/-- Only the sizes of the slots matter. -/
theorem congr (h : layout.Tiles pageSize start ids stop) (hsize : ∀ id ∈ ids, layout'.size id = layout.size id) :
    layout'.Tiles pageSize start ids stop := by
  induction ids generalizing start with
  | nil => exact h
  | cons id ids ih =>
    obtain ⟨hid, hpage, h⟩ := h
    have hhead := hsize id List.mem_cons_self
    refine ⟨hid, by rw [hhead]; exact hpage, ?_⟩
    rw [hhead]
    exact ih h fun other hother => hsize other (List.mem_cons_of_mem _ hother)

theorem stop_unique {stop' : Nat} (h : layout.Tiles pageSize start ids stop)
    (h' : layout.Tiles pageSize start ids stop') : stop = stop' := by
  induction ids generalizing start with
  | nil => exact Eq.trans (Eq.symm h) h'
  | cons id ids ih => exact ih h.2.2 h'.2.2

theorem le (h : layout.Tiles pageSize start ids stop) : start ≤ stop := by
  induction ids generalizing start with
  | nil => exact Nat.le_of_eq h
  | cons id ids ih =>
    have := ih h.2.2
    omega

theorem lt {id : RecordId} (h : layout.Tiles pageSize start (id :: ids) stop) : start < stop :=
  Nat.lt_of_lt_of_le (Nat.lt_add_of_pos_right (layout.size_pos id)) h.2.2.le

theorem mod (h : layout.Tiles pageSize start ids stop) (hstart : start % alignment = 0) : stop % alignment = 0 := by
  induction ids generalizing start with
  | nil => exact h ▸ hstart
  | cons id ids ih =>
    have hsize : layout.size id % alignment = 0 := SlotHeader.slotSize_mod _
    refine ih h.2.2 ?_
    unfold alignment at *
    omega

theorem start_le (h : layout.Tiles pageSize start ids stop) {id : RecordId} (hid : id ∈ ids) : start ≤ id.offset := by
  induction ids generalizing start with
  | nil => simp at hid
  | cons first ids ih =>
    rcases List.mem_cons.1 hid with rfl | hid
    · exact Nat.le_of_eq h.1.symm
    · have := ih h.2.2 hid
      omega

theorem end_le (h : layout.Tiles pageSize start ids stop) {id : RecordId} (hid : id ∈ ids) :
    id.offset + layout.size id ≤ stop := by
  induction ids generalizing start with
  | nil => simp at hid
  | cons first ids ih =>
    rcases List.mem_cons.1 hid with rfl | hid
    · rw [h.1]
      exact h.2.2.le
    · exact ih h.2.2 hid

theorem end_le_endOfPage (h : layout.Tiles pageSize start ids stop) {id : RecordId} (hid : id ∈ ids) :
    id.offset + layout.size id ≤ endOfPage pageSize id.offset := by
  induction ids generalizing start with
  | nil => simp at hid
  | cons first ids ih =>
    rcases List.mem_cons.1 hid with rfl | hid
    · rw [h.1]
      exact h.2.1
    · exact ih h.2.2 hid

/-- The slots stand in file order and do not overlap. -/
theorem pairwise (h : layout.Tiles pageSize start ids stop) :
    ids.Pairwise fun a b => a.offset + layout.size a ≤ b.offset := by
  induction ids generalizing start with
  | nil => exact List.Pairwise.nil
  | cons id ids ih =>
    refine List.pairwise_cons.2 ⟨fun other hother => ?_, ih h.2.2⟩
    rw [h.1]
    exact h.2.2.start_le hother

theorem nodup (h : layout.Tiles pageSize start ids stop) : ids.Nodup := by
  refine h.pairwise.imp ?_
  rintro a b hab rfl
  have := layout.size_pos a
  omega

/-- Two slots of a tiling do not overlap. -/
theorem disjoint (h : layout.Tiles pageSize start ids stop) {a b : RecordId} (ha : a ∈ ids) (hb : b ∈ ids)
    (hne : a ≠ b) : a.offset + layout.size a ≤ b.offset ∨ b.offset + layout.size b ≤ a.offset := by
  induction ids generalizing start with
  | nil => simp at ha
  | cons first ids ih =>
    rcases List.mem_cons.1 ha with rfl | ha' <;> rcases List.mem_cons.1 hb with rfl | hb'
    · exact absurd rfl hne
    · rw [h.1]
      exact .inl (h.2.2.start_le hb')
    · rw [h.1]
      exact .inr (h.2.2.start_le ha')
    · exact ih h.2.2 ha' hb'

/-- A page that begins inside a tiling begins with a slot. -/
theorem split_at_page (h : layout.Tiles pageSize start ids stop) {page : Nat} (hstart : start ≤ page * pageSize)
    (hstop : page * pageSize < stop) : ∃ before after, ids = before ++ after ∧
      layout.Tiles pageSize start before (page * pageSize) ∧ layout.Tiles pageSize (page * pageSize) after stop := by
  induction ids generalizing start with
  | nil =>
    have : start = stop := h
    omega
  | cons id ids ih =>
    rcases Nat.lt_or_eq_of_le hstart with hlt | heq
    · obtain ⟨before, after, hids, hbefore, hafter⟩ := ih h.2.2 (Nat.le_trans h.2.1 (endOfPage_le_mul hlt))
      exact ⟨id :: before, after, by rw [hids]; rfl, ⟨h.1, h.2.1, hbefore⟩, hafter⟩
    · exact ⟨[], id :: ids, rfl, heq, heq ▸ h⟩

end Tiles

/-! ### Layouts and images -/

namespace Tracks

variable {layout : Layout} {img img' : Image} {stop : Nat}

theorem empty_of_size_le (h : FileHeader.size ≤ img.size) : Layout.empty.Tracks img FileHeader.size where
  tiles := rfl
  valid := by simp [Layout.empty]
  holds := by simp [Layout.empty]
  bound := h

theorem size_le_stop (h : layout.Tracks img stop) : FileHeader.size ≤ stop := h.tiles.le

theorem stop_mod (h : layout.Tracks img stop) : stop % alignment = 0 := h.tiles.mod rfl

theorem nodup (h : layout.Tracks img stop) : layout.ids.Nodup := h.tiles.nodup

theorem pageSize_pos (h : layout.Tracks img stop) (hstop : FileHeader.size < stop) : 0 < img.pageSize := by
  rcases hids : layout.ids with _ | ⟨id, ids⟩
  · have htiles := h.tiles
    rw [hids] at htiles
    have : FileHeader.size = stop := htiles
    omega
  · have htiles := h.tiles
    rw [hids] at htiles
    have hpage := htiles.2.1
    have hpos := layout.size_pos id
    rcases Nat.eq_zero_or_pos img.pageSize with hzero | hpos
    · rw [hzero, endOfPage, Nat.mul_zero] at hpage
      omega
    · exact hpos

theorem offset_lt (h : layout.Tracks img stop) {id : RecordId} (hid : id ∈ layout.ids) : id.offset < stop := by
  have hend := h.tiles.end_le hid
  have hpos := layout.size_pos id
  omega

theorem size_le_offset (h : layout.Tracks img stop) {id : RecordId} (hid : id ∈ layout.ids) :
    FileHeader.size ≤ id.offset := h.tiles.start_le hid

theorem bytes_end_le (h : layout.Tracks img stop) {id : RecordId} (hid : id ∈ layout.ids) :
    id.offset + (layout.slot id).bytes.size ≤ id.offset + layout.size id :=
  Nat.add_le_add_left (h.valid id hid).size_bytes_le _

theorem congr (h : layout.Tracks img stop) (hpageSize : img'.pageSize = img.pageSize)
    (hagree : img.AgreeOn img' FileHeader.size stop) (hbound : stop ≤ img'.size) : layout.Tracks img' stop where
  tiles := by
    rw [hpageSize]
    exact h.tiles
  valid := h.valid
  holds := fun id hid => by
    have hend := h.tiles.end_le hid
    have hbytes := h.bytes_end_le hid
    exact (h.holds id hid).congr (hagree.mono (h.size_le_offset hid) (by omega))
  bound := hbound

/-- What changes behind the slots is of no account. -/
theorem of_changedWithin (h : layout.Tracks img stop) {start start' : Nat}
    (hchanged : img.ChangedWithin img' start start')
    (hstart : stop ≤ start) : layout.Tracks img' stop :=
  h.congr hchanged.pageSize (hchanged.agreeOn hstart) (Nat.le_trans h.bound hchanged.size)

/-- So is what changes in front of them. -/
theorem of_header (h : layout.Tracks img stop) (hchanged : img.ChangedWithin img' 0 FileHeader.size) :
    layout.Tracks img' stop :=
  h.congr hchanged.pageSize (fun i hlow _ => hchanged.byte i (.inr hlow)) (Nat.le_trans h.bound hchanged.size)

/-- Overwriting a slot by one of the same size. -/
theorem set (h : layout.Tracks img stop) {id : RecordId} {slot : Slot} (hid : id ∈ layout.ids)
    (hvalid : slot.Valid id.offset) (hsize : slot.header.slotSize = layout.size id) :
    (layout.set id slot).Tracks (img.write id.offset slot.bytes) stop where
  tiles := by
    exact h.tiles.congr fun other _ => layout.size_set hsize other
  valid := fun other hother => by
    by_cases hne : other = id
    · rw [hne, slot_set_self]
      exact hvalid
    · rw [slot_set_of_ne _ _ hne]
      exact h.valid other hother
  holds := fun other hother => by
    by_cases hne : other = id
    · rw [hne, slot_set_self]
      exact img.holds_write _ _
    · rw [slot_set_of_ne _ _ hne]
      have hbytes := h.bytes_end_le hother
      have hnew := hvalid.size_bytes_le
      have hdisj := h.tiles.disjoint hother hid hne
      exact (h.holds other hother).write (by omega)
  bound := h.bound

/-- A slot of the layout stands in the image. -/
theorem hasSlot (h : layout.Tracks img stop) {id : RecordId} (hid : id ∈ layout.ids) :
    img.HasSlot id (layout.slot id) :=
  ⟨h.valid id hid, h.holds id hid, h.tiles.end_le_endOfPage hid, Nat.le_trans (h.tiles.end_le hid) h.bound⟩

theorem hasSlot_push {id : RecordId} {slot : Slot} (h : (layout.push id slot).Tracks img stop) :
    img.HasSlot id slot := by
  have hslot := h.hasSlot (List.mem_append_right _ (List.mem_singleton_self id))
  rwa [slot_push_self] at hslot

/-- A slot that stands where the last one ends. -/
theorem append (h : layout.Tracks img stop) {id : RecordId} {slot : Slot} (hid : id.offset = stop)
    (hslot : img.HasSlot id slot) : (layout.push id slot).Tracks img (stop + slot.header.slotSize) := by
  have hne : ∀ other ∈ layout.ids, other ≠ id := by
    rintro other hother rfl
    have := h.offset_lt hother
    omega
  subst hid
  refine ⟨?_, ?_, ?_, hslot.bound⟩
  · refine Tiles.append_iff.2 ⟨id.offset, h.tiles.congr fun other hother => ?_, rfl, ?_, ?_⟩
    · simp only [size, header, slot_push_of_ne _ _ (hne other hother)]
    · simp only [size, header, slot_push_self]
      exact hslot.page
    · simp only [size, header, slot_push_self, Tiles]
  · intro other hother
    rcases List.mem_append.1 hother with hother | hother
    · rw [slot_push_of_ne _ _ (hne other hother)]
      exact h.valid other hother
    · rw [List.mem_singleton.1 hother, slot_push_self]
      exact hslot.valid
  · intro other hother
    rcases List.mem_append.1 hother with hother | hother
    · rw [slot_push_of_ne _ _ (hne other hother)]
      exact h.holds other hother
    · rw [List.mem_singleton.1 hother, slot_push_self]
      exact hslot.holds

/-- Appending a slot. -/
theorem push (h : layout.Tracks img stop) {id : RecordId} {slot : Slot} (hid : id.offset = stop)
    (hvalid : slot.Valid id.offset) (hpage : stop + slot.header.slotSize ≤ endOfPage img.pageSize stop)
    (hbound : stop + slot.header.slotSize ≤ img.size) :
    (layout.push id slot).Tracks (img.write stop slot.bytes) (stop + slot.header.slotSize) := by
  have hbytes := hvalid.size_bytes_le
  have hwritten : img.ChangedWithin (img.write stop slot.bytes) stop (stop + slot.header.slotSize) :=
    .write img (Nat.le_refl _) (Nat.add_le_add_left hbytes stop)
  have htracks := h.of_changedWithin hwritten (Nat.le_refl _)
  subst hid
  exact htracks.append rfl ⟨hvalid, img.holds_write _ _, hpage, hbound⟩

/-- The payload of a slot, as a read gives it. -/
theorem read_payload (h : layout.Tracks img stop) {id : RecordId} (hid : id ∈ layout.ids) :
    img.read (id.offset + (layout.header id).headerSize) (layout.header id).payloadLength =
      (layout.slot id).payload := by
  have hholds := (h.holds id hid).right
  simp only [size_ofList, SlotHeader.length_encode_header] at hholds
  have hread := hholds.read_eq
  rw [(h.valid id hid).size_payload] at hread
  exact hread

end Tracks

end Layout

end RecordStore
