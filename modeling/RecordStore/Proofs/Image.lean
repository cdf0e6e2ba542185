import RecordStore.Bytes.Splice

/-!
# Images of storages

What a storage holds, seen as a plain array of bytes: a size in whole pages and a byte for every position, zero from
the size on.  Reads and writes of a storage are stated through its image, so the layers above never look at the way
in which a storage keeps its bytes.
-/

namespace RecordStore

open Bytes

structure Image where
  pageSize : Nat
  size : Nat
  byte : Nat → UInt8

namespace Image

/-- The `length` bytes at `offset`. -/
def read (img : Image) (offset length : Nat) : ByteArray :=
  ofList ((List.range length).map fun i => img.byte (offset + i))

/-- The image with the bytes from `offset` on replaced by `data`. -/
def write (img : Image) (offset : Nat) (data : ByteArray) : Image :=
  { img with
    byte := fun i => if offset ≤ i ∧ i < offset + data.size then Bytes.byte data (i - offset) else img.byte i }

/-- A whole number of pages, with nothing behind the last one. -/
structure WellFormed (img : Image) : Prop where
  pages : img.size % img.pageSize = 0
  blank_past_end : ∀ i, img.size ≤ i → img.byte i = 0

/-- Zeros from `offset` on. -/
def BlankFrom (img : Image) (offset : Nat) : Prop := ∀ i, offset ≤ i → img.byte i = 0

/-- `data` stands at `offset`. -/
def Holds (img : Image) (offset : Nat) (data : ByteArray) : Prop :=
  ∀ i < data.size, img.byte (offset + i) = Bytes.byte data i

/-- The two images have the same bytes in `[start, stop)`. -/
def AgreeOn (img img' : Image) (start stop : Nat) : Prop := ∀ i, start ≤ i → i < stop → img'.byte i = img.byte i

/-- Work on `img` has led to `after`, which differs from it in `[start, stop)` at most and may have grown. -/
structure ChangedWithin (img after : Image) (start stop : Nat) : Prop where
  pageSize : after.pageSize = img.pageSize
  size : img.size ≤ after.size
  byte : ∀ i, i < start ∨ stop ≤ i → after.byte i = img.byte i

@[simp] theorem size_read (img : Image) (offset length : Nat) : (img.read offset length).size = length := by
  simp [read]

theorem byte_read (img : Image) (offset length i : Nat) :
    Bytes.byte (img.read offset length) i = if i < length then img.byte (offset + i) else 0 := by
  unfold read Bytes.byte
  by_cases h : i < length
  · simp [ofList, h]
  · simp [ofList, h]

/-- A piece of what is read is a shorter read. -/
theorem extract_read (img : Image) (offset length start stop : Nat) :
    (img.read offset length).extract start stop = img.read (offset + start) (min stop length - start) := by
  apply ext_byte (by simp)
  intro i hi
  simp only [ByteArray.size_extract, size_read] at hi
  rw [byte_extract, if_pos (by omega), byte_read, byte_read, if_pos (by omega), if_pos (by omega), Nat.add_assoc]

@[simp] theorem pageSize_write (img : Image) (offset : Nat) (data : ByteArray) :
    (img.write offset data).pageSize = img.pageSize := rfl

@[simp] theorem size_write (img : Image) (offset : Nat) (data : ByteArray) :
    (img.write offset data).size = img.size := rfl

theorem byte_write (img : Image) (offset : Nat) (data : ByteArray) (i : Nat) :
    (img.write offset data).byte i =
      if offset ≤ i ∧ i < offset + data.size then Bytes.byte data (i - offset) else img.byte i := rfl

/-- Writing nothing. -/
theorem write_of_size_eq_zero (img : Image) (offset : Nat) {data : ByteArray} (h : data.size = 0) :
    img.write offset data = img := by
  unfold write
  congr 1
  funext i
  rw [if_neg (by omega)]

theorem byte_write_of_le (img : Image) {offset i : Nat} (data : ByteArray) (h : offset + data.size ≤ i) :
    (img.write offset data).byte i = img.byte i := by
  rw [byte_write, if_neg (by omega)]

theorem holds_write (img : Image) (offset : Nat) (data : ByteArray) : (img.write offset data).Holds offset data := by
  intro i hi
  rw [byte_write, if_pos (by omega), Nat.add_sub_cancel_left]

/-- Writing what stands there already. -/
theorem write_of_holds {img : Image} {offset : Nat} {data : ByteArray} (h : img.Holds offset data) :
    img.write offset data = img := by
  unfold write
  congr 1
  funext i
  by_cases hi : offset ≤ i ∧ i < offset + data.size
  · have hbyte := h (i - offset) (by omega)
    rw [if_pos hi, ← hbyte, Nat.add_sub_cancel' hi.1]
  · rw [if_neg hi]

/-- What stands at `start` still stands there after a write that does not touch it. -/
theorem Holds.write {img : Image} {start offset : Nat} {data other : ByteArray} (h : img.Holds start data)
    (hdisj : start + data.size ≤ offset ∨ offset + other.size ≤ start) : (img.write offset other).Holds start data := by
  intro i hi
  rw [byte_write, if_neg (by omega)]
  exact h i hi

theorem Holds.congr {img img' : Image} {start : Nat} {data : ByteArray} (h : img.Holds start data)
    (hagree : img.AgreeOn img' start (start + data.size)) : img'.Holds start data := by
  intro i hi
  rw [hagree (start + i) (by omega) (by omega)]
  exact h i hi

theorem Holds.left {img : Image} {start : Nat} {xs ys : ByteArray} (h : img.Holds start (xs ++ ys)) :
    img.Holds start xs := by
  intro i hi
  rw [h i (by rw [ByteArray.size_append]; omega), byte_append, if_pos hi]

theorem Holds.right {img : Image} {start : Nat} {xs ys : ByteArray} (h : img.Holds start (xs ++ ys)) :
    img.Holds (start + xs.size) ys := by
  intro i hi
  have := h (xs.size + i) (by rw [ByteArray.size_append]; omega)
  rw [byte_append, if_neg (by omega), Nat.add_sub_cancel_left] at this
  rw [Nat.add_assoc]
  exact this

theorem Holds.append {img : Image} {start : Nat} {xs ys : ByteArray} (h : img.Holds start xs)
    (h' : img.Holds (start + xs.size) ys) : img.Holds start (xs ++ ys) := by
  intro i hi
  rw [ByteArray.size_append] at hi
  rw [byte_append]
  by_cases hlt : i < xs.size
  · rw [if_pos hlt]
    exact h i hlt
  · rw [if_neg hlt, ← h' (i - xs.size) (by omega)]
    congr 1
    omega

/-- What is read somewhere stands there. -/
theorem holds_read (img : Image) (offset length : Nat) : img.Holds offset (img.read offset length) := by
  intro i hi
  rw [size_read] at hi
  rw [byte_read, if_pos hi]

/-- Reading what stands somewhere gives it back. -/
theorem Holds.read_eq {img : Image} {start : Nat} {data : ByteArray} (h : img.Holds start data) :
    img.read start data.size = data := by
  apply ext_byte (by simp)
  intro i hi
  rw [size_read] at hi
  rw [byte_read, if_pos hi]
  exact h i hi

/-- A read that covers what stands at its start begins with it. -/
theorem Holds.toList_read {img : Image} {start length : Nat} {data : List UInt8} (h : img.Holds start (ofList data))
    (hlen : data.length ≤ length) : ∃ rest, (img.read start length).data.toList = data ++ rest := by
  refine ⟨((img.read start length).data.toList).drop data.length, ?_⟩
  have htake : ((img.read start length).data.toList).take data.length = data := by
    apply List.ext_getElem
    · simp [read, ofList, hlen]
    · intro i h₁ h₂
      have hi := h i (by simpa using h₂)
      simp only [read, ofList, List.getElem_take, List.getElem_map, List.getElem_range]
      rw [hi]
      simp [Bytes.byte, ofList, h₂]
  conv => lhs; rw [← List.take_append_drop data.length (img.read start length).data.toList]
  rw [htake]

/-- What a read begins with stands there. -/
theorem holds_of_prefix {img : Image} {start length : Nat} {data : List UInt8}
    (h : data <+: (img.read start length).data.toList) : img.Holds start (ofList data) := by
  intro i hi
  rw [size_ofList] at hi
  have hlength : i < ((img.read start length).data.toList).length := Nat.lt_of_lt_of_le hi h.length_le
  have hget : data[i] = ((img.read start length).data.toList)[i] := h.getElem hi
  simp only [read, ofList, List.getElem_map, List.getElem_range] at hget
  simp [Bytes.byte, ofList, hi, hget]

/-- A read where there is nothing gives zeros. -/
theorem toList_read_of_zeros {img : Image} {offset length : Nat}
    (h : ∀ i, offset ≤ i → i < offset + length → img.byte i = 0) :
    (img.read offset length).data.toList = List.replicate length 0 := by
  have hbytes : (List.range length).map (fun i => img.byte (offset + i)) = (List.range length).map fun _ => 0 := by
    refine List.map_congr_left fun i hi => h _ (Nat.le_add_right _ _) ?_
    exact Nat.add_lt_add_left (List.mem_range.1 hi) _
  simp [read, ofList, hbytes, List.map_const']

theorem AgreeOn.mono {img img' : Image} {start stop start' stop' : Nat} (h : img.AgreeOn img' start stop)
    (hstart : start ≤ start') (hstop : stop' ≤ stop) : img.AgreeOn img' start' stop' :=
  fun i hlo hhi => h i (by omega) (by omega)

theorem AgreeOn.trans {img img' img'' : Image} {start stop : Nat} (h : img.AgreeOn img' start stop)
    (h' : img'.AgreeOn img'' start stop) : img.AgreeOn img'' start stop :=
  fun i hstart hstop => (h' i hstart hstop).trans (h i hstart hstop)

theorem AgreeOn.read_eq {img img' : Image} {offset length : Nat} (h : img.AgreeOn img' offset (offset + length)) :
    img'.read offset length = img.read offset length := by
  apply ext_byte (by simp)
  intro i hi
  rw [size_read] at hi
  rw [byte_read, byte_read, if_pos hi, if_pos hi]
  exact h _ (Nat.le_add_right _ _) (Nat.add_lt_add_left hi _)

/-- The front of what is read is a shorter read. -/
theorem take_toList_read (img : Image) (offset : Nat) {length count : Nat} (h : count ≤ length) :
    (img.read offset length).data.toList.take count = (img.read offset count).data.toList := by
  simp only [read, ofList, List.toList_toArray, ← List.map_take, List.take_range]
  rw [Nat.min_eq_left h]

namespace ChangedWithin

variable {img img₁ img₂ : Image} {start start' stop stop' : Nat}

theorem refl (img : Image) (start stop : Nat) : img.ChangedWithin img start stop := ⟨rfl, Nat.le_refl _, fun _ _ => rfl⟩

theorem trans (h₁ : img.ChangedWithin img₁ start stop) (h₂ : img₁.ChangedWithin img₂ start stop) :
    img.ChangedWithin img₂ start stop :=
  ⟨h₂.pageSize.trans h₁.pageSize, Nat.le_trans h₁.size h₂.size, fun i hi => (h₂.byte i hi).trans (h₁.byte i hi)⟩

theorem mono (h : img.ChangedWithin img₁ start stop) (hstart : start' ≤ start) (hstop : stop ≤ stop') :
    img.ChangedWithin img₁ start' stop' :=
  ⟨h.pageSize, h.size, fun i hi => h.byte i (by omega)⟩

theorem write (img : Image) {offset : Nat} {data : ByteArray} (hstart : start ≤ offset)
    (hstop : offset + data.size ≤ stop) : img.ChangedWithin (img.write offset data) start stop :=
  ⟨rfl, Nat.le_refl _, fun i hi => by rw [byte_write, if_neg (by omega)]⟩

theorem grow (img : Image) {size : Nat} (h : img.size ≤ size) : img.ChangedWithin { img with size } start stop :=
  ⟨rfl, h, fun _ _ => rfl⟩

theorem agreeOn (h : img.ChangedWithin img₁ start stop) (hstop : stop' ≤ start) : img.AgreeOn img₁ start' stop' :=
  fun i _ hi => h.byte i (.inl (by omega))

theorem blankFrom (h : img.ChangedWithin img₁ start stop) (hblank : img.BlankFrom start') (hstart : start' ≤ stop) :
    img₁.BlankFrom stop := fun i hi => (h.byte i (.inr hi)).trans (hblank i (by omega))

end ChangedWithin

end Image

end RecordStore
