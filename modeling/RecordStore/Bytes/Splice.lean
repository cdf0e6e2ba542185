/-!
# Byte arrays

Zero-filled arrays, cutting and filling to a length, and overwriting in place.  An array is looked at byte by byte
through `byte`, which is zero past the end; each operation has one lemma that says what it does to that view.
-/

namespace RecordStore.Bytes

/-- The byte at `index`, zero past the end. -/
def byte (bytes : ByteArray) (index : Nat) : UInt8 := (bytes.data[index]?).getD 0

theorem byte_of_size_le {bytes : ByteArray} {index : Nat} (h : bytes.size ≤ index) : byte bytes index = 0 := by
  unfold byte
  rw [Array.getElem?_eq_none h, Option.getD_none]

/-- Two arrays of one size are equal if no byte tells them apart. -/
theorem ext_byte {xs ys : ByteArray} (hsize : xs.size = ys.size) (h : ∀ i < xs.size, byte xs i = byte ys i) :
    xs = ys := by
  apply ByteArray.ext
  apply Array.ext hsize
  intro i hx hy
  have hi := h i hx
  unfold byte at hi
  rw [Array.getElem?_eq_getElem hx, Array.getElem?_eq_getElem hy] at hi
  exact hi

def zeros (count : Nat) : ByteArray := ⟨Array.replicate count 0⟩

@[simp] theorem size_zeros (count : Nat) : (zeros count).size = count := by
  simp [zeros, ByteArray.size]

@[simp] theorem byte_zeros (count index : Nat) : byte (zeros count) index = 0 := by
  unfold byte zeros
  rw [Array.getElem?_replicate]
  split <;> rfl

theorem byte_append (xs ys : ByteArray) (index : Nat) :
    byte (xs ++ ys) index = if index < xs.size then byte xs index else byte ys (index - xs.size) := by
  unfold byte
  rw [ByteArray.data_append, Array.getElem?_append, ByteArray.size_data]
  split <;> rfl

theorem byte_extract (bytes : ByteArray) (start stop index : Nat) :
    byte (bytes.extract start stop) index = if index < stop - start then byte bytes (start + index) else 0 := by
  unfold byte
  rw [ByteArray.data_extract, Array.getElem?_extract]
  by_cases h : index < stop - start
  · rw [if_pos h]
    split
    · rfl
    · rename_i hlt
      rw [Array.getElem?_eq_none (by omega)]
  · rw [if_neg h, if_neg (by omega)]
    rfl

/-- `target` with the bytes from `position` on replaced by `source`. -/
def splice (target : ByteArray) (position : Nat) (source : ByteArray) : ByteArray :=
  source.copySlice 0 target position source.size

private theorem splice_eq (target : ByteArray) (position : Nat) (source : ByteArray) :
    splice target position source =
      target.extract 0 position ++ source ++ target.extract (position + source.size) target.size := by
  have hsource : source.data.extract 0 source.size = source.data := Array.extract_size
  apply ByteArray.ext
  simp only [splice, ByteArray.copySlice, ByteArray.data_append, ByteArray.data_extract, Nat.zero_add, Nat.sub_zero,
    ByteArray.size_data, hsource, Nat.min_self]

theorem size_splice {target source : ByteArray} {position : Nat} (h : position + source.size ≤ target.size) :
    (splice target position source).size = target.size := by
  rw [splice_eq]
  simp only [ByteArray.size_append, ByteArray.size_extract]
  omega

theorem byte_splice {target source : ByteArray} {position : Nat} (h : position ≤ target.size) (index : Nat) :
    byte (splice target position source) index =
      if position ≤ index ∧ index < position + source.size then byte source (index - position)
      else byte target index := by
  rw [splice_eq, byte_append, byte_append]
  simp only [ByteArray.size_append, ByteArray.size_extract, byte_extract]
  by_cases hlow : index < position
  · rw [if_pos (by omega), if_pos (by omega), if_pos (by omega), if_neg (by omega), Nat.zero_add]
  · by_cases hmid : index < position + source.size
    · rw [if_pos (by omega), if_neg (by omega), if_pos (by omega)]
      congr 1
      omega
    · rw [if_neg (by omega), if_neg (by omega : ¬(position ≤ index ∧ index < position + source.size))]
      by_cases hend : index < target.size
      · rw [if_pos (by omega)]
        congr 1
        omega
      · rw [if_neg (by omega), byte_of_size_le (by omega)]

theorem splice_of_size_eq_zero (target : ByteArray) (position : Nat) {source : ByteArray} (h : source.size = 0) :
    splice target position source = target := by
  have hempty : source = ByteArray.empty := ext_byte h fun i hi => by omega
  subst hempty
  apply ByteArray.ext
  simp [splice_eq]

/-- `source` cut or filled with zeros to `length` bytes. -/
def fit (source : ByteArray) (length : Nat) : ByteArray :=
  if source.size = length then source else (source ++ zeros length).extract 0 length

@[simp] theorem size_fit (source : ByteArray) (length : Nat) : (fit source length).size = length := by
  unfold fit
  split
  · assumption
  · simp

theorem byte_fit (source : ByteArray) (length index : Nat) :
    byte (fit source length) index = if index < length then byte source index else 0 := by
  unfold fit
  split
  · rename_i h
    split
    · rfl
    · rw [byte_of_size_le (by omega)]
  · rw [byte_extract, Nat.sub_zero, Nat.zero_add, byte_append]
    split
    · split
      · rfl
      · rw [byte_zeros, byte_of_size_le (by omega)]
    · rfl

/-- The bytes of a list as an array. -/
def ofList (bytes : List UInt8) : ByteArray := ⟨bytes.toArray⟩

@[simp] theorem size_ofList (bytes : List UInt8) : (ofList bytes).size = bytes.length := by
  simp [ofList, ByteArray.size]

@[simp] theorem toList_data_ofList (bytes : List UInt8) : (ofList bytes).data.toList = bytes := rfl

end RecordStore.Bytes
