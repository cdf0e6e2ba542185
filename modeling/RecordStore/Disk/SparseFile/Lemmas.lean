import Std.Data.TreeMap.Lemmas
import RecordStore.Disk.SparseFile

/-!
# Sparse files byte by byte

What the operations on a file do to its length and to `byteAt`, the view of its bytes: setting the length cuts or
adds zeros (`byteAt_setLength`), writing overwrites a range (`byteAt_write`), and reading copies one (`byte_read`).
-/

namespace RecordStore.SparseFile

open Bytes

private theorem ite_iff {P Q : Prop} [Decidable P] [Decidable Q] {a b : UInt8} (h : P ↔ Q) :
    (if P then a else b) = if Q then a else b := by
  by_cases hp : P
  · rw [if_pos hp, if_pos (h.1 hp)]
  · rw [if_neg hp, if_neg (mt h.2 hp)]

/-- The byte at `position` in the blocks alone, past the end of the file too. -/
def stored (file : SparseFile) (position : Nat) : UInt8 :=
  byte (file.block (position / blockSize)).val (position % blockSize)

private theorem byteAt_eq (file : SparseFile) (position : Nat) :
    file.byteAt position = if position < file.length then file.stored position else 0 := rfl

theorem byteAt_of_le {file : SparseFile} {position : Nat} (h : file.length ≤ position) : file.byteAt position = 0 := by
  rw [byteAt_eq, if_neg (Nat.not_lt.2 h)]

private theorem byte_block_zero (index : Nat) : byte Block.zero.val index = 0 := byte_zeros _ _

private theorem block_mk (length : Nat) (blocks : Std.TreeMap Nat Block) (index : Nat) :
    (SparseFile.mk length blocks).block index = (blocks[index]?).getD Block.zero := rfl

/-! ### Windows -/

private theorem size_window (file : SparseFile) (first count : Nat) :
    (file.window first count).size = count * blockSize := by
  induction count with
  | zero => simp [window]
  | succ count ih =>
    unfold window at ih ⊢
    rw [Nat.fold_succ, ByteArray.size_append, ih, (file.block (first + count)).property, Nat.succ_mul]

private theorem byte_window {file : SparseFile} {first count index : Nat} (h : index < count * blockSize) :
    byte (file.window first count) index = file.stored (first * blockSize + index) := by
  induction count with
  | zero => simp at h
  | succ count ih =>
    have hsize := size_window file first count
    unfold window at ih hsize ⊢
    rw [Nat.fold_succ, byte_append, hsize]
    split
    · rename_i hlt
      exact ih hlt
    · rename_i hge
      unfold stored blockSize at *
      have hdiv : (first * 256 + index) / 256 = first + count := by omega
      have hmod : (first * 256 + index) % 256 = index - count * 256 := by omega
      rw [hdiv, hmod]

private theorem le_blockCount (position size : Nat) :
    position % blockSize + size ≤ blockCount position size * blockSize := by
  unfold blockCount blockSize
  omega

/-! ### Reading -/

theorem size_read (file : SparseFile) (position size : Nat) :
    (file.read position size).size = min size (file.length - position) := by
  have := le_blockCount position (min size (file.length - position))
  simp only [read, ByteArray.size_extract, size_window]
  omega

theorem byte_read {file : SparseFile} {position size index : Nat} (h : index < min size (file.length - position)) :
    byte (file.read position size) index = file.byteAt (position + index) := by
  have hcount := le_blockCount position (min size (file.length - position))
  simp only [read]
  rw [byte_extract, if_pos (by omega), byte_window (by omega), byteAt_eq, if_pos (by omega)]
  congr 1
  unfold blockSize
  omega

/-! ### Setting the length -/

@[simp] theorem length_setLength (file : SparseFile) (length : Nat) : (file.setLength length).length = length := rfl

private theorem byte_cutBlock (stop index offset : Nat) (block : Option Block) (h : offset < blockSize) :
    byte ((block.bind (cutBlock stop index)).getD Block.zero).val offset =
      if index * blockSize + offset < stop then byte (block.getD Block.zero).val offset else 0 := by
  cases block with
  | none =>
    simp only [Option.bind_none, Option.getD_none, byte_block_zero]
    split <;> rfl
  | some block =>
    simp only [Option.bind_some, Option.getD_some, cutBlock]
    split
    · rw [Option.getD_none, byte_block_zero, if_neg (by omega)]
    · split
      · rename_i hwhole
        rw [Option.getD_some, if_pos (by rw [Nat.succ_mul] at hwhole; omega)]
      · rw [Option.getD_some, Block.ofBytes, byte_fit, if_pos h, byte_extract, Nat.sub_zero, Nat.zero_add]
        exact ite_iff (by omega)

private theorem stored_setLength (file : SparseFile) (length position : Nat) :
    (file.setLength length).stored position =
      if position < min length file.length then file.stored position else 0 := by
  have hmod : position % blockSize < blockSize := Nat.mod_lt _ (by decide)
  unfold stored setLength
  rw [block_mk, Std.TreeMap.getElem?_filterMap', byte_cutBlock _ _ _ _ hmod, Nat.div_add_mod']
  rfl

theorem byteAt_setLength (file : SparseFile) (length position : Nat) :
    (file.setLength length).byteAt position = if position < length then file.byteAt position else 0 := by
  rw [byteAt_eq, length_setLength, stored_setLength, byteAt_eq]
  split
  · exact ite_iff (by omega)
  · rfl

/-- A file that is made longer reads as before. -/
theorem byteAt_setLength_of_le {file : SparseFile} {length : Nat} (h : file.length ≤ length) (position : Nat) :
    (file.setLength length).byteAt position = file.byteAt position := by
  rw [byteAt_setLength]
  split
  · rfl
  · exact (byteAt_of_le (by omega)).symm

/-- So does one that is made longer up to the end of the page behind its last whole one. -/
theorem byteAt_setLength_page (file : SparseFile) {pageSize : Nat} (hpos : 0 < pageSize) (position : Nat) :
    (file.setLength ((file.length / pageSize + 1) * pageSize)).byteAt position = file.byteAt position := by
  refine byteAt_setLength_of_le ?_ position
  rw [Nat.mul_comm]
  exact Nat.le_of_lt (Nat.lt_mul_div_succ file.length hpos)

/-! ### Writing -/

private theorem byte_storeWindow {first count : Nat} {window : ByteArray} {blocks : Std.TreeMap Nat Block}
    {index offset : Nat} (hwindow : count * blockSize ≤ window.size) (h : offset < blockSize) :
    byte (((storeWindow first count window blocks)[index]?).getD Block.zero).val offset =
      if first ≤ index ∧ index < first + count then byte window ((index - first) * blockSize + offset)
      else byte ((blocks[index]?).getD Block.zero).val offset := by
  induction count with
  | zero =>
    rw [if_neg (by omega)]
    rfl
  | succ count ih =>
    rw [Nat.succ_mul] at hwindow
    unfold storeWindow at ih ⊢
    rw [Nat.fold_succ, Std.TreeMap.getElem?_insert]
    by_cases hi : index = first + count
    · subst hi
      rw [if_pos (by simp), Option.getD_some, if_pos (by omega), Block.ofBytes, byte_fit, if_pos h, byte_extract,
        if_pos (by omega), Nat.add_sub_cancel_left]
    · rw [if_neg (by simp; omega), ih (by omega)]
      exact ite_iff (by omega)

private theorem stored_storeWindow {file : SparseFile} {position : Nat} {data : ByteArray} (place : Nat) :
    let first := position / blockSize
    let count := blockCount position data.size
    let window := splice (file.window first count) (position % blockSize) data
    stored { file with blocks := storeWindow first count window file.blocks } place =
      if position ≤ place ∧ place < position + data.size then byte data (place - position)
      else file.stored place := by
  intro first count window
  have hcount : position % blockSize + data.size ≤ count * blockSize := le_blockCount position data.size
  have hold := size_window file first count
  have hsize : window.size = count * blockSize := by rw [← hold]; exact size_splice (by omega)
  have hplace : place % blockSize < blockSize := Nat.mod_lt _ (by decide)
  have hbyte : ∀ i < count * blockSize, byte window i =
      if position % blockSize ≤ i ∧ i < position % blockSize + data.size then byte data (i - position % blockSize)
      else file.stored (first * blockSize + i) := by
    intro i hi
    rw [byte_splice (by omega), byte_window hi]
  have hfirst : first * blockSize + position % blockSize = position := Nat.div_add_mod' _ _
  have hdm : place / blockSize * blockSize + place % blockSize = place := Nat.div_add_mod' _ _
  rw [stored, block_mk, byte_storeWindow (by omega) hplace]
  -- only the blocks of the window are replaced
  by_cases hin : first ≤ place / blockSize ∧ place / blockSize < first + count
  · have hlow := Nat.mul_le_mul_right blockSize hin.1
    have hhigh : (place / blockSize - first) * blockSize + place % blockSize < count * blockSize := by
      have := Nat.mul_le_mul_right blockSize (show place / blockSize - first + 1 ≤ count by omega)
      rw [Nat.succ_mul] at this
      omega
    have hsub := Nat.sub_mul (place / blockSize) first blockSize
    rw [if_pos hin, hbyte _ hhigh]
    have hback : first * blockSize + ((place / blockSize - first) * blockSize + place % blockSize) = place := by omega
    rw [hback]
    by_cases hmid : position ≤ place ∧ place < position + data.size
    · rw [if_pos (by omega), if_pos hmid]
      congr 1
      omega
    · rw [if_neg (by omega), if_neg hmid]
  · rw [if_neg hin, if_neg]
    · rfl
    · intro hmid
      apply hin
      constructor
      · exact Nat.div_le_div_right hmid.1
      · rcases Nat.lt_or_ge (place / blockSize) (first + count) with h | h
        · exact h
        · have := Nat.mul_le_mul_right blockSize h
          rw [Nat.add_mul] at this
          omega

theorem length_write (file : SparseFile) (position : Nat) {data : ByteArray} (h : data.size ≠ 0) :
    (file.write position data).length = max file.length (position + data.size) := by
  unfold write
  rw [if_neg h]
  split
  · rw [length_setLength]
    omega
  · simp only
    omega

theorem byteAt_write (file : SparseFile) (position : Nat) {data : ByteArray} (h : data.size ≠ 0) (place : Nat) :
    (file.write position data).byteAt place =
      if position ≤ place ∧ place < position + data.size then byte data (place - position) else file.byteAt place := by
  rw [byteAt_eq, length_write file position h, byteAt_eq]
  unfold write
  rw [if_neg h]
  by_cases hgrow : file.length < position + data.size
  · simp only [if_pos hgrow]
    rw [stored_storeWindow, stored_setLength]
    by_cases hmid : position ≤ place ∧ place < position + data.size
    · rw [if_pos hmid, if_pos hmid, if_pos (by omega)]
    · rw [if_neg hmid, if_neg hmid]
      split
      · exact ite_iff (by omega)
      · rw [if_neg (by omega)]
  · simp only [if_neg hgrow]
    rw [stored_storeWindow]
    by_cases hmid : position ≤ place ∧ place < position + data.size
    · rw [if_pos hmid, if_pos hmid, if_pos (by omega)]
    · rw [if_neg hmid, if_neg hmid]
      exact ite_iff (by omega)

end RecordStore.SparseFile
