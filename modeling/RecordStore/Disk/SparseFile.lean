import Std.Data.TreeMap.AdditionalOperations
import RecordStore.Bytes.Splice

/-!
# Sparse files

A file is a length and the blocks of it that were ever written; every other byte is zero.  So a file of 2^35 bytes
with a handful of pages in use costs a handful of blocks.
-/

namespace RecordStore

open Bytes

/-- Bytes per stored block. -/
def blockSize : Nat := 256

abbrev Block := { bytes : ByteArray // bytes.size = blockSize }

def Block.zero : Block := ⟨zeros blockSize, size_zeros _⟩

def Block.ofBytes (bytes : ByteArray) : Block := ⟨fit bytes blockSize, size_fit _ _⟩

structure SparseFile where
  length : Nat
  blocks : Std.TreeMap Nat Block

namespace SparseFile

def empty : SparseFile := ⟨0, ∅⟩

def block (file : SparseFile) (index : Nat) : Block := (file.blocks[index]?).getD Block.zero

/-- The byte at `position`; past the end of the file it is zero, whatever a block still holds there. -/
def byteAt (file : SparseFile) (position : Nat) : UInt8 :=
  if position < file.length then
    byte (file.block (position / blockSize)).val (position % blockSize)
  else 0

/-- `count` whole blocks from block `first` on, end to end. -/
def window (file : SparseFile) (first count : Nat) : ByteArray :=
  count.fold (fun k _ bytes => bytes ++ (file.block (first + k)).val) ByteArray.empty

/-- Blocks that a range of `size` bytes at `position` touches, from block `position / blockSize` on. -/
def blockCount (position size : Nat) : Nat :=
  (position % blockSize + size + blockSize - 1) / blockSize

/-- The bytes at `position`, as many as `size` asks for and the file holds. -/
def read (file : SparseFile) (position size : Nat) : ByteArray :=
  let size := min size (file.length - position)
  let first := position / blockSize
  let start := position % blockSize
  (file.window first (blockCount position size)).extract start (start + size)

/-- What is left of the block `index` when every byte from `stop` on becomes zero. -/
def cutBlock (stop index : Nat) (block : Block) : Option Block :=
  if stop ≤ index * blockSize then none
  else if (index + 1) * blockSize ≤ stop then some block
  else some (Block.ofBytes (block.val.extract 0 (stop - index * blockSize)))

/-- Cuts the file to `length` bytes or fills it up with zeros. -/
def setLength (file : SparseFile) (length : Nat) : SparseFile :=
  { length, blocks := file.blocks.filterMap (cutBlock (min length file.length)) }

/-- Stores `count` blocks from block `first` on, end to end in `window`. -/
def storeWindow (first count : Nat) (window : ByteArray) (blocks : Std.TreeMap Nat Block) : Std.TreeMap Nat Block :=
  count.fold (fun k _ blocks =>
    blocks.insert (first + k) (Block.ofBytes (window.extract (k * blockSize) (k * blockSize + blockSize)))) blocks

/-- Overwrites the bytes at `position`; the file grows as far as the data reaches. -/
def write (file : SparseFile) (position : Nat) (data : ByteArray) : SparseFile :=
  if data.size = 0 then file
  else
    let file := if file.length < position + data.size then file.setLength (position + data.size) else file
    let first := position / blockSize
    let count := blockCount position data.size
    let window := splice (file.window first count) (position % blockSize) data
    { file with blocks := storeWindow first count window file.blocks }

def ofBytes (data : ByteArray) : SparseFile := empty.write 0 data

end SparseFile

end RecordStore
