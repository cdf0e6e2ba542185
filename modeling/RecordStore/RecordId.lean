/-!
# Record identifiers

A record is named by the place of its slot: the byte offset divided by the alignment of slots.  Place 0 is taken by
the file header, and an identifier has 32 bits, so the last slot starts below 2^35.
-/

namespace RecordStore

/-- Slots start at multiples of 8 bytes. -/
def alignment : Nat := 8

/-- The least multiple of the alignment that is at least `size`. -/
def alignUp (size : Nat) : Nat := (size + (alignment - 1)) / alignment * alignment

theorem le_alignUp (size : Nat) : size ≤ alignUp size := by
  unfold alignUp alignment
  omega

structure RecordId where
  index : Nat
  index_pos : 0 < index
  index_lt : index < 1 <<< 32
deriving DecidableEq

namespace RecordId

def ofIndex? (index : Nat) : Option RecordId :=
  if h : 0 < index ∧ index < 1 <<< 32 then some ⟨index, h.1, h.2⟩ else none

def ofOffset? (offset : Nat) : Option RecordId :=
  if offset % alignment = 0 then ofIndex? (offset / alignment) else none

def offset (id : RecordId) : Nat := id.index * alignment

def text (id : RecordId) : String := s!"#{id.index}"

@[ext] theorem ext {a b : RecordId} (h : a.index = b.index) : a = b := by
  cases a
  cases b
  simp_all

theorem ofIndex?_index (id : RecordId) : ofIndex? id.index = some id := by
  unfold ofIndex?
  rw [dif_pos ⟨id.index_pos, id.index_lt⟩]

theorem ofOffset?_offset (id : RecordId) : ofOffset? id.offset = some id := by
  simp [ofOffset?, offset, alignment, ofIndex?_index]

theorem ofIndex?_eq_some_iff {index : Nat} {id : RecordId} : ofIndex? index = some id ↔ id.index = index := by
  constructor
  · intro h
    unfold ofIndex? at h
    split at h
    · simp only [Option.some.injEq] at h
      rw [← h]
    · simp at h
  · rintro rfl
    exact ofIndex?_index id

end RecordId

end RecordStore
