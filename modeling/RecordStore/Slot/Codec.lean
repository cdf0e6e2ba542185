import RecordStore.Bytes.LittleEndian
import RecordStore.Slot.Header

/-!
# Slot headers as bytes

A header is a tag byte, a flag byte, two blank bytes and the capacity; all but padding go on with the length (or the
target of a redirect) and the origin.  Numbers are 32-bit words, lowest byte first.
-/

namespace RecordStore.SlotHeader

open LittleEndian

def liveTag : UInt8 := 1

def movedTag : UInt8 := 2

def deletedTag : UInt8 := 3

def paddingTag : UInt8 := 4

/-- Set on the tombstone of a slot that was a redirect before. -/
def relocatedFlag : UInt8 := 1

def encode : SlotHeader → List UInt8
  | .live capacity length origin =>
    [liveTag, 0, 0, 0] ++ LittleEndian.encode 4 capacity ++ LittleEndian.encode 4 length ++
      LittleEndian.encode 4 (origin.elim 0 (·.index))
  | .moved capacity target =>
    [movedTag, 0, 0, 0] ++ LittleEndian.encode 4 capacity ++ LittleEndian.encode 4 target.index ++ [0, 0, 0, 0]
  | .deleted capacity length relocated =>
    [deletedTag, if relocated then relocatedFlag else 0, 0, 0] ++ LittleEndian.encode 4 capacity ++
      LittleEndian.encode 4 length ++ [0, 0, 0, 0]
  | .padding capacity => [paddingTag, 0, 0, 0] ++ LittleEndian.encode 4 capacity

/-- The header with the words `capacity`, `word` and `origin` at `offset`, for a tag other than that of padding. -/
def ofWords (offset : Nat) (tag flags : UInt8) (reserved capacity word origin : Nat) : Except Damage SlotHeader := do
  let plain := flags = 0 ∨ (tag = deletedTag ∧ flags = relocatedFlag)
  if ¬plain ∨ reserved ≠ 0 then throw (.unknownFlags flags.toNat reserved)
  if tag ≠ liveTag ∧ origin ≠ 0 then throw .strayOrigin
  let origin := RecordId.ofIndex? origin
  match origin with
  | some id => if offset ≤ id.offset then throw (.lateOrigin id)
  | none => pure ()
  if tag = movedTag then
    match RecordId.ofIndex? word with
    | some target => return .moved capacity target
    | none => throw .nullTarget
  else if capacity < word then throw (.overfull capacity word)
  else if tag = liveTag then return .live capacity word origin
  else return .deleted capacity word (flags = relocatedFlag)

/-- The header that `bytes` start with, for a slot at `offset`.  Fewer than 16 bytes can only hold padding. -/
def decode (offset : Nat) : List UInt8 → Except Damage SlotHeader
  | tag :: flags :: r₀ :: r₁ :: c₀ :: c₁ :: c₂ :: c₃ :: rest =>
    let capacity := LittleEndian.decode [c₀, c₁, c₂, c₃]
    if tag = paddingTag then
      if flags = 0 ∧ r₀ = 0 ∧ r₁ = 0 then .ok (.padding capacity) else .error .paddingNotBlank
    else if tag ≠ liveTag ∧ tag ≠ movedTag ∧ tag ≠ deletedTag then .error (.unknownTag tag.toNat)
    else
      match rest with
      | w₀ :: w₁ :: w₂ :: w₃ :: o₀ :: o₁ :: o₂ :: o₃ :: _ =>
        ofWords offset tag flags (LittleEndian.decode [r₀, r₁]) capacity (LittleEndian.decode [w₀, w₁, w₂, w₃])
          (LittleEndian.decode [o₀, o₁, o₂, o₃])
      | _ => .error .headerAcrossPages
  | bytes => .error (.headerCut bytes.length)

end RecordStore.SlotHeader
