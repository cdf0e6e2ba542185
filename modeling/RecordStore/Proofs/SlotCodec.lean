import RecordStore.Proofs.LittleEndian
import RecordStore.Slot.Codec

/-!
# Slot headers and their bytes

Which headers can stand at an offset (`SlotHeader.Valid`), that decoding gives every such header back, whatever bytes
follow (`decode_encode_append`), and that it gives no other ones (`decode_facts`), from no other bytes
(`encode_of_decode`).  Together, the codec is exact (`slot_codec_is_exact`), and no two headers whose numbers fit their
words have the same bytes (`encode_inj`).
-/

namespace RecordStore

open LittleEndian

namespace SlotHeader

/-- A header that the slot at `offset` may have: its numbers fit their words, a record fits its slot, and the origin
of a record lies in front of it. -/
def Valid (offset : Nat) : SlotHeader → Prop
  | .live capacity length origin => capacity < 2 ^ 32 ∧ length ≤ capacity ∧ ∀ id ∈ origin, id.offset < offset
  | .moved capacity _ => capacity < 2 ^ 32
  | .deleted capacity length _ => capacity < 2 ^ 32 ∧ length ≤ capacity
  | .padding capacity => capacity < 2 ^ 32

@[simp] theorem length_encode_header (header : SlotHeader) : header.encode.length = header.headerSize := by
  cases header <;> simp [encode, headerSize, fullSize, paddingSize]

theorem Valid.capacity_lt {offset : Nat} {header : SlotHeader} (h : header.Valid offset) :
    header.capacity < 2 ^ 32 := by
  cases header with
  | live => exact h.1
  | moved => exact h
  | deleted => exact h.1
  | padding => exact h

private theorem decode_word {n : Nat} (h : n < 2 ^ 32) :
    LittleEndian.decode
      [UInt8.ofNat n, UInt8.ofNat (n / 256), UInt8.ofNat (n / 256 / 256), UInt8.ofNat (n / 256 / 256 / 256)] = n :=
  @LittleEndian.decode_encode 4 n (by omega)

private theorem decode_blank_word : LittleEndian.decode [0, 0, 0, 0] = 0 := rfl

private theorem decode_blank_half : LittleEndian.decode [0, 0] = 0 := rfl

private theorem ofWords_live {offset capacity length : Nat} {origin : Option RecordId} (hlen : length ≤ capacity)
    (horigin : ∀ id ∈ origin, id.offset < offset) :
    ofWords offset liveTag 0 0 capacity length (origin.elim 0 (·.index)) = .ok (.live capacity length origin) := by
  cases origin with
  | none =>
    simp [ofWords, liveTag, movedTag, deletedTag, RecordId.ofIndex?, Nat.not_lt.2 hlen]
    rfl
  | some id =>
    have h := horigin id rfl
    simp [ofWords, liveTag, movedTag, deletedTag, RecordId.ofIndex?_index, Nat.not_lt.2 hlen, Nat.not_le.2 h]
    rfl

private theorem ofWords_moved {offset capacity : Nat} {target : RecordId} :
    ofWords offset movedTag 0 0 capacity target.index 0 = .ok (.moved capacity target) := by
  have hnone : RecordId.ofIndex? 0 = none := rfl
  simp [ofWords, liveTag, movedTag, deletedTag, RecordId.ofIndex?_index, hnone]
  rfl

private theorem ofWords_deleted {offset capacity length : Nat} {relocated : Bool} (hlen : length ≤ capacity) :
    ofWords offset deletedTag (if relocated then relocatedFlag else 0) 0 capacity length 0 =
      .ok (.deleted capacity length relocated) := by
  cases relocated <;>
    simp [ofWords, liveTag, movedTag, deletedTag, relocatedFlag, RecordId.ofIndex?, Nat.not_lt.2 hlen] <;> rfl

/-- Decoding gives a valid header back, whatever follows it. -/
theorem decode_encode_append {offset : Nat} {header : SlotHeader} (h : header.Valid offset) (rest : List UInt8) :
    decode offset (header.encode ++ rest) = .ok header := by
  cases header with
  | live capacity length origin =>
    obtain ⟨hcap, hlen, horigin⟩ := h
    have hid : origin.elim 0 (·.index) < 2 ^ 32 := by
      cases origin with
      | none => simp
      | some id => exact id.index_lt
    simp only [encode, LittleEndian.encode, List.cons_append, List.nil_append, decode, decode_word hcap,
      decode_word (show length < 2 ^ 32 by omega), decode_word hid, decode_blank_half]
    rw [if_neg (by decide), if_neg (by decide)]
    exact ofWords_live hlen horigin
  | moved capacity target =>
    simp only [encode, LittleEndian.encode, List.cons_append, List.nil_append, decode, decode_word h,
      decode_word target.index_lt, decode_blank_half, decode_blank_word]
    rw [if_neg (by decide), if_neg (by decide)]
    exact ofWords_moved
  | deleted capacity length relocated =>
    obtain ⟨hcap, hlen⟩ := h
    simp only [encode, LittleEndian.encode, List.cons_append, List.nil_append, decode, decode_word hcap,
      decode_word (show length < 2 ^ 32 by omega), decode_blank_half, decode_blank_word]
    rw [if_neg (by decide), if_neg (by decide)]
    exact ofWords_deleted hlen
  | padding capacity =>
    simp only [encode, LittleEndian.encode, List.cons_append, List.nil_append, decode, decode_word h]
    rw [if_pos trivial, if_pos ⟨trivial, trivial, trivial⟩]

/-! ### Headers that were read -/

/-- Which header a tag, flags and words stand for. -/
private inductive OfWords (offset capacity word origin : Nat) : UInt8 → UInt8 → SlotHeader → Prop
  | live (hfull : word ≤ capacity) (horigin : ∀ id ∈ RecordId.ofIndex? origin, id.offset < offset) :
      OfWords offset capacity word origin liveTag 0 (.live capacity word (RecordId.ofIndex? origin))
  | moved {target : RecordId} (htarget : RecordId.ofIndex? word = some target) (horigin : origin = 0) :
      OfWords offset capacity word origin movedTag 0 (.moved capacity target)
  | deleted {relocated : Bool} (hfull : word ≤ capacity) (horigin : origin = 0) :
      OfWords offset capacity word origin deletedTag (if relocated then relocatedFlag else 0)
        (.deleted capacity word relocated)

/-- An origin is refused unless it lies in front of the slot. -/
private theorem origin_accepted {offset : Nat} {origin : Option RecordId} {next : Except Damage SlotHeader}
    {header : SlotHeader}
    (h : (match origin with
      | some id => if offset ≤ id.offset then .error (.lateOrigin id) else next
      | none => next : Except Damage SlotHeader) = .ok header) : (∀ id ∈ origin, id.offset < offset) ∧ next = .ok header := by
  cases origin with
  | none => exact ⟨nofun, h⟩
  | some id =>
    dsimp only at h
    by_cases hlate : offset ≤ id.offset
    · rw [if_pos hlate] at h
      cases h
    · rw [if_neg hlate] at h
      refine ⟨?_, h⟩
      rintro _ ⟨⟩
      exact Nat.not_le.1 hlate

private theorem ofWords_cases {offset reserved capacity word origin : Nat} {tag flags : UInt8} {header : SlotHeader}
    (htag : tag = liveTag ∨ tag = movedTag ∨ tag = deletedTag)
    (h : ofWords offset tag flags reserved capacity word origin = .ok header) :
    reserved = 0 ∧ OfWords offset capacity word origin tag flags header := by
  unfold ofWords at h
  simp only [bind, Except.bind, pure, Except.pure, throw, throwThe, MonadExceptOf.throw] at h
  by_cases hflags : ¬(flags = 0 ∨ tag = deletedTag ∧ flags = relocatedFlag) ∨ reserved ≠ 0
  · rw [if_pos hflags] at h
    cases h
  rw [if_neg hflags] at h
  obtain ⟨hplain, hreserved⟩ := not_or.1 hflags
  have hplain := Classical.not_not.1 hplain
  by_cases hstray : tag ≠ liveTag ∧ origin ≠ 0
  · rw [if_pos hstray] at h
    cases h
  rw [if_neg hstray] at h
  refine ⟨Classical.not_not.1 hreserved, ?_⟩
  have horigin : tag ≠ liveTag → origin = 0 := fun hne => Classical.not_not.1 fun hnot => hstray ⟨hne, hnot⟩
  have hflag : tag ≠ deletedTag → flags = 0 := fun hne => hplain.resolve_right fun hdeleted => hne hdeleted.1
  obtain ⟨hearlier, h⟩ := origin_accepted h
  rcases htag with rfl | rfl | rfl
  · rw [if_neg (by decide)] at h
    split at h
    · cases h
    · rename_i hfull
      cases h
      exact hflag (by decide) ▸ .live (Nat.not_lt.1 hfull) hearlier
  · rw [if_pos rfl] at h
    cases htarget : RecordId.ofIndex? word with
    | none =>
      rw [htarget] at h
      cases h
    | some target =>
      rw [htarget] at h
      cases h
      exact hflag (by decide) ▸ .moved htarget (horigin (by decide))
  · rw [if_neg (by decide)] at h
    split at h
    · cases h
    · rename_i hfull
      rw [if_neg (by decide)] at h
      cases h
      rcases hplain with rfl | ⟨-, rfl⟩
      · exact @OfWords.deleted offset capacity word origin false (Nat.not_lt.1 hfull) (horigin (by decide))
      · exact @OfWords.deleted offset capacity word origin true (Nat.not_lt.1 hfull) (horigin (by decide))

private theorem OfWords.valid {offset capacity word origin : Nat} {tag flags : UInt8} {header : SlotHeader}
    (h : OfWords offset capacity word origin tag flags header) (hcapacity : capacity < 2 ^ 32) :
    header.Valid offset := by
  cases h with
  | live hfull horigin => exact ⟨hcapacity, hfull, horigin⟩
  | moved => exact hcapacity
  | deleted hfull => exact ⟨hcapacity, hfull⟩

/-- The origin that a word stands for. -/
private theorem origin_word (origin : Nat) (horigin : origin < 2 ^ 32) :
    (RecordId.ofIndex? origin).elim 0 (·.index) = origin := by
  cases hid : RecordId.ofIndex? origin with
  | none =>
    unfold RecordId.ofIndex? at hid
    split at hid
    · cases hid
    · rename_i hrange
      have hshift : 1 <<< 32 = 2 ^ 32 := rfl
      change 0 = origin
      omega
  | some id => exact RecordId.ofIndex?_eq_some_iff.1 hid

/-- A header that was made of words has these words. -/
private theorem OfWords.encode_eq {offset capacity word origin : Nat} {tag flags : UInt8} {header : SlotHeader}
    (h : OfWords offset capacity word origin tag flags header) (hword : origin < 2 ^ 32) :
    header.encode = [tag, flags, 0, 0] ++ LittleEndian.encode 4 capacity ++ LittleEndian.encode 4 word ++
      LittleEndian.encode 4 origin := by
  cases h with
  | live => rw [encode, origin_word origin hword]
  | moved htarget horigin =>
    rw [encode, RecordId.ofIndex?_eq_some_iff.1 htarget, horigin]
    rfl
  | deleted _ horigin =>
    rw [encode, horigin]
    rfl

/-- What is decoded may stand at its offset, and stands at the front of the bytes. -/
private theorem decode_eq_ok {offset : Nat} {bytes : List UInt8} {header : SlotHeader}
    (h : decode offset bytes = .ok header) : header.Valid offset ∧ header.encode <+: bytes := by
  have hwords : ∀ a b c d : UInt8, LittleEndian.encode 4 (LittleEndian.decode [a, b, c, d]) = [a, b, c, d] :=
    fun a b c d => encode_decode [a, b, c, d]
  have hlt : ∀ a b c d : UInt8, LittleEndian.decode [a, b, c, d] < 2 ^ 32 := fun a b c d => by
    simpa using decode_lt [a, b, c, d]
  unfold decode at h
  split at h
  · rename_i tag flags r₀ r₁ c₀ c₁ c₂ c₃ rest
    dsimp only at h
    by_cases hpadding : tag = paddingTag
    · rw [if_pos hpadding] at h
      by_cases hblank : flags = 0 ∧ r₀ = 0 ∧ r₁ = 0
      · rw [if_pos hblank] at h
        cases h
        obtain ⟨rfl, rfl, rfl⟩ := hblank
        refine ⟨hlt .., ?_⟩
        rw [encode, hwords, hpadding]
        exact ⟨rest, rfl⟩
      · rw [if_neg hblank] at h
        cases h
    · rw [if_neg hpadding] at h
      by_cases htag : tag ≠ liveTag ∧ tag ≠ movedTag ∧ tag ≠ deletedTag
      · rw [if_pos htag] at h
        cases h
      · rw [if_neg htag] at h
        split at h
        · rename_i w₀ w₁ w₂ w₃ o₀ o₁ o₂ o₃ more
          have htag' : tag = liveTag ∨ tag = movedTag ∨ tag = deletedTag := by
            by_cases hlive : tag = liveTag
            · exact .inl hlive
            · by_cases hmoved : tag = movedTag
              · exact .inr (.inl hmoved)
              · exact .inr (.inr (Classical.not_not.1 fun hdeleted => htag ⟨hlive, hmoved, hdeleted⟩))
          obtain ⟨hreserved, hheader⟩ := ofWords_cases htag' h
          obtain ⟨rfl, rfl⟩ : r₀ = 0 ∧ r₁ = 0 := by
            have hinj : [r₀, r₁] = [0, 0] := decode_inj rfl hreserved
            simpa using hinj
          refine ⟨hheader.valid (hlt ..), ?_⟩
          rw [hheader.encode_eq (hlt ..), hwords, hwords, hwords]
          exact ⟨more, rfl⟩
        · cases h
  · cases h

/-- What is decoded stands at the front of the bytes. -/
theorem encode_of_decode {offset : Nat} {bytes : List UInt8} {header : SlotHeader}
    (h : decode offset bytes = .ok header) : header.encode <+: bytes := (decode_eq_ok h).2

/-- What is decoded is a valid header, and depends on its own bytes only. -/
theorem decode_facts {offset : Nat} {bytes : List UInt8} {header : SlotHeader} (h : decode offset bytes = .ok header) :
    header.Valid offset ∧ header.headerSize ≤ bytes.length ∧
      ∀ bytes', bytes'.take header.headerSize = bytes.take header.headerSize → decode offset bytes' = .ok header := by
  obtain ⟨hvalid, hprefix⟩ := decode_eq_ok h
  refine ⟨hvalid, length_encode_header header ▸ hprefix.length_le, fun bytes' htake => ?_⟩
  rw [← length_encode_header, ← List.prefix_iff_eq_take.1 hprefix] at htake
  obtain ⟨rest, rfl⟩ : header.encode <+: bytes' := htake ▸ List.take_prefix _ _
  exact decode_encode_append hvalid rest

/-! ### The codec as a whole -/

/-- Every number of the header fits its word. -/
def FitsWords : SlotHeader → Prop
  | .live capacity length _ => capacity < 2 ^ 32 ∧ length < 2 ^ 32
  | .moved capacity _ => capacity < 2 ^ 32
  | .deleted capacity length _ => capacity < 2 ^ 32 ∧ length < 2 ^ 32
  | .padding capacity => capacity < 2 ^ 32

/-- What is read is what was written: a valid header at the front of the bytes. -/
theorem decode_eq_ok_iff {offset : Nat} {bytes : List UInt8} {header : SlotHeader} :
    decode offset bytes = .ok header ↔ header.Valid offset ∧ header.encode <+: bytes := by
  constructor
  · intro h
    exact ⟨(decode_facts h).1, encode_of_decode h⟩
  · rintro ⟨hvalid, rest, rfl⟩
    exact decode_encode_append hvalid rest

/-- The word of an origin; the origin of a record that never moved is written as zero. -/
private theorem origin_inj {a b : Option RecordId} (h : a.elim 0 (·.index) = b.elim 0 (·.index)) : a = b := by
  cases a with
  | none =>
    cases b with
    | none => rfl
    | some id =>
      have hpos := id.index_pos
      have hzero : 0 = id.index := h
      omega
  | some id =>
    cases b with
    | none =>
      have hpos := id.index_pos
      have hzero : id.index = 0 := h
      omega
    | some other => exact congrArg some (RecordId.ext h)

private theorem origin_lt (origin : Option RecordId) : origin.elim 0 (·.index) < 256 ^ 4 := by
  cases origin with
  | none => exact Nat.two_pow_pos 32
  | some id => exact id.index_lt

/-- Headers of different kinds differ in their tags. -/
private theorem tag_encode (header : SlotHeader) :
    header.encode.head? = some (match header.state with
      | .live => liveTag
      | .moved => movedTag
      | .deleted => deletedTag
      | .padding => paddingTag) := by
  cases header <;> rfl

theorem state_eq_of_encode {a b : SlotHeader} (h : a.encode = b.encode) : a.state = b.state := by
  have htags := (tag_encode a).symm.trans ((congrArg List.head? h).trans (tag_encode b))
  revert htags
  cases a.state <;> cases b.state <;> decide

/-- Different headers have different bytes, also where they are not valid. -/
theorem encode_inj {a b : SlotHeader} (ha : a.FitsWords) (hb : b.FitsWords) (h : a.encode = b.encode) : a = b := by
  have hstate := state_eq_of_encode h
  have hwords : ∀ {m n : Nat}, m < 2 ^ 32 → n < 2 ^ 32 → LittleEndian.encode 4 m = LittleEndian.encode 4 n → m = n :=
    @LittleEndian.encode_inj 4
  -- the tags tell the states apart
  cases a with
  | live capacity length origin =>
    cases b with
    | live capacity' length' origin' =>
      unfold encode at h
      obtain ⟨h, horigin⟩ := List.append_inj h (by simp)
      obtain ⟨h, hlength⟩ := List.append_inj h (by simp)
      obtain ⟨-, hcapacity⟩ := List.append_inj h rfl
      rw [hwords ha.1 hb.1 hcapacity, hwords ha.2 hb.2 hlength,
        origin_inj (LittleEndian.encode_inj (origin_lt origin) (origin_lt origin') horigin)]
    | moved | deleted | padding => cases hstate
  | moved capacity target =>
    cases b with
    | moved capacity' target' =>
      unfold encode at h
      obtain ⟨h, -⟩ := List.append_inj h (by simp)
      obtain ⟨h, htarget⟩ := List.append_inj h (by simp)
      obtain ⟨-, hcapacity⟩ := List.append_inj h rfl
      rw [hwords ha hb hcapacity, RecordId.ext (hwords target.index_lt target'.index_lt htarget)]
    | live | deleted | padding => cases hstate
  | deleted capacity length relocated =>
    cases b with
    | deleted capacity' length' relocated' =>
      unfold encode at h
      obtain ⟨h, -⟩ := List.append_inj h (by simp)
      obtain ⟨h, hlength⟩ := List.append_inj h (by simp)
      obtain ⟨hflags, hcapacity⟩ := List.append_inj h rfl
      have hrelocated : relocated = relocated' := by
        cases relocated <;> cases relocated' <;> first | rfl | simp [relocatedFlag] at hflags
      rw [hwords ha.1 hb.1 hcapacity, hwords ha.2 hb.2 hlength, hrelocated]
    | live | moved | padding => cases hstate
  | padding capacity =>
    cases b with
    | padding capacity' =>
      unfold encode at h
      obtain ⟨-, hcapacity⟩ := List.append_inj h rfl
      rw [hwords ha hb hcapacity]
    | live | moved | deleted => cases hstate

/-- A slot header and its bytes determine each other: decoding succeeds with a header exactly where the header may stand
and its bytes stand in front, fewer bytes than a record's header takes are at most those of padding, the bytes of a
header that was read are the ones it was read from, and no two headers share theirs. -/
theorem slot_codec_is_exact (offset : Nat) (header : SlotHeader) :
    (∀ bytes, decode offset bytes = .ok header ↔ header.Valid offset ∧ header.encode <+: bytes) ∧
    (∀ bytes, bytes.length < fullSize → decode offset bytes = .ok header → ∃ capacity, header = .padding capacity) ∧
    (header.Valid offset → ∀ rest, decode offset (header.encode ++ rest) = .ok header) ∧
    (∀ bytes, decode offset bytes = .ok header → header.encode = bytes.take header.headerSize) ∧
    (header.FitsWords → ∀ other : SlotHeader, other.FitsWords → header.encode = other.encode → header = other) ∧
    header.encode.length = header.headerSize := by
  refine ⟨fun bytes => decode_eq_ok_iff, fun bytes hshort h => ?_, fun hvalid rest => decode_encode_append hvalid rest,
    fun bytes h => ?_, fun hfits other hother => encode_inj hfits hother, length_encode_header header⟩
  · have hlength := (encode_of_decode h).length_le
    rw [length_encode_header] at hlength
    cases header with
    | padding capacity => exact ⟨capacity, rfl⟩
    | live | moved | deleted => exact absurd hlength (Nat.not_le.2 hshort)
  · rw [List.prefix_iff_eq_take.1 (encode_of_decode h), length_encode_header]

/-- A record of 5 bytes in a slot for 8, whose first slot is that at offset 64. -/
theorem slot_codec_of_moved_record :
    let header : SlotHeader := .live 8 5 (some ⟨8, by decide, by decide⟩)
    header.Valid 128 ∧ header.FitsWords ∧ header.encode = [1, 0, 0, 0, 8, 0, 0, 0, 5, 0, 0, 0, 8, 0, 0, 0] ∧
      decode 128 (header.encode ++ [104, 101, 108, 108, 111]) = .ok header ∧
      header.encode ≠ (SlotHeader.live 5 8 (some ⟨8, by decide, by decide⟩)).encode := by
  intro header
  have hvalid : header.Valid 128 := ⟨by decide, by decide, fun id hid => by cases hid; decide⟩
  have hfits : header.FitsWords := ⟨by decide, by decide⟩
  obtain ⟨-, -, hdecode, -, hinj, -⟩ := slot_codec_is_exact 128 header
  refine ⟨hvalid, hfits, rfl, hdecode hvalid _, fun h => ?_⟩
  have hother : (SlotHeader.live 5 8 (some ⟨8, by decide, by decide⟩)).FitsWords := ⟨by decide, by decide⟩
  have heq := hinj hfits _ hother h
  simp [header] at heq

end SlotHeader

end RecordStore
