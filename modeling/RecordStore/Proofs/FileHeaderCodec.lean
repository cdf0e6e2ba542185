import Mathlib.Tactic.SplitIfs
import RecordStore.FileHeader
import RecordStore.Proofs.LittleEndian

/-!
# File headers and their bytes

A file header whose numbers fit their words is what its bytes decode to (`FileHeader.decode_encode`), and no such
header looks like a file that was never set up.  Of counters that do not fit, the words hold what they have room for
(`FileHeader.decode_encode_inWords`).  Nothing else is read, and whatever else there is in front of a file is refused
(`FileHeader.file_header_codec_is_exact`).
-/

namespace RecordStore

/-- Every counter fits a word of 8 bytes. -/
structure Counters.FitWords (counters : Counters) : Prop where
  allocated : counters.allocated < 2 ^ 64
  deleted : counters.deleted < 2 ^ 64
  relocated : counters.relocated < 2 ^ 64
  payload : counters.payload < 2 ^ 64
  capacity : counters.capacity < 2 ^ 64
  size : counters.size < 2 ^ 64

namespace Counters

/-- The counters in words of 8 bytes, which is the room that there is for them in a file header. -/
def inWords (counters : Counters) : Counters where
  allocated := counters.allocated % 2 ^ 64
  deleted := counters.deleted % 2 ^ 64
  relocated := counters.relocated % 2 ^ 64
  payload := counters.payload % 2 ^ 64
  capacity := counters.capacity % 2 ^ 64
  size := counters.size % 2 ^ 64

theorem fitWords_inWords (counters : Counters) : counters.inWords.FitWords := by
  constructor <;> exact Nat.mod_lt _ (by decide)

theorem FitWords.inWords_eq {counters : Counters} (h : counters.FitWords) : counters.inWords = counters := by
  unfold inWords
  rw [Nat.mod_eq_of_lt h.allocated, Nat.mod_eq_of_lt h.deleted, Nat.mod_eq_of_lt h.relocated,
    Nat.mod_eq_of_lt h.payload, Nat.mod_eq_of_lt h.capacity, Nat.mod_eq_of_lt h.size]

end Counters

namespace FileHeader

/-- A header that a store writes. -/
structure Valid (header : FileHeader) : Prop where
  version : header.version = currentVersion
  pageSize : header.pageSize < 2 ^ 32
  counters : header.counters.FitWords

private theorem word_here {width n : Nat} (rest : List UInt8) (h : n < 256 ^ width) :
    word (LittleEndian.encode width n ++ rest) 0 width = n := by
  unfold word
  rw [List.drop_zero, List.take_left' (LittleEndian.length_encode width n)]
  exact LittleEndian.decode_encode h

private theorem word_next {width n position : Nat} (rest : List UInt8) (size : Nat) (h : width ≤ position) :
    word (LittleEndian.encode width n ++ rest) position size = word rest (position - width) size := by
  unfold word
  rw [List.drop_append, LittleEndian.length_encode, List.drop_eq_nil_of_le (by simpa using h), List.nil_append]

private theorem ofCode?_code (status : FileStatus) : FileStatus.ofCode? status.code = some status := by
  cases status <;> rfl

private theorem not_blank (header : FileHeader) : ((header.encode).take size).all (· = 0) = false := by
  rw [← header.length_encode, List.take_length]
  rfl

/-- The fields of a header, read off its bytes one by one. -/
private theorem words_encode {header : FileHeader} (h : header.Valid) :
    word header.encode 0 4 = magic ∧ word header.encode 4 4 = header.version ∧
      word header.encode 8 4 = header.pageSize ∧ word header.encode 12 4 = header.status.code := by
  have hversion : header.version < 256 ^ 4 := by
    rw [h.version]
    decide
  have hstatus : header.status.code < 256 ^ 4 := by
    cases header.status <;> decide
  simp (disch := decide) only [encode, List.append_assoc, word_next]
  exact ⟨word_here _ (by decide), word_here _ hversion, word_here _ h.pageSize, word_here _ hstatus⟩

private theorem counters_encode {header : FileHeader} (h : header.Valid) :
    word header.encode 16 8 = header.counters.size ∧ word header.encode 24 8 = header.counters.allocated ∧
      word header.encode 32 8 = header.counters.deleted ∧ word header.encode 40 8 = header.counters.relocated ∧
      word header.encode 48 8 = header.counters.payload ∧ word header.encode 56 8 = header.counters.capacity := by
  obtain ⟨hallocated, hdeleted, hrelocated, hpayload, hcapacity, hsize⟩ := h.counters
  have hlast : word (LittleEndian.encode 8 header.counters.capacity ++ []) 0 8 = _ := word_here [] hcapacity
  rw [List.append_nil] at hlast
  simp (disch := decide) only [encode, List.append_assoc, word_next]
  exact ⟨word_here _ hsize, word_here _ hallocated, word_here _ hdeleted, word_here _ hrelocated,
    word_here _ hpayload, hlast⟩

/-- The bytes of a header decode to it. -/
theorem decode_encode {header : FileHeader} (h : header.Valid) : decode header.encode = .ok (some header) := by
  obtain ⟨hmagic, hversion, hpageSize, hstatus⟩ := words_encode h
  obtain ⟨hsize, hallocated, hdeleted, hrelocated, hpayload, hcapacity⟩ := counters_encode h
  unfold decode
  rw [if_neg (by simp), not_blank, hmagic, hversion, hpageSize, hstatus, hsize, hallocated, hdeleted, hrelocated,
    hpayload, hcapacity, ofCode?_code]
  simp only [h.version, Bool.false_eq_true, ne_eq, not_true_eq_false, if_false]
  rw [← h.version]
  rfl

private theorem encode_inWords (header : FileHeader) :
    ({ header with counters := header.counters.inWords } : FileHeader).encode = header.encode := by
  have hword : (2 : Nat) ^ 64 = 256 ^ 8 := rfl
  simp only [encode, Counters.inWords, hword, LittleEndian.encode_mod]

/-- The bytes of any header decode to it, but for what its words have no room for. -/
theorem decode_encode_inWords {header : FileHeader} (hversion : header.version = currentVersion)
    (hpageSize : header.pageSize < 2 ^ 32) :
    decode header.encode = .ok (some { header with counters := header.counters.inWords }) := by
  rw [← encode_inWords]
  exact decode_encode ⟨hversion, hpageSize, header.counters.fitWords_inWords⟩

/-- The header whose numbers stand in the bytes. -/
private def ofBytes (bytes : List UInt8) (status : FileStatus) : FileHeader where
  version := word bytes 4 4
  pageSize := word bytes 8 4
  status := status
  counters :=
    { size := word bytes 16 8
      allocated := word bytes 24 8
      deleted := word bytes 32 8
      relocated := word bytes 40 8
      payload := word bytes 48 8
      capacity := word bytes 56 8 }

/-- The ways in which decoding can end, in the order of its checks. -/
private theorem decode_cases (bytes : List UInt8) :
    (bytes.length < size ∧ decode bytes = .error (.headerCut bytes.length)) ∨
    (size ≤ bytes.length ∧ (∀ b ∈ bytes.take size, b = 0) ∧ decode bytes = .ok none) ∨
    (size ≤ bytes.length ∧ (∃ b ∈ bytes.take size, b ≠ 0) ∧
      ((word bytes 0 4 ≠ magic ∧ decode bytes = .error (.badMagic (word bytes 0 4))) ∨
       (word bytes 0 4 = magic ∧ word bytes 4 4 ≠ currentVersion ∧
          decode bytes = .error (.unknownVersion (word bytes 4 4))) ∨
       (word bytes 0 4 = magic ∧ word bytes 4 4 = currentVersion ∧ FileStatus.ofCode? (word bytes 12 4) = none ∧
          decode bytes = .error (.unknownStatus (word bytes 12 4))) ∨
       ∃ status, word bytes 0 4 = magic ∧ word bytes 4 4 = currentVersion ∧
          FileStatus.ofCode? (word bytes 12 4) = some status ∧ decode bytes = .ok (some (ofBytes bytes status)))) := by
  by_cases hcut : bytes.length < size
  · exact .inl ⟨hcut, by rw [decode, if_pos hcut]; rfl⟩
  have hlength := Nat.not_lt.1 hcut
  by_cases hblank : (bytes.take size).all (· = 0) = true
  · refine .inr (.inl ⟨hlength, by simpa using hblank, ?_⟩)
    rw [decode, if_neg hcut, if_pos hblank]
    rfl
  refine .inr (.inr ⟨hlength, by simpa using hblank, ?_⟩)
  by_cases hmagic : word bytes 0 4 = magic
  · by_cases hversion : word bytes 4 4 = currentVersion
    · cases hstatus : FileStatus.ofCode? (word bytes 12 4) with
      | none =>
        refine .inr (.inr (.inl ⟨hmagic, hversion, rfl, ?_⟩))
        rw [decode, if_neg hcut, if_neg hblank, if_neg (fun h => h hmagic), if_neg (fun h => h hversion), hstatus]
        rfl
      | some status =>
        refine .inr (.inr (.inr ⟨status, hmagic, hversion, rfl, ?_⟩))
        rw [decode, if_neg hcut, if_neg hblank, if_neg (fun h => h hmagic), if_neg (fun h => h hversion), hstatus]
        rfl
    · refine .inr (.inl ⟨hmagic, hversion, ?_⟩)
      rw [decode, if_neg hcut, if_neg hblank, if_neg (fun h => h hmagic), if_pos hversion]
      rfl
  · refine .inl ⟨hmagic, ?_⟩
    rw [decode, if_neg hcut, if_neg hblank, if_pos hmagic]
    rfl

/-- What is found in bytes that are not refused: nothing in zeros, or a header of the current version. -/
theorem decode_eq_ok {bytes : List UInt8} {found : Option FileHeader} (h : decode bytes = .ok found) :
    (found = none ∧ ∀ b ∈ bytes.take size, b = 0) ∨
      ∃ header, found = some header ∧ header.version = currentVersion ∧
        FileStatus.ofCode? (word bytes 12 4) = some header.status := by
  obtain ⟨-, hd⟩ | ⟨-, hblank, hd⟩ | ⟨-, -, ⟨-, hd⟩ | ⟨-, -, hd⟩ | ⟨-, -, -, hd⟩ |
    ⟨status, -, hversion, hstatus, hd⟩⟩ := decode_cases bytes
  · cases hd.symm.trans h
  · cases hd.symm.trans h
    exact .inl ⟨rfl, hblank⟩
  · cases hd.symm.trans h
  · cases hd.symm.trans h
  · cases hd.symm.trans h
  · cases hd.symm.trans h
    exact .inr ⟨_, rfl, hversion, hstatus⟩

/-- The lowest byte of the status. -/
theorem byte_of_closed {bytes : List UInt8} (h : FileStatus.ofCode? (word bytes 12 4) = some .closed) :
    bytes[12]? = some 1 := by
  have hword : LittleEndian.decode ((bytes.drop 12).take 4) = 1 := by
    change FileStatus.ofCode? (LittleEndian.decode ((bytes.drop 12).take 4)) = _ at h
    generalize LittleEndian.decode ((bytes.drop 12).take 4) = code at h ⊢
    unfold FileStatus.ofCode? at h
    split at h
    · rfl
    · cases h
    · cases h
  rw [← List.head?_drop]
  cases hdrop : bytes.drop 12 with
  | nil =>
    rw [hdrop] at hword
    cases hword
  | cons b rest =>
    rw [hdrop, List.take_cons (by decide), LittleEndian.decode] at hword
    have hb : b.toNat = (1 : UInt8).toNat := by
      change b.toNat = 1
      omega
    rw [List.head?_cons, UInt8.toNat_inj.1 hb]

/-! ### The codec as a whole -/

private theorem word_lt (bytes : List UInt8) (position width : Nat) : word bytes position width < 256 ^ width :=
  Nat.lt_of_lt_of_le (LittleEndian.decode_lt _) (Nat.pow_le_pow_right (by decide) (List.length_take_le ..))

/-- The words of the front part are those of the whole. -/
private theorem word_take {bytes : List UInt8} {position width count : Nat} (h : position + width ≤ count) :
    word (bytes.take count) position width = word bytes position width := by
  unfold word
  rw [List.drop_take, List.take_take, Nat.min_eq_left (by omega)]

/-- A word that is written back behind the bytes in front of it. -/
private theorem take_word {bytes : List UInt8} {position width : Nat} (h : position + width ≤ bytes.length) :
    bytes.take position ++ LittleEndian.encode width (word bytes position width) = bytes.take (position + width) := by
  have hlength : ((bytes.drop position).take width).length = width := by
    rw [List.length_take, List.length_drop]
    omega
  have hword := LittleEndian.encode_decode ((bytes.drop position).take width)
  rw [hlength] at hword
  rw [List.take_add, word, hword]

private theorem code_of_ofCode? {code : Nat} {status : FileStatus} (h : FileStatus.ofCode? code = some status) :
    status.code = code := by
  unfold FileStatus.ofCode? at h
  split at h <;> cases h <;> rfl

/-- The numbers of a header that is made of bytes are those that its words have room for. -/
private theorem valid_ofBytes {bytes : List UInt8} (status : FileStatus) (h : word bytes 4 4 = currentVersion) :
    (ofBytes bytes status).Valid :=
  ⟨h, word_lt bytes 8 4, word_lt bytes 24 8, word_lt bytes 32 8, word_lt bytes 40 8, word_lt bytes 48 8,
    word_lt bytes 56 8, word_lt bytes 16 8⟩

/-- Written back field by field, the numbers in the bytes are the bytes: no field is left out, and none stands in the
place of another. -/
private theorem encode_ofBytes {bytes : List UInt8} {status : FileStatus} (hlength : size ≤ bytes.length)
    (hmagic : word bytes 0 4 = magic) (hstatus : status.code = word bytes 12 4) :
    (ofBytes bytes status).encode = bytes.take size := by
  have hroom : 64 ≤ bytes.length := hlength
  have hfirst : LittleEndian.encode 4 (word bytes 0 4) = bytes.take 4 := by
    have htake := take_word (show 0 + 4 ≤ bytes.length by omega)
    rwa [List.take_zero, List.nil_append] at htake
  unfold encode ofBytes
  rw [← hmagic, hstatus, hfirst, take_word (by omega), take_word (by omega), take_word (by omega),
    take_word (by omega), take_word (by omega), take_word (by omega), take_word (by omega), take_word (by omega),
    take_word (by omega)]
  rfl

/-- What follows the header is not looked at. -/
private theorem decode_take {bytes : List UInt8} (h : size ≤ bytes.length) :
    decode (bytes.take size) = decode bytes := by
  simp (disch := decide) only [decode, List.length_take, Nat.min_eq_left h, List.take_take, Nat.min_self, word_take]
  rw [if_neg (Nat.lt_irrefl size), if_neg (Nat.not_lt.2 h)]

/-- A header is found exactly where its bytes stand in front. -/
theorem decode_eq_some_iff {bytes : List UInt8} {header : FileHeader} :
    decode bytes = .ok (some header) ↔ size ≤ bytes.length ∧ header.Valid ∧ bytes.take size = header.encode := by
  constructor
  · intro h
    obtain ⟨-, hd⟩ | ⟨-, -, hd⟩ | ⟨hlength, -, ⟨-, hd⟩ | ⟨-, -, hd⟩ | ⟨-, -, -, hd⟩ |
      ⟨status, hmagic, hversion, hstatus, hd⟩⟩ := decode_cases bytes
    · cases hd.symm.trans h
    · cases hd.symm.trans h
    · cases hd.symm.trans h
    · cases hd.symm.trans h
    · cases hd.symm.trans h
    · cases hd.symm.trans h
      exact ⟨hlength, valid_ofBytes status hversion, (encode_ofBytes hlength hmagic (code_of_ofCode? hstatus)).symm⟩
  · rintro ⟨hlength, hvalid, htake⟩
    rw [← decode_take hlength, htake]
    exact decode_encode hvalid

/-- A file that was never set up is found exactly where zeros stand in front. -/
theorem decode_eq_none_iff {bytes : List UInt8} :
    decode bytes = .ok none ↔ size ≤ bytes.length ∧ ∀ b ∈ bytes.take size, b = 0 := by
  obtain ⟨hcut, hd⟩ | ⟨hlength, hblank, hd⟩ | ⟨-, ⟨b, hb, hne⟩, hd⟩ := decode_cases bytes
  · exact iff_of_false (fun h => by cases hd.symm.trans h) fun h => Nat.not_le.2 hcut h.1
  · exact iff_of_true hd ⟨hlength, hblank⟩
  · refine iff_of_false (fun h => ?_) fun h => hne (h.2 b hb)
    obtain ⟨-, hd⟩ | ⟨-, -, hd⟩ | ⟨-, -, -, hd⟩ | ⟨status, -, -, -, hd⟩ := hd <;> cases hd.symm.trans h

/-- The codec of file headers is exact: a header is found exactly where its bytes stand in front, a file that was never
set up exactly where zeros do, and everything else is refused.  A header that a store writes is thus what is read from
its bytes, whatever follows, with each counter in its own place, and is never taken for a file that was not set up. -/
theorem file_header_codec_is_exact (bytes : List UInt8) (header : FileHeader) :
    (decode bytes = .ok (some header) ↔ size ≤ bytes.length ∧ header.Valid ∧ bytes.take size = header.encode) ∧
    (decode bytes = .ok none ↔ size ≤ bytes.length ∧ ∀ b ∈ bytes.take size, b = 0) ∧
    ((∃ fault, decode bytes = .error fault) ↔
      ¬((size ≤ bytes.length ∧ ∀ b ∈ bytes.take size, b = 0) ∨
        ∃ found : FileHeader, size ≤ bytes.length ∧ found.Valid ∧ bytes.take size = found.encode)) ∧
    (header.Valid →
      (∀ rest, decode (header.encode ++ rest) = .ok (some header)) ∧ (∃ b ∈ header.encode, b ≠ 0) ∧
      word header.encode 8 4 = header.pageSize ∧ word header.encode 12 4 = header.status.code ∧
      word header.encode 16 8 = header.counters.size ∧ word header.encode 24 8 = header.counters.allocated ∧
      word header.encode 32 8 = header.counters.deleted ∧ word header.encode 40 8 = header.counters.relocated ∧
      word header.encode 48 8 = header.counters.payload ∧ word header.encode 56 8 = header.counters.capacity) := by
  refine ⟨decode_eq_some_iff, decode_eq_none_iff, ?_, fun hvalid => ⟨fun rest => ?_, ?_, ?_⟩⟩
  · -- what is neither blank nor a header is a fault
    cases hdecode : decode bytes with
    | error fault =>
      refine iff_of_true ⟨fault, rfl⟩ ?_
      rintro (hblank | ⟨found, hfound⟩)
      · cases hdecode.symm.trans (decode_eq_none_iff.2 hblank)
      · cases hdecode.symm.trans (decode_eq_some_iff.2 hfound)
    | ok found? =>
      refine iff_of_false (by rintro ⟨fault, h⟩; cases h) (not_not_intro ?_)
      cases found? with
      | none => exact .inl (decode_eq_none_iff.1 hdecode)
      | some found => exact .inr ⟨found, decode_eq_some_iff.1 hdecode⟩
  · refine decode_eq_some_iff.2 ⟨?_, hvalid, List.take_left' header.length_encode⟩
    rw [List.length_append, header.length_encode]
    exact Nat.le_add_right ..
  · have hblank := not_blank header
    rw [← header.length_encode, List.take_length] at hblank
    simpa using hblank
  · obtain ⟨-, -, hpageSize, hstatus⟩ := words_encode hvalid
    exact ⟨hpageSize, hstatus, counters_encode hvalid⟩

/-- A file of pages of 256 bytes, closed, whose counters all differ. -/
theorem file_header_codec_of_closed_file :
    let counters : Counters :=
      { allocated := 7, deleted := 2, relocated := 3, payload := 40, capacity := 2 ^ 63, size := 2 ^ 64 - 8 }
    let header : FileHeader := { version := currentVersion, pageSize := 256, status := .closed, counters }
    header.Valid ∧ decode (header.encode ++ [1, 3]) = .ok (some header) ∧
      word header.encode 16 8 = 2 ^ 64 - 8 ∧ word header.encode 24 8 = 7 ∧ word header.encode 56 8 = 2 ^ 63 := by
  intro counters header
  have hvalid : header.Valid := ⟨rfl, by decide, by constructor <;> decide⟩
  obtain ⟨-, -, -, h⟩ := file_header_codec_is_exact header.encode header
  obtain ⟨hdecode, -, -, -, hsize, hallocated, -, -, -, hcapacity⟩ := h hvalid
  exact ⟨hvalid, hdecode _, hsize, hallocated, hcapacity⟩

end FileHeader

end RecordStore
