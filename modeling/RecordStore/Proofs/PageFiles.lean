import RecordStore.Proofs.FlatFile

/-!
# Pages of a file over a run

A file of pages is used by allocating, writing and reading pages.  Opening it changes no byte and fills it up to whole
pages (`PageFile.exists_opened`).  From then on every page is as it was last written, a page never written is as it was
at first, and the file only grows (`PageFile.Ran`, kept by each call in `Ran.answer`, and so by every run in
`runAll_ran`).  All this holds as long as pages are counted in 32 bits, that is while no page is allocated in a file of
2^32 pages or more (`PageFile.CountsPages`); there, allocating cuts the file (`allocation_cuts_file`).
-/

namespace RecordStore

open Bytes

/-- What a user of a page file may do with it once it is open. -/
inductive PageCall
  | allocate
  | write (page : PageNumber) (data : ByteArray)
  | read (page : PageNumber) (size : Nat)

inductive PageReply
  | page (number : PageNumber)
  | bytes (data : ByteArray)
  | done
deriving DecidableEq

/-- What the call writes to `page`.  Data of another size than that of a page is refused. -/
def PageCall.written? (pageSize : Nat) (page : PageNumber) : PageCall → Option ByteArray
  | .write other data => if other = page ∧ data.size = pageSize then some data else none
  | .allocate | .read .. => none

/-- What the last of the calls that write to `page` writes there. -/
def lastWritten (pageSize : Nat) (page : PageNumber) (calls : List PageCall) : Option ByteArray :=
  calls.reverse.findSome? (·.written? pageSize page)

theorem lastWritten_concat (pageSize : Nat) (page : PageNumber) (calls : List PageCall) (call : PageCall) :
    lastWritten pageSize page (calls ++ [call]) =
      (call.written? pageSize page).or (lastWritten pageSize page calls) := by
  unfold lastWritten
  rw [List.reverse_append, List.findSome?_append, List.reverse_singleton, List.findSome?_singleton]

namespace PageFile

variable {file start : PageFile} {page : Nat}

def answer (call : PageCall) (file : PageFile) : Except StorageError PageReply × PageFile :=
  match call with
  | .allocate => (.ok (.page file.allocatePage.1), file.allocatePage.2)
  | .write page data =>
    match file.writePage page data with
    | .error e => (.error e, file)
    | .ok file' => (.ok .done, file')
  | .read page size => ((file.readPage page size).map .bytes, file)

/-- The place of a byte that is counted from the start of its page. -/
private theorem inside (page : PageNumber) {i : Nat} (hi : i < file.pageSize) :
    (page * file.pageSize + i) / file.pageSize = page ∧ (page * file.pageSize + i) % file.pageSize = i := by
  refine ⟨(div_eq_iff (by omega)).2 ⟨by omega, by omega⟩, ?_⟩
  rw [Nat.mul_comm, Nat.mul_add_mod, Nat.mod_eq_of_lt hi]

/-- The bytes of a page, zeros where the file does not reach. -/
def bytesOf (file : PageFile) (page : PageNumber) : ByteArray :=
  fit (file.content.read (page * file.pageSize) file.pageSize) file.pageSize

theorem byte_bytesOf (file : PageFile) (page : PageNumber) (i : Nat) :
    byte (file.bytesOf page) i = if i < file.pageSize then file.content.byteAt (page * file.pageSize + i) else 0 := by
  unfold bytesOf
  rw [byte_fit]
  by_cases hi : i < file.pageSize
  · rw [if_pos hi, if_pos hi]
    by_cases hread : i < min file.pageSize (file.content.length - page * file.pageSize)
    · exact SparseFile.byte_read hread
    · rw [byte_of_size_le (by rw [SparseFile.size_read]; omega), SparseFile.byteAt_of_le (by omega)]
  · rw [if_neg hi, if_neg hi]

@[simp] theorem size_bytesOf (file : PageFile) (page : PageNumber) : (file.bytesOf page).size = file.pageSize :=
  size_fit ..

/-- Files that agree on the bytes of a page. -/
theorem bytesOf_congr {file' : PageFile} (hpageSize : file'.pageSize = file.pageSize)
    (h : ∀ i < file.pageSize, file'.content.byteAt (page * file.pageSize + i) =
      file.content.byteAt (page * file.pageSize + i)) : file'.bytesOf page = file.bytesOf page := by
  refine ext_byte (by simp [hpageSize]) fun i hi => ?_
  rw [size_bytesOf, hpageSize] at hi
  rw [byte_bytesOf, byte_bytesOf, hpageSize, if_pos hi, if_pos hi, h i hi]

/-- Where the bytes of one page become `data`, that page does, and no other one changes. -/
theorem bytesOf_written {content : SparseFile} {data : ByteArray} (hsize : data.size = file.pageSize)
    (h : ∀ i, content.byteAt i =
      if i / file.pageSize = page then byte data (i % file.pageSize) else file.content.byteAt i) (other : PageNumber) :
    ({ file with content } : PageFile).bytesOf other = if other = page then data else file.bytesOf other := by
  by_cases hother : other = page
  · rw [if_pos hother]
    refine ext_byte (by simp [hsize]) fun i hi => ?_
    rw [size_bytesOf] at hi
    obtain ⟨hdiv, hmod⟩ := inside other hi
    rw [byte_bytesOf, if_pos hi]
    dsimp only at hdiv hmod ⊢
    rw [h, if_pos (hdiv.trans hother), hmod]
  · rw [if_neg hother]
    refine bytesOf_congr rfl fun i hi => ?_
    rw [h, if_neg (mt (inside other hi).1.symm.trans hother)]

/-- Of whole pages, those of the file are read as they are. -/
theorem readPage_eq (hpos : 0 < file.pageSize) (hwhole : file.content.length % file.pageSize = 0) (page : PageNumber) :
    file.readPage page file.pageSize =
      if page < file.pages then .ok (file.bytesOf page) else .error (.pageNotFound page) := by
  by_cases hpage : page < file.pages
  · obtain ⟨data, hread, hsize, hbytes⟩ := exists_readPage hpos ((hasPage_iff hpos).2 hpage)
    rw [if_pos hpage, hread]
    refine congrArg _ (ext_byte (by simp [hsize]) fun i hi => ?_)
    rw [hsize] at hi
    obtain ⟨hdiv, hmod⟩ := inside page hi
    rw [byte_bytesOf, if_pos hi, ← hbytes _ hdiv, hmod]
  · rw [if_neg hpage]
    exact readPage_missing hwhole (mt (hasPage_iff hpos).1 hpage)

/-- Room behind the last page reads as it did before: zeros. -/
theorem byteAt_allocated (file : PageFile) (hpos : 0 < file.pageSize) (i : Nat) :
    (file.content.setLength ((file.pages + 1) * file.pageSize)).byteAt i = file.content.byteAt i :=
  file.content.byteAt_setLength_page hpos i

/-- The page that follows the last one is there and blank once there is room for it. -/
theorem readPage_allocated {after : PageFile} (hpos : 0 < file.pageSize)
    (hend : file.pages * file.pageSize = file.content.length) (hpageSize : after.pageSize = file.pageSize)
    (hlength : after.content.length = (file.pages + 1) * file.pageSize)
    (hbytes : ∀ i, after.content.byteAt i = file.content.byteAt i) :
    after.readPage file.pages after.pageSize = .ok (zeros after.pageSize) := by
  have hwhole : after.content.length % after.pageSize = 0 := by
    rw [hlength, hpageSize]
    exact Nat.mul_mod_left ..
  have hpages : after.pages = file.pages + 1 := by
    change after.content.length / after.pageSize = _
    rw [hlength, hpageSize, Nat.mul_div_cancel _ hpos]
  rw [readPage_eq (hpageSize ▸ hpos) hwhole, hpages, if_pos (Nat.lt_succ_self _)]
  refine congrArg _ (ext_byte (by simp) fun i hi => ?_)
  rw [size_bytesOf] at hi
  rw [byte_bytesOf, if_pos hi, byte_zeros, hbytes, SparseFile.byteAt_of_le (by rw [hpageSize]; omega)]

/-! ### Opening -/

/-- A file that can be filled up to whole pages is, and no byte of it changes. -/
theorem exists_opened (path : String) {entry : Entry} {content : SparseFile} (hentry : entry.Provides content)
    {pageSize : Nat} (hpageSize : checkPageSize pageSize = .ok ())
    (hroom : content.length % pageSize = 0 ∨ (content.length / pageSize + 1) * pageSize ≤ maxFileLength) :
    ∃ file, openOrCreate path entry pageSize = .ok file ∧ file.pageSize = pageSize ∧
      file.content.length = (content.length + pageSize - 1) / pageSize * pageSize ∧
      ∀ i, file.content.byteAt i = content.byteAt i := by
  have hpos := (supported_of_checkPageSize hpageSize).pos
  rw [Image.roundUp_eq hpos]
  rcases hentry with rfl | ⟨rfl, rfl⟩
  · by_cases htorn : content.length % pageSize = 0
    · refine ⟨{ content, pageSize }, ?_, rfl, (if_pos htorn).symm, fun i => rfl⟩
      rw [openOrCreate, hpageSize]
      exact if_pos htorn
    · have hmax := Nat.not_lt.2 (hroom.resolve_left htorn)
      refine ⟨{ content := content.setLength ((content.length / pageSize + 1) * pageSize), pageSize }, ?_, rfl,
        (if_neg htorn).symm, byteAt_allocated { content, pageSize } hpos⟩
      rw [openOrCreate, hpageSize]
      exact (if_neg htorn).trans (if_neg hmax)
  · refine ⟨{ content := .empty, pageSize }, ?_, rfl, (if_pos (Nat.zero_mod _)).symm, fun i => rfl⟩
    rw [openOrCreate, hpageSize]
    rfl

/-- A file whose last page cannot be filled up, as files are no longer than that, is not opened. -/
theorem openOrCreate_too_long (path : String) {content : SparseFile} {pageSize : Nat}
    (hpageSize : checkPageSize pageSize = .ok ()) (htorn : content.length % pageSize ≠ 0)
    (hlong : maxFileLength < (content.length / pageSize + 1) * pageSize) :
    openOrCreate path (.regular content) pageSize = .error (.io .lengthTooLarge) := by
  rw [openOrCreate, hpageSize]
  exact (if_neg htorn).trans (if_pos hlong)

/-! ### Calls -/

/-- What holds of a file once the calls were made on the file `start`: it has whole pages, no fewer than it had, and
each is as it was last written, or as it was at first. -/
structure Ran (start : PageFile) (calls : List PageCall) (file : PageFile) : Prop where
  pageSize : file.pageSize = start.pageSize
  whole : file.content.length % start.pageSize = 0
  grown : start.content.length ≤ file.content.length
  bytesOf : ∀ page, file.bytesOf page = (lastWritten start.pageSize page calls).getD (start.bytesOf page)

theorem Ran.refl (hwhole : start.content.length % start.pageSize = 0) : start.Ran [] start :=
  ⟨rfl, hwhole, Nat.le_refl _, fun _ => rfl⟩

theorem Ran.readPage {calls : List PageCall} (h : start.Ran calls file) (hpos : 0 < start.pageSize)
    (page : PageNumber) : file.readPage page start.pageSize =
      if page < file.pages then .ok ((lastWritten start.pageSize page calls).getD (start.bytesOf page))
      else .error (.pageNotFound page) := by
  have hread := readPage_eq (h.pageSize ▸ hpos) (h.pageSize ▸ h.whole) page
  rwa [h.bytesOf page, h.pageSize] at hread

/-- A call that writes nothing. -/
private theorem Ran.unwritten {calls : List PageCall} (h : start.Ran calls file) {call : PageCall}
    (hcall : ∀ page, call.written? start.pageSize page = none) {file' : PageFile}
    (hpageSize : file'.pageSize = file.pageSize) (hwhole : file'.content.length % start.pageSize = 0)
    (hgrown : file.content.length ≤ file'.content.length)
    (hbytes : ∀ i, file'.content.byteAt i = file.content.byteAt i) : start.Ran (calls ++ [call]) file' := by
  refine ⟨hpageSize.trans h.pageSize, hwhole, Nat.le_trans h.grown hgrown, fun page => ?_⟩
  rw [bytesOf_congr hpageSize fun i _ => hbytes _, lastWritten_concat, hcall, Option.none_or]
  exact h.bytesOf page

/-- A call keeps the pages, and an allocation does so as long as the pages can be counted. -/
theorem Ran.answer {calls : List PageCall} (hpos : 0 < start.pageSize) (h : start.Ran calls file) (call : PageCall)
    (hcounts : call = .allocate → file.pages < 2 ^ 32) :
    start.Ran (calls ++ [call]) (file.answer call).2 ∧ file.content.length ≤ (file.answer call).2.content.length := by
  have hpos' : 0 < file.pageSize := h.pageSize ▸ hpos
  cases call with
  | allocate =>
    have hgrown : file.content.length ≤ (file.pages + 1) * file.pageSize := by
      rw [Nat.mul_comm]
      exact Nat.le_of_lt (Nat.lt_mul_div_succ file.content.length hpos')
    change start.Ran _ file.allocatePage.2 ∧ _ ≤ file.allocatePage.2.content.length
    rw [allocatePage_eq (hcounts rfl)]
    refine ⟨h.unwritten (fun _ => rfl) rfl ?_ hgrown (byteAt_allocated _ hpos'), hgrown⟩
    rw [SparseFile.length_setLength, h.pageSize]
    exact Nat.mul_mod_left ..
  | write page data =>
    by_cases hsize : data.size = file.pageSize
    · obtain ⟨content, hwrite, hlength, hbytes⟩ := exists_written hpos' page hsize
      have hgrown : file.content.length ≤ content.length := hlength ▸ Nat.le_max_left ..
      simp only [PageFile.answer, hwrite]
      refine ⟨⟨h.pageSize, ?_, Nat.le_trans h.grown hgrown, fun other => ?_⟩, hgrown⟩
      · change content.length % _ = 0
        rw [hlength, ← h.pageSize]
        rcases Nat.le_total file.content.length ((page + 1) * file.pageSize) with hle | hle
        · rw [Nat.max_eq_right hle]
          exact Nat.mul_mod_left ..
        · rw [Nat.max_eq_left hle, h.pageSize]
          exact h.whole
      · rw [bytesOf_written hsize hbytes, lastWritten_concat, PageCall.written?, ← h.pageSize]
        by_cases hother : other = page
        · rw [if_pos hother, if_pos ⟨hother.symm, hsize⟩]
          rfl
        · rw [if_neg hother, if_neg fun hpage => hother hpage.1.symm, Option.none_or, h.pageSize]
          exact h.bytesOf other
    · have hwritten : ∀ other, (PageCall.write page data).written? start.pageSize other = none := fun other =>
        if_neg fun hpage => hsize (hpage.2.trans h.pageSize.symm)
      have hwrite : file.writePage page data = .error (.bufferSizeMismatch file.pageSize data.size) := by
        rw [writePage, checkBuffer, if_neg hsize]
        rfl
      simp only [PageFile.answer, hwrite]
      exact ⟨h.unwritten hwritten rfl h.whole (Nat.le_refl _) fun _ => rfl, Nat.le_refl _⟩
  | read page size =>
    exact ⟨h.unwritten (fun _ => rfl) rfl h.whole (Nat.le_refl _) fun _ => rfl, Nat.le_refl _⟩

/-! ### Runs -/

/-- Whenever the calls allocate a page, the pages of the file can be counted in 32 bits. -/
def CountsPages (start : PageFile) (calls : List PageCall) : Prop :=
  ∀ before after, calls = before ++ .allocate :: after → (runAll answer before start).2.pages < 2 ^ 32

theorem countsPages_nil : start.CountsPages [] := fun before after heq => by simp at heq

theorem countsPages_cons {call : PageCall} {rest : List PageCall} : start.CountsPages (call :: rest) ↔
    (call = .allocate → start.pages < 2 ^ 32) ∧ (start.answer call).2.CountsPages rest := by
  constructor
  · refine fun h => ⟨fun hcall => h [] rest (by rw [hcall]; rfl), fun before after heq => ?_⟩
    exact h (call :: before) after (by rw [heq]; rfl)
  · rintro ⟨hcall, hrest⟩ before after heq
    cases before with
    | nil =>
      cases heq
      exact hcall rfl
    | cons first before =>
      cases heq
      exact hrest before after rfl

theorem CountsPages.of_concat {calls : List PageCall} {call : PageCall} (h : start.CountsPages (calls ++ [call])) :
    start.CountsPages calls ∧ (call = .allocate → (runAll answer calls start).2.pages < 2 ^ 32) := by
  refine ⟨fun before after heq => h before (after ++ [call]) (by rw [heq]; simp), ?_⟩
  rintro rfl
  exact h calls [] rfl

/-- A run keeps the pages. -/
theorem runAll_ran (hpos : 0 < start.pageSize) (hwhole : start.content.length % start.pageSize = 0)
    {calls : List PageCall} (hcounts : start.CountsPages calls) : start.Ran calls (runAll answer calls start).2 := by
  induction calls using List.reverseRecOn with
  | nil => exact .refl hwhole
  | append_singleton calls call ih =>
    obtain ⟨hbefore, hcall⟩ := hcounts.of_concat
    rw [runAll_append]
    exact ((ih hbefore).answer hpos call hcall).1

/-- The file does not become shorter from one moment of a run to a later one. -/
theorem length_le_runAll (hpos : 0 < start.pageSize) (hwhole : start.content.length % start.pageSize = 0)
    {calls : List PageCall} (hcounts : start.CountsPages calls) {done : List PageCall} (hdone : done <+: calls) :
    (runAll answer done start).2.content.length ≤ (runAll answer calls start).2.content.length := by
  obtain ⟨rest, rfl⟩ := hdone
  induction rest using List.reverseRecOn with
  | nil => rw [List.append_nil]
  | append_singleton rest call ih =>
    rw [← List.append_assoc] at hcounts ⊢
    obtain ⟨hbefore, hcall⟩ := hcounts.of_concat
    have hstep := ((runAll_ran hpos hwhole hbefore).answer hpos call hcall).2
    rw [runAll_append]
    exact Nat.le_trans (ih hbefore) hstep

/-- No page of a file is lost.  Opening changes no byte and fills the file up with zeros to whole pages, if a file may
be that long.  Then, as long as its pages can be counted, the file never becomes shorter, a write reaches no byte
outside its page, a page is read as it was last written, or as it was at first, and a page that is allocated is a new
one of zeros at the end. -/
theorem page_files_lose_no_pages (path : String) {entry : Entry} {content : SparseFile}
    (hentry : entry.Provides content) {pageSize : Nat} (hpageSize : checkPageSize pageSize = .ok ()) :
    (content.length % pageSize ≠ 0 → maxFileLength < (content.length / pageSize + 1) * pageSize →
      openOrCreate path entry pageSize = .error (.io .lengthTooLarge)) ∧
    (content.length % pageSize = 0 ∨ (content.length / pageSize + 1) * pageSize ≤ maxFileLength →
      ∃ start, openOrCreate path entry pageSize = .ok start ∧ start.pageSize = pageSize ∧
        start.content.length = (content.length + pageSize - 1) / pageSize * pageSize ∧
        (∀ i, start.content.byteAt i = content.byteAt i) ∧
        ∀ calls, start.CountsPages calls →
          let now := (runAll answer calls start).2
          (∀ done, done <+: calls → (runAll answer done start).2.content.length ≤ now.content.length) ∧
          (∀ page data, data.size = pageSize → ∃ after, now.writePage page data = .ok after ∧
            after.content.length = max now.content.length ((page + 1) * pageSize) ∧
            ∀ i, i / pageSize ≠ page → after.content.byteAt i = now.content.byteAt i) ∧
          (∀ page, now.readPage page pageSize =
            if page < now.pages then .ok ((lastWritten pageSize page calls).getD (start.bytesOf page))
            else .error (.pageNotFound page)) ∧
          (now.pages < 2 ^ 32 →
            now.allocatePage.1 = now.pages ∧
            now.allocatePage.2.content.length = now.content.length + pageSize ∧
            (∀ i, now.allocatePage.2.content.byteAt i = now.content.byteAt i) ∧
            now.allocatePage.2.readPage now.pages pageSize = .ok (zeros pageSize))) := by
  have hpos := (supported_of_checkPageSize hpageSize).pos
  constructor
  · intro htorn hlong
    rcases hentry with rfl | ⟨-, rfl⟩
    · exact openOrCreate_too_long path hpageSize htorn hlong
    · exact absurd (Nat.zero_mod _) htorn
  intro hroom
  obtain ⟨start, hopen, rfl, hlength, hbytes⟩ := exists_opened path hentry hpageSize hroom
  have hwhole : start.content.length % start.pageSize = 0 := hlength ▸ Nat.mul_mod_left ..
  refine ⟨start, hopen, rfl, hlength, hbytes, fun calls hcounts => ?_⟩
  -- from here on only what the run keeps is used
  have hran := runAll_ran hpos hwhole hcounts
  have hshrinks := fun done (hdone : done <+: calls) => length_le_runAll hpos hwhole hcounts hdone
  dsimp only
  generalize (runAll answer calls start).2 = now at hran hshrinks ⊢
  have hpos' : 0 < now.pageSize := hran.pageSize ▸ hpos
  refine ⟨hshrinks, fun page data hsize => ?_, fun page => ?_, fun hcount => ?_⟩
  · rw [← hran.pageSize] at hsize ⊢
    obtain ⟨after, hwrite, hgrown, hafter⟩ := exists_written hpos' page hsize
    exact ⟨_, hwrite, hgrown, fun i hi => (hafter i).trans (if_neg hi)⟩
  · exact hran.readPage hpos page
  · have hend : now.pages * now.pageSize = now.content.length :=
      Nat.div_mul_cancel (Nat.dvd_of_mod_eq_zero (hran.pageSize ▸ hran.whole))
    rw [allocatePage_eq hcount]
    refine ⟨rfl, ?_, byteAt_allocated _ hpos', ?_⟩
    · rw [SparseFile.length_setLength, Nat.add_mul, Nat.one_mul, hend, hran.pageSize]
    · rw [← hran.pageSize]
      exact readPage_allocated hpos' hend rfl rfl (byteAt_allocated now hpos')

/-- A page of 256 bytes of one value. -/
private def filled (value : UInt8) : ByteArray := ⟨Array.replicate 256 value⟩

@[simp] private theorem size_filled (value : UInt8) : (filled value).size = 256 := by
  simp [filled, ByteArray.size]

/-- A file of 300 bytes is filled up to 2 pages; the third one is written, and the one that is allocated then is the
fourth. -/
theorem page_files_lose_no_pages_of_torn_file :
    let content : SparseFile := SparseFile.empty.setLength 300
    let calls : List PageCall := [.write 2 (filled 7), .allocate]
    checkPageSize 256 = .ok () ∧ Entry.Provides (.regular content) content ∧
    ∃ start, openOrCreate "torn" (.regular content) 256 = .ok start ∧ start.content.length = 512 ∧
      start.CountsPages calls ∧ (runAll answer calls start).2.content.length = 1024 ∧
      (runAll answer calls start).2.readPage 2 256 = .ok (filled 7) ∧
      (runAll answer calls start).2.readPage 4 256 = .error (.pageNotFound 4) := by
  intro content calls
  have hprovides : Entry.Provides (.regular content) content := .inl rfl
  have hpageSize : checkPageSize 256 = .ok () := rfl
  have hopen : openOrCreate "torn" (.regular content) 256 =
      .ok { content := content.setLength 512, pageSize := 256 } := by
    have htorn : content.length % 256 ≠ 0 := by decide
    have hwhole : (content.length / 256 + 1) * 256 = 512 := by decide
    have hroom : ¬maxFileLength < 512 := by decide
    rw [openOrCreate, hpageSize]
    simp only [bind, Except.bind, hwhole]
    rw [if_neg htorn, if_neg hroom]
    rfl
  refine ⟨hpageSize, hprovides, ?_⟩
  obtain ⟨-, h⟩ := page_files_lose_no_pages "torn" hprovides hpageSize
  obtain ⟨start, hstart, -, hlength, -, hruns⟩ := h (.inr (by decide))
  obtain rfl := Except.ok.inj (hopen.symm.trans hstart)
  have hcounts : ({ content := content.setLength 512, pageSize := 256 } : PageFile).CountsPages calls :=
    countsPages_cons.2 ⟨nofun, countsPages_cons.2 ⟨fun _ => by decide +kernel, countsPages_nil⟩⟩
  obtain ⟨-, -, hreads, -⟩ := hruns calls hcounts
  have hpages : (runAll answer calls { content := content.setLength 512, pageSize := 256 }).2.pages = 4 := by
    decide +kernel
  have hlast : lastWritten 256 2 calls = some (filled 7) := by
    simp [calls, lastWritten, PageCall.written?]
  have hfound := hreads 2
  rw [hpages, if_pos (by decide), hlast] at hfound
  have hmissing := hreads 4
  rw [hpages, if_neg (by decide)] at hmissing
  exact ⟨_, hopen, rfl, hcounts, by decide +kernel, hfound, hmissing⟩

/-- A file of 2^32 pages has no number left for one more: the page is given number 0, and the file ends behind it. -/
theorem allocation_cuts_file :
    let start : PageFile := { content := .empty, pageSize := 256 }
    let full := (runAll answer [.write 1 (filled 7), .write (2 ^ 32 - 1) (filled 8)] start).2
    openOrCreate "pages" .missing 256 = .ok start ∧ full.content.length = 2 ^ 40 ∧
      full.readPage 1 256 = .ok (filled 7) ∧ full.allocatePage.1 = 0 ∧ full.allocatePage.2.content.length = 256 ∧
      full.allocatePage.2.readPage 1 256 = .error (.pageNotFound 1) := by
  intro start full
  have hcounts : start.CountsPages [.write 1 (filled 7), .write (2 ^ 32 - 1) (filled 8)] :=
    countsPages_cons.2 ⟨nofun, countsPages_cons.2 ⟨nofun, countsPages_nil⟩⟩
  have hpos : 0 < start.pageSize := Nat.zero_lt_succ 255
  have hpages : 1 < full.pages := by decide +kernel
  have hlast : lastWritten 256 1 [.write 1 (filled 7), .write (2 ^ 32 - 1) (filled 8)] = some (filled 7) := by
    simp [lastWritten, PageCall.written?]
  have hread : full.readPage 1 256 = _ := (runAll_ran hpos rfl hcounts).readPage hpos 1
  rw [if_pos hpages, hlast] at hread
  exact ⟨rfl, by decide +kernel, hread, by decide +kernel, by decide +kernel, by decide +kernel⟩

end PageFile

end RecordStore
