import RecordStore.Cache.Guards
import RecordStore.Disk.SparseFile.Lemmas
import RecordStore.Proofs.EvictionOrder

/-!
# The page cache as bytes

What a page cache holds is a byte for every position: that of the frame of its page, or that of the file if no frame
holds the page (`PageCache.byteAt`).  The guards on its pages account for all pins, and the frames that nobody pins wait
for eviction (`PageCache.Sound`).  So there is a frame to take unless every frame is pinned, and taking it changes none
of these bytes (`acquireFrame_keeps`).  The file lags behind: every page of it stays as it was or is brought up to date
(`PageCache.Refreshes`).
-/

namespace RecordStore

open Bytes

/-! ### Pages of a file -/

namespace PageFile

variable {file : PageFile} {page : Nat}

/-- The page lies inside the file. -/
def HasPage (file : PageFile) (page : Nat) : Prop := (page + 1) * file.pageSize ≤ file.content.length

/-- How many pages the file has, however many they are. -/
def pages (file : PageFile) : Nat := file.content.length / file.pageSize

theorem hasPage_iff (hpos : 0 < file.pageSize) : file.HasPage page ↔ page < file.pages := by
  unfold HasPage pages
  rw [← Nat.succ_le_iff, Nat.le_div_iff_mul_le hpos]

theorem div_eq_iff (hpos : 0 < file.pageSize) {i : Nat} :
    i / file.pageSize = page ↔ page * file.pageSize ≤ i ∧ i < page * file.pageSize + file.pageSize := by
  rw [Nat.div_eq_iff hpos]
  omega

theorem HasPage.lt (h : file.HasPage page) (hpos : 0 < file.pageSize) {i : Nat} (hi : i / file.pageSize = page) :
    i < file.content.length := by
  have hrange := (div_eq_iff hpos).1 hi
  unfold HasPage at h
  rw [Nat.add_mul, Nat.one_mul] at h
  omega

theorem exists_readPage (hpos : 0 < file.pageSize) (h : file.HasPage page) :
    ∃ data, file.readPage page file.pageSize = .ok data ∧ data.size = file.pageSize ∧
      ∀ i, i / file.pageSize = page → byte data (i % file.pageSize) = file.content.byteAt i := by
  have hstart : PageNumber.start page file.pageSize = page * file.pageSize := rfl
  have hlength := h
  unfold HasPage at hlength
  rw [Nat.add_mul, Nat.one_mul] at hlength
  refine ⟨file.content.read (page * file.pageSize) file.pageSize, ?_, ?_, fun i hi => ?_⟩
  · unfold readPage checkBuffer
    rw [if_pos rfl, hstart]
    dsimp only
    rw [if_neg (by omega), if_neg (by omega)]
    rfl
  · rw [SparseFile.size_read]
    omega
  · have hmod := Nat.mod_lt i hpos
    rw [SparseFile.byte_read (by omega), ← hi, Nat.div_add_mod']

/-- Writing a page changes no byte outside it; the file reaches to the end of the page at least. -/
theorem exists_written (hpos : 0 < file.pageSize) (page : Nat) {data : ByteArray} (hsize : data.size = file.pageSize) :
    ∃ content, file.writePage page data = .ok { file with content } ∧
      content.length = max file.content.length ((page + 1) * file.pageSize) ∧
      ∀ i, content.byteAt i =
        if i / file.pageSize = page then byte data (i % file.pageSize) else file.content.byteAt i := by
  have hne : data.size ≠ 0 := by omega
  refine ⟨file.content.write (page * file.pageSize) data, ?_, ?_, fun i => ?_⟩
  · unfold writePage checkBuffer
    rw [if_pos hsize]
    rfl
  · rw [SparseFile.length_write _ _ hne, hsize, Nat.add_mul, Nat.one_mul]
  · rw [SparseFile.byteAt_write _ _ hne, hsize]
    by_cases hi : i / file.pageSize = page
    · have hrange := (div_eq_iff hpos).1 hi
      have hmod := Nat.div_add_mod' i file.pageSize
      rw [if_pos hrange, if_pos hi]
      congr 1
      rw [hi] at hmod
      omega
    · rw [if_neg (mt (div_eq_iff hpos).2 hi), if_neg hi]

theorem exists_writePage (hpos : 0 < file.pageSize) (h : file.HasPage page) {data : ByteArray}
    (hsize : data.size = file.pageSize) :
    ∃ content, file.writePage page data = .ok { file with content } ∧ content.length = file.content.length ∧
      ∀ i, content.byteAt i =
        if i / file.pageSize = page then byte data (i % file.pageSize) else file.content.byteAt i := by
  obtain ⟨content, hwrite, hlength, hbytes⟩ := exists_written hpos page hsize
  exact ⟨content, hwrite, hlength.trans (Nat.max_eq_left h), hbytes⟩

end PageFile

/-! ### What a cache holds -/

/-- How often the guards pin a frame. -/
def pinsOn (guards : List Guard) (index : FrameIndex) : Nat := guards.countP (·.frame = index)

/-- One of the guards may write to the frame. -/
def Locked (guards : List Guard) (index : FrameIndex) : Prop :=
  ∃ guard ∈ guards, guard.frame = index ∧ guard.mode = .exclusive

theorem pinsOn_pos {guards : List Guard} {guard : Guard} (h : guard ∈ guards) : 0 < pinsOn guards guard.frame :=
  List.countP_pos_iff.2 ⟨guard, h, decide_eq_true rfl⟩

theorem Locked.pinned {guards : List Guard} {index : Nat} (h : Locked guards index) : 0 < pinsOn guards index := by
  obtain ⟨guard, hguard, rfl, -⟩ := h
  exact pinsOn_pos hguard

/-- The frame holds a page of the file, the same bytes if it is clean and not `locked` by somebody who may write. -/
structure Frame.Fits (frame : Frame) (file : PageFile) (locked : Prop) : Prop where
  size : frame.data.size = file.pageSize
  inside : ∀ page : Nat, frame.page = some page → file.HasPage page
  clean : frame.dirty = false → ¬locked → ∀ page : Nat, frame.page = some page → ∀ i, i / file.pageSize = page →
    file.content.byteAt i = byte frame.data (i % file.pageSize)

theorem Frame.fits_blank (file : PageFile) (locked : Prop) : (blank file.pageSize).Fits file locked :=
  ⟨size_zeros _, nofun, nofun⟩

theorem Frame.Fits.mono {frame : Frame} {file : PageFile} {locked locked' : Prop} (h : frame.Fits file locked)
    (himp : locked → locked') : frame.Fits file locked' :=
  ⟨h.size, h.inside, fun hdirty hlocked => h.clean hdirty (mt himp hlocked)⟩

/-- The frame once its page is written back. -/
def Frame.cleaned (frame : Frame) : Frame := { frame with dirty := frame.dirty && frame.page.isNone }

theorem Frame.dirty_cleaned {frame : Frame} (hpage : frame.cleaned.page ≠ none) : frame.cleaned.dirty = false := by
  unfold Frame.cleaned at hpage ⊢
  cases hheld : frame.page with
  | none => exact absurd hheld hpage
  | some page => simp

namespace PageCache

/-- A cache with all guards on its pages.  Every frame that nobody pins waits for eviction, but for the frame `taken`
out of the queue to be filled. -/
structure Sound (cache : PageCache) (taken : Option FrameIndex) (guards : List Guard) : Prop where
  pos : 0 < cache.pageSize
  pages : cache.file.content.length % cache.pageSize = 0
  room : 0 < cache.maxFrames
  capacity : cache.maxFrames ≤ cache.queue.capacity
  bounded : cache.frames.size ≤ cache.maxFrames
  queue : cache.queue.WellFormed
  waiting : ∀ index : Nat, index ∈ cache.queue.order ↔
    index < cache.frames.size ∧ taken ≠ some index ∧ pinsOn guards index = 0
  table : ∀ (page index : Nat), cache.table[page]? = some index ↔
    ∃ frame : Frame, cache.frames[index]? = some frame ∧ frame.page = some page
  frame : ∀ (index : Nat) (frame : Frame), cache.frames[index]? = some frame →
    frame.Fits cache.file (Locked guards index) ∧ frame.pins = pinsOn guards index
  guarded : ∀ guard ∈ guards, cache.table[guard.page]? = some guard.frame

/-- No frame is left to take. -/
def Full (cache : PageCache) : Prop :=
  cache.frames.size = cache.maxFrames ∧
    ∀ (index : Nat) (frame : Frame), cache.frames[index]? = some frame → 0 < frame.pins

/-- The byte at `i`. -/
def byteAt (cache : PageCache) (i : Nat) : UInt8 :=
  match cache.table[i / cache.pageSize]? with
  | some index => byte (cache.frameData index) (i % cache.pageSize)
  | none => cache.file.content.byteAt i

/-- The cache holds the same bytes as before, and every page of the file is as it was or as the cache holds it. -/
structure Refreshes (cache cache' : PageCache) : Prop where
  pageSize : cache'.pageSize = cache.pageSize
  maxFrames : cache'.maxFrames = cache.maxFrames
  byteAt : ∀ i, cache'.byteAt i = cache.byteAt i
  onDisk : ∀ page : Nat,
    (∀ i, i / cache.pageSize = page → cache'.file.content.byteAt i = cache.file.content.byteAt i) ∨
      ∀ i, i / cache.pageSize = page → cache'.file.content.byteAt i = cache.byteAt i

/-- The file has become no longer either. -/
structure Keeps (cache cache' : PageCache) : Prop extends Refreshes cache cache' where
  length : cache'.file.content.length = cache.file.content.length

theorem Refreshes.trans {cache₁ cache₂ cache₃ : PageCache} (h : Refreshes cache₁ cache₂)
    (h' : Refreshes cache₂ cache₃) : Refreshes cache₁ cache₃ where
  pageSize := h'.pageSize.trans h.pageSize
  maxFrames := h'.maxFrames.trans h.maxFrames
  byteAt i := (h'.byteAt i).trans (h.byteAt i)
  onDisk page := by
    have hlater := h'.onDisk page
    rw [h.pageSize] at hlater
    rcases hlater with hlater | hlater
    · rcases h.onDisk page with hearlier | hearlier
      · exact .inl fun i hi => (hlater i hi).trans (hearlier i hi)
      · exact .inr fun i hi => (hlater i hi).trans (hearlier i hi)
    · exact .inr fun i hi => (hlater i hi).trans (h.byteAt i)

theorem Keeps.of_file_eq {cache cache' : PageCache} (hfile : cache'.file = cache.file)
    (hmaxFrames : cache'.maxFrames = cache.maxFrames) (hbyteAt : ∀ i, cache'.byteAt i = cache.byteAt i) :
    Keeps cache cache' where
  pageSize := by
    unfold PageCache.pageSize
    rw [hfile]
  maxFrames := hmaxFrames
  byteAt := hbyteAt
  onDisk page := .inl fun i _ => by rw [hfile]
  length := by rw [hfile]

theorem Keeps.refl (cache : PageCache) : Keeps cache cache := .of_file_eq rfl rfl fun _ => rfl

theorem Keeps.trans {cache₁ cache₂ cache₃ : PageCache} (h : Keeps cache₁ cache₂) (h' : Keeps cache₂ cache₃) :
    Keeps cache₁ cache₃ where
  toRefreshes := h.toRefreshes.trans h'.toRefreshes
  length := h'.length.trans h.length

variable {cache : PageCache} {taken : Option FrameIndex} {guards : List Guard} {index page : Nat}

theorem byteAt_of_frame (h : cache.Sound taken guards) {frame : Frame} (hframe : cache.frames[index]? = some frame)
    (hpage : frame.page = some page) {i : Nat} (hi : i / cache.pageSize = page) :
    cache.byteAt i = byte frame.data (i % cache.pageSize) := by
  have htable := (h.table page index).2 ⟨frame, hframe, hpage⟩
  unfold byteAt frameData
  rw [hi, htable]
  dsimp only
  rw [hframe]

/-- No byte behind the end of the file is anything but zero. -/
theorem byteAt_of_length_le (h : cache.Sound taken guards) {i : Nat} (hi : cache.file.content.length ≤ i) :
    cache.byteAt i = 0 := by
  unfold byteAt
  cases htable : cache.table[i / cache.pageSize]? with
  | none =>
    unfold SparseFile.byteAt
    exact if_neg (by omega)
  | some index =>
    obtain ⟨frame, hframe, hpage⟩ := (h.table _ _).1 htable
    have hlt := ((h.frame _ _ hframe).1.inside _ hpage).lt h.pos rfl
    omega

theorem getElem?_modifyFrame (cache : PageCache) (index : Nat) (f : Frame → Frame) (i : Nat) :
    (cache.modifyFrame index f).frames[i]? =
      if index = i then (cache.frames[i]?).map f else cache.frames[i]? := by
  unfold modifyFrame
  dsimp only
  rw [Array.getElem?_modify]

@[simp] theorem size_modifyFrame (cache : PageCache) (index : Nat) (f : Frame → Frame) :
    (cache.modifyFrame index f).frames.size = cache.frames.size := Array.size_modify

theorem frameData_modifyFrame (cache : PageCache) (index : Nat) {f : Frame → Frame}
    (hdata : ∀ frame, cache.frames[index]? = some frame → (f frame).data = frame.data) (i : Nat) :
    (cache.modifyFrame index f).frameData i = cache.frameData i := by
  unfold frameData
  rw [getElem?_modifyFrame]
  by_cases hi : index = i
  · subst hi
    rw [if_pos rfl]
    cases hframe : cache.frames[index]? with
    | none => rfl
    | some frame => exact hdata frame hframe
  · rw [if_neg hi]

/-- The bytes stay the same if the resident pages do, and the file where no frame holds its page. -/
theorem byteAt_congr {cache' : PageCache} (hpageSize : cache'.pageSize = cache.pageSize)
    (htable : cache'.table = cache.table) (hdata : ∀ i, cache'.frameData i = cache.frameData i)
    (hfile : ∀ i, cache.table[i / cache.pageSize]? = none →
      cache'.file.content.byteAt i = cache.file.content.byteAt i) (i : Nat) : cache'.byteAt i = cache.byteAt i := by
  unfold byteAt
  rw [hpageSize, htable]
  cases hresident : cache.table[i / cache.pageSize]? with
  | none => exact hfile i hresident
  | some index =>
    dsimp only
    rw [hdata]

/-- The order of the guards does not matter. -/
theorem Sound.perm (h : cache.Sound taken guards) {guards' : List Guard} (hperm : guards.Perm guards') :
    cache.Sound taken guards' := by
  have hpins : ∀ i, pinsOn guards' i = pinsOn guards i := fun i => (hperm.countP_eq _).symm
  have hlocked : ∀ i, Locked guards i → Locked guards' i := by
    rintro i ⟨guard, hguard, hheld⟩
    exact ⟨guard, hperm.mem_iff.1 hguard, hheld⟩
  refine { h with waiting := fun i => ?_, frame := fun i frame heq => ?_, guarded := fun guard hguard => ?_ }
  · rw [hpins]
    exact h.waiting i
  · obtain ⟨hfits, hpinned⟩ := h.frame i frame heq
    exact ⟨hfits.mono (hlocked i), hpinned.trans (hpins i).symm⟩
  · exact h.guarded guard (hperm.mem_iff.2 hguard)

/-- Nobody guards a frame without a page. -/
theorem Sound.pinsOn_eq_zero (h : cache.Sound taken guards) {frame : Frame} (hframe : cache.frames[index]? = some frame)
    (hpage : frame.page = none) : pinsOn guards index = 0 := by
  apply List.countP_eq_zero.2
  intro guard hguard heq
  obtain ⟨frame', hframe', hpage'⟩ := (h.table _ _).1 (h.guarded guard hguard)
  rw [of_decide_eq_true heq] at hframe'
  obtain rfl := Option.some.inj (hframe.symm.trans hframe')
  rw [hpage] at hpage'
  cases hpage'

/-- A frame changed that goes on holding its page. -/
theorem Sound.modifyFrame (h : cache.Sound taken guards) {f : Frame → Frame}
    (hpage : ∀ frame, cache.frames[index]? = some frame → (f frame).page = frame.page)
    {taken' : Option FrameIndex} {guards' : List Guard} {queue : EvictionQueue} (hqueue : queue.WellFormed)
    (hcapacity : queue.capacity = cache.queue.capacity)
    (hwaiting : ∀ i, i ∈ queue.order ↔ i < cache.frames.size ∧ taken' ≠ some i ∧ pinsOn guards' i = 0)
    (hframe : ∀ frame, cache.frames[index]? = some frame →
      (f frame).Fits cache.file (Locked guards' index) ∧ (f frame).pins = pinsOn guards' index)
    (hothers : ∀ i, i ≠ index → pinsOn guards' i = pinsOn guards i ∧ (Locked guards i → Locked guards' i))
    (hguarded : ∀ guard ∈ guards', cache.table[guard.page]? = some guard.frame) :
    Sound { cache.modifyFrame index f with queue } taken' guards' where
  pos := h.pos
  pages := h.pages
  room := h.room
  capacity := hcapacity.symm ▸ h.capacity
  bounded := by
    rw [size_modifyFrame]
    exact h.bounded
  queue := hqueue
  waiting i := by
    rw [size_modifyFrame]
    exact hwaiting i
  table page i := by
    rw [getElem?_modifyFrame]
    refine (h.table page i).trans ?_
    -- the frame that is modified holds the page that it held
    by_cases hi : index = i
    · subst hi
      rw [if_pos rfl]
      constructor
      · rintro ⟨frame, heq, hheld⟩
        exact ⟨f frame, by rw [heq]; rfl, (hpage frame heq).trans hheld⟩
      · rintro ⟨frame', heq, hheld⟩
        obtain ⟨frame, hsome, rfl⟩ := Option.map_eq_some_iff.1 heq
        exact ⟨frame, hsome, (hpage frame hsome).symm.trans hheld⟩
    · rw [if_neg hi]
  frame i frame' heq := by
    rw [getElem?_modifyFrame] at heq
    by_cases hi : index = i
    · subst hi
      rw [if_pos rfl] at heq
      obtain ⟨frame, hsome, rfl⟩ := Option.map_eq_some_iff.1 heq
      exact hframe frame hsome
    · rw [if_neg hi] at heq
      obtain ⟨hfits, hpins⟩ := h.frame i frame' heq
      obtain ⟨hsame, hlocked⟩ := hothers i (Ne.symm hi)
      exact ⟨hfits.mono hlocked, hpins.trans hsame.symm⟩
  guarded := hguarded

/-- There is a place in the queue for every frame. -/
theorem Sound.mem_join (h : cache.Sound taken guards) (hindex : index < cache.frames.size) (i : Nat) :
    i ∈ (cache.queue.join index).order ↔ i = index ∨ i ∈ cache.queue.order :=
  h.queue.mem_order_join (fun other hother => ((h.waiting other).1 hother).1) (Nat.le_trans h.bounded h.capacity)
    hindex i

/-! ### Writing pages back -/

/-- What is written back depends on the frame. -/
private theorem writeBack_eq (cache : PageCache) (index : Nat) : writeBack index cache =
    (match cache.frames[index]? with
      | some { page := some page, data, dirty := true, .. } => do
        let file ← liftExcept (cache.file.writePage page data)
        set ({ cache with file }.modifyFrame index fun frame => { frame with dirty := false })
      | _ => pure () : CacheM Unit) cache := rfl

/-- The file as it is once a page of it takes on the bytes of a frame. -/
private structure Stores (cache : PageCache) (page : Nat) (frame : Frame) (content : SparseFile) : Prop where
  length : content.length = cache.file.content.length
  byteAt : ∀ i, content.byteAt i =
    if i / cache.pageSize = page then byte frame.data (i % cache.pageSize) else cache.file.content.byteAt i

private theorem writeBack_apply (h : cache.Sound taken guards) (index : Nat) :
    (writeBack index cache = (.ok (), cache) ∧ ∀ frame, cache.frames[index]? = some frame → frame.cleaned = frame) ∨
      ∃ (frame : Frame) (page : Nat) (content : SparseFile), cache.frames[index]? = some frame ∧
        frame.page = some page ∧ cache.Stores page frame content ∧ writeBack index cache =
          (.ok (), { cache with file := { cache.file with content } }.modifyFrame index Frame.cleaned) := by
  -- only a dirty page is written, and cleaning changes no other frame
  rcases hframe : cache.frames[index]? with _ | ⟨_ | page, data, pins, dirty⟩
  · refine .inl ⟨?_, nofun⟩
    rw [writeBack_eq, hframe]
    rfl
  · refine .inl ⟨?_, ?_⟩
    · rw [writeBack_eq, hframe]
      rfl
    · rintro _ ⟨⟩
      cases dirty <;> rfl
  · cases dirty with
    | false =>
      refine .inl ⟨?_, ?_⟩
      · rw [writeBack_eq, hframe]
        rfl
      · rintro _ ⟨⟩
        rfl
    | true =>
      obtain ⟨hfits, -⟩ := h.frame _ _ hframe
      obtain ⟨content, hwrite, hlength, hbytes⟩ :=
        PageFile.exists_writePage h.pos (hfits.inside page rfl) hfits.size
      refine .inr ⟨_, page, content, rfl, rfl, ⟨hlength, hbytes⟩, ?_⟩
      rw [writeBack_eq, hframe]
      dsimp only
      rw [bind_apply, hwrite]
      change (Except.ok (), PageCache.modifyFrame _ index _) = (Except.ok (), PageCache.modifyFrame _ index _)
      unfold modifyFrame
      congr 2
      apply Array.ext_getElem?
      intro i
      rw [Array.getElem?_modify, Array.getElem?_modify]
      by_cases hi : index = i
      · subst hi
        rw [if_pos rfl, if_pos rfl, hframe]
        rfl
      · rw [if_neg hi, if_neg hi]

namespace Stores

variable {frame : Frame} {content : SparseFile}

/-- A frame still fits the file, if it holds another page or the same bytes. -/
private theorem fits (hstores : cache.Stores page frame content) {other : Frame} {locked : Prop}
    (hother : other.Fits cache.file locked) (hdata : other.page = some page → other.data = frame.data) :
    other.Fits { cache.file with content } locked where
  size := hother.size
  inside held hheld := by
    change (held + 1) * cache.file.pageSize ≤ content.length
    rw [hstores.length]
    exact hother.inside held hheld
  clean hclean hlocked held hheld i hi := by
    change content.byteAt i = byte other.data (i % cache.pageSize)
    rw [hstores.byteAt]
    by_cases hsame : i / cache.pageSize = page
    · have hheld' : other.page = some page := by
        rw [hheld, ← hsame]
        exact congrArg some hi.symm
      rw [if_pos hsame, hdata hheld']
    · rw [if_neg hsame]
      exact hother.clean hclean hlocked held hheld i hi

/-- No other frame holds the page. -/
private theorem sound (hstores : cache.Stores page frame content) (h : cache.Sound taken guards)
    (hframe : cache.frames[index]? = some frame) (hpage : frame.page = some page) :
    Sound { cache with file := { cache.file with content } } taken guards :=
  { h with
    pages := by
      change content.length % cache.pageSize = 0
      rw [hstores.length]
      exact h.pages
    frame := fun i other heq => by
      refine ⟨hstores.fits (h.frame i other heq).1 fun hheld => ?_, (h.frame i other heq).2⟩
      have hresident := (h.table page index).2 ⟨frame, hframe, hpage⟩
      have hi := (h.table page i).2 ⟨other, heq, hheld⟩
      obtain rfl := Option.some.inj (hresident.symm.trans hi)
      rw [Option.some.inj (hframe.symm.trans heq)] }

/-- The frame is clean then. -/
private theorem sound_cleaned (hstores : cache.Stores page frame content) (h : cache.Sound taken guards)
    (hframe : cache.frames[index]? = some frame) (hpage : frame.page = some page) :
    ({ cache with file := { cache.file with content } }.modifyFrame index Frame.cleaned).Sound taken guards := by
  have hsound := hstores.sound h hframe hpage
  refine hsound.modifyFrame (f := Frame.cleaned) (fun _ _ => rfl) h.queue rfl h.waiting (fun other heq => ?_)
    (fun _ _ => ⟨rfl, id⟩) h.guarded
  obtain ⟨hother, hpins⟩ := hsound.frame index other heq
  refine ⟨⟨hother.size, hother.inside, fun _ _ held hheld i hi => ?_⟩, hpins⟩
  obtain rfl := Option.some.inj (hframe.symm.trans heq)
  obtain rfl := Option.some.inj (hpage.symm.trans hheld)
  exact (hstores.byteAt i).trans (if_pos hi)

private theorem keeps_cleaned (hstores : cache.Stores page frame content) (h : cache.Sound taken guards)
    (hframe : cache.frames[index]? = some frame) (hpage : frame.page = some page) :
    Keeps cache ({ cache with file := { cache.file with content } }.modifyFrame index Frame.cleaned) where
  pageSize := rfl
  maxFrames := rfl
  byteAt := by
    have hresident := (h.table page index).2 ⟨frame, hframe, hpage⟩
    refine byteAt_congr rfl rfl (fun i => ?_) fun i hnone => ?_
    · exact frameData_modifyFrame (f := Frame.cleaned) { cache with file := { cache.file with content } } index
        (fun _ _ => rfl) i
    · refine (hstores.byteAt i).trans (if_neg fun hi => ?_)
      rw [hi, hresident] at hnone
      cases hnone
  onDisk other := by
    by_cases hother : other = page
    · refine .inr fun i hi => ?_
      rw [byteAt_of_frame h hframe hpage (hi.trans hother)]
      exact (hstores.byteAt i).trans (if_pos (hi.trans hother))
    · exact .inl fun i hi => (hstores.byteAt i).trans (if_neg fun heq => hother (hi.symm.trans heq))
  length := hstores.length

end Stores

/-- Writing a page back brings the file up to date there and changes nothing else. -/
theorem writeBack_keeps (h : cache.Sound taken guards) (index : Nat) : ∃ cache',
    writeBack index cache = (.ok (), cache') ∧ cache'.Sound taken guards ∧ Keeps cache cache' ∧
      cache'.queue = cache.queue ∧ cache'.table = cache.table ∧
      ∀ i, cache'.frames[i]? = if index = i then (cache.frames[i]?).map Frame.cleaned else cache.frames[i]? := by
  rcases writeBack_apply h index with ⟨happly, hcleaned⟩ | ⟨frame, page, content, hframe, hpage, hstores, happly⟩
  · refine ⟨cache, happly, h, .refl _, rfl, rfl, fun i => ?_⟩
    by_cases hi : index = i
    · rw [if_pos hi, ← hi]
      cases hframe : cache.frames[index]? with
      | none => rfl
      | some frame => exact congrArg some (hcleaned frame hframe).symm
    · rw [if_neg hi]
  · exact ⟨_, happly, hstores.sound_cleaned h hframe hpage, hstores.keeps_cleaned h hframe hpage, rfl, rfl,
      fun i => getElem?_modifyFrame ..⟩

/-! ### Taking a frame -/

/-- The cache with a frame emptied. -/
private def vacate (cache : PageCache) (index : Nat) : PageCache :=
  { cache with
    table := match cache.frames[index]?.bind (·.page) with
      | some page => cache.table.erase page
      | none => cache.table }.modifyFrame index fun _ => .blank cache.pageSize

private theorem getElem?_vacate (cache : PageCache) (index i : Nat) : (cache.vacate index).frames[i]? =
    if index = i then (cache.frames[i]?).map fun _ => .blank cache.pageSize else cache.frames[i]? :=
  getElem?_modifyFrame ..

/-- The table without the page of the frame. -/
private theorem table_vacate {frame : Frame} (hframe : cache.frames[index]? = some frame) (page : Nat) :
    (cache.vacate index).table[page]? = if frame.page = some page then none else cache.table[page]? := by
  unfold vacate modifyFrame
  dsimp only
  rw [hframe]
  change (match frame.page with | some _ => _ | none => _ : Std.TreeMap Nat Nat)[page]? = _
  cases hpage : frame.page with
  | none => simp
  | some held => simp [getElem?_erase_treeMap]

/-- A frame that nobody guards is emptied. -/
private theorem Sound.vacate (h : cache.Sound (some index) guards) {frame : Frame}
    (hframe : cache.frames[index]? = some frame) (hpins : pinsOn guards index = 0) :
    (cache.vacate index).Sound (some index) guards := by
  have hfree : ∀ {other : Frame}, (cache.frames[index]?).map (fun _ => Frame.blank cache.pageSize) = some other →
      other = .blank cache.pageSize := fun heq => by
    rw [hframe] at heq
    exact (Option.some.inj heq).symm
  have hsize : (cache.vacate index).frames.size = cache.frames.size := size_modifyFrame ..
  refine ⟨h.pos, h.pages, h.room, h.capacity, hsize.symm ▸ h.bounded, h.queue, fun i => hsize.symm ▸ h.waiting i,
    fun page i => ?_, fun i other hother => ?_, fun guard hguard => ?_⟩
  · rw [table_vacate hframe, getElem?_vacate]
    by_cases hi : index = i
    · -- the frame holds no page any more, and no other one held its page
      subst hi
      rw [if_pos rfl]
      have hblank : ¬∃ other, (cache.frames[index]?).map (fun _ => Frame.blank cache.pageSize) = some other ∧
          other.page = some page := by
        rintro ⟨other, hother, hheld⟩
        rw [hfree hother] at hheld
        cases hheld
      refine iff_of_false (fun hresident => ?_) hblank
      by_cases hpage : frame.page = some page
      · rw [if_pos hpage] at hresident
        cases hresident
      · rw [if_neg hpage, h.table] at hresident
        obtain ⟨other, hother, hheld⟩ := hresident
        obtain rfl := Option.some.inj (hframe.symm.trans hother)
        exact hpage hheld
    · rw [if_neg hi]
      by_cases hpage : frame.page = some page
      · rw [if_pos hpage]
        refine iff_of_false nofun fun hother => hi ?_
        have hresident := (h.table page index).2 ⟨frame, hframe, hpage⟩
        exact Option.some.inj (hresident.symm.trans ((h.table page i).2 hother))
      · rw [if_neg hpage, h.table]
  · rw [getElem?_vacate] at hother
    by_cases hi : index = i
    · subst hi
      rw [if_pos rfl] at hother
      rw [hfree hother]
      exact ⟨Frame.fits_blank cache.file _, hpins.symm⟩
    · rw [if_neg hi] at hother
      exact h.frame i other hother
  · have hresident := h.guarded guard hguard
    rw [table_vacate hframe, if_neg, hresident]
    intro hpage
    have hindex := (h.table guard.page index).2 ⟨frame, hframe, hpage⟩
    obtain rfl := Option.some.inj (hresident.symm.trans hindex)
    exact Nat.ne_of_gt (pinsOn_pos hguard) hpins

/-- If the frame is clean and nobody guards it, the file holds the bytes that it held. -/
private theorem byteAt_vacate (h : cache.Sound taken guards) {frame : Frame}
    (hframe : cache.frames[index]? = some frame) (hpins : pinsOn guards index = 0) (hclean : frame.page ≠ none → frame.dirty = false) (i : Nat) :
    (cache.vacate index).byteAt i = cache.byteAt i := by
  change (match (cache.vacate index).table[i / cache.pageSize]? with | some _ => _ | none => _) = _
  rw [table_vacate hframe]
  by_cases hpage : frame.page = some (i / cache.pageSize)
  · rw [if_pos hpage, byteAt_of_frame h hframe hpage rfl]
    have hdirty := hclean (by rw [hpage]; nofun)
    have hlocked : ¬Locked guards index := fun hlocked => Nat.ne_of_gt hlocked.pinned hpins
    exact (h.frame _ _ hframe).1.clean hdirty hlocked _ hpage i rfl
  · rw [if_neg hpage]
    unfold byteAt
    cases hresident : cache.table[i / cache.pageSize]? with
    | none => rfl
    | some other =>
      have hne : index ≠ other := by
        rintro rfl
        obtain ⟨held, hheld, hpage'⟩ := (h.table _ _).1 hresident
        obtain rfl := Option.some.inj (hframe.symm.trans hheld)
        exact hpage hpage'
      dsimp only
      unfold frameData
      rw [getElem?_vacate, if_neg hne]
      rfl

/-- A clean frame that nobody guards is emptied, and all bytes are there still. -/
private theorem vacate_keeps (h : cache.Sound (some index) guards) {frame : Frame}
    (hframe : cache.frames[index]? = some frame) (hpins : pinsOn guards index = 0)
    (hclean : frame.page ≠ none → frame.dirty = false) :
    (cache.vacate index).Sound (some index) guards ∧ Keeps cache (cache.vacate index) ∧
      (cache.vacate index).frames[index]? = some (.blank cache.pageSize) ∧
      ∀ page : Nat, cache.table[page]? = none → (cache.vacate index).table[page]? = none := by
  refine ⟨h.vacate hframe hpins, .of_file_eq rfl rfl (byteAt_vacate h hframe hpins hclean), ?_, fun page habsent => ?_⟩
  · rw [getElem?_vacate, if_pos rfl, hframe]
    rfl
  · rw [table_vacate hframe, habsent]
    split <;> rfl

private theorem evict_apply {waiting : Nat} {queue : EvictionQueue} {cache' : PageCache}
    (hvictim : cache.queue.victim? = some (index, queue)) (hpins : cache.frames[index]?.elim 0 (·.pins) = 0)
    (hwrite : writeBack index { cache with queue } = (.ok (), cache')) :
    evict (waiting + 1) cache = (.ok index, cache'.vacate index) := by
  have htry : (tryCatch (writeBack index) fun e => do
      modify fun cache => { cache with queue := cache.queue.join index }
      throw e : CacheM Unit) { cache with queue } = (.ok (), cache') := by
    simp only [tryCatch, tryCatchThe, MonadExceptOf.tryCatch, ExceptT.tryCatch, ExceptT.mk, bind, StateT.bind]
    rw [hwrite]
    rfl
  unfold evict
  rw [get_bind_apply, hvictim]
  dsimp only
  rw [bind_apply]
  change (if 0 < cache.frames[index]?.elim 0 (·.pins) then _ else _ : CacheM FrameIndex) { cache with queue } = _
  rw [hpins, if_neg (Nat.lt_irrefl 0), bind_apply, htry]
  rfl

/-- The cache with one more frame. -/
private def grown (cache : PageCache) : PageCache := { cache with frames := cache.frames.push (.blank cache.pageSize) }

private theorem getElem?_grown (cache : PageCache) (i : Nat) : cache.grown.frames[i]? =
    if i = cache.frames.size then some (.blank cache.pageSize) else cache.frames[i]? := Array.getElem?_push ..

/-- Of a frame that was there before, the same is known. -/
private theorem getElem?_grown_of_eq_some {frame : Frame} {i : Nat} (hframe : cache.frames[i]? = some frame) :
    cache.grown.frames[i]? = some frame := by
  have hlt := (Array.getElem?_eq_some_iff.1 hframe).1
  rw [getElem?_grown, if_neg (by omega), hframe]

/-- The new frame is taken, as it has not joined the queue yet. -/
private theorem Sound.grow (h : cache.Sound none guards) (hgrow : cache.frames.size < cache.maxFrames) :
    cache.grown.Sound (some cache.frames.size) guards := by
  have hcases : ∀ {i : Nat} {frame : Frame}, cache.grown.frames[i]? = some frame →
      i = cache.frames.size ∧ frame = .blank cache.pageSize ∨ cache.frames[i]? = some frame := by
    intro i frame heq
    rw [getElem?_grown] at heq
    by_cases hi : i = cache.frames.size
    · rw [if_pos hi] at heq
      exact .inl ⟨hi, (Option.some.inj heq).symm⟩
    · rw [if_neg hi] at heq
      exact .inr heq
  have hsize : cache.grown.frames.size = cache.frames.size + 1 := Array.size_push ..
  -- guards are for pages in the table, and so for frames that are there already
  have hunused : pinsOn guards cache.frames.size = 0 := by
    apply List.countP_eq_zero.2
    intro guard hguard heq
    obtain ⟨frame, hframe, -⟩ := (h.table _ _).1 (h.guarded guard hguard)
    have hlt := (Array.getElem?_eq_some_iff.1 hframe).1
    exact Nat.ne_of_lt hlt (of_decide_eq_true heq)
  refine ⟨h.pos, h.pages, h.room, h.capacity, hsize ▸ hgrow, h.queue, fun i => ?_, fun page i => ?_,
    fun i frame heq => ?_, h.guarded⟩
  · rw [hsize]
    refine (h.waiting i).trans ?_
    constructor
    · rintro ⟨hlt, -, hpins⟩
      exact ⟨Nat.lt_succ_of_lt hlt, fun heq => Nat.ne_of_gt hlt (Option.some.inj heq), hpins⟩
    · rintro ⟨hlt, hne, hpins⟩
      have hne' : cache.frames.size ≠ i := fun heq => hne (congrArg some heq)
      exact ⟨by omega, nofun, hpins⟩
  · refine (h.table page i).trans ⟨fun ⟨frame, heq, hheld⟩ => ⟨frame, getElem?_grown_of_eq_some heq, hheld⟩, ?_⟩
    rintro ⟨frame, heq, hheld⟩
    rcases hcases heq with ⟨-, rfl⟩ | heq
    · cases hheld
    · exact ⟨frame, heq, hheld⟩
  · rcases hcases heq with ⟨rfl, rfl⟩ | heq
    · exact ⟨Frame.fits_blank cache.file _, hunused.symm⟩
    · exact h.frame i frame heq

private theorem byteAt_grown (h : cache.Sound taken guards) (i : Nat) : cache.grown.byteAt i = cache.byteAt i := by
  unfold byteAt
  change (match cache.table[i / cache.pageSize]? with | some _ => _ | none => _) = _
  cases hresident : cache.table[i / cache.pageSize]? with
  | none => rfl
  | some index =>
    obtain ⟨frame, heq, -⟩ := (h.table _ _).1 hresident
    dsimp only
    unfold frameData
    rw [getElem?_grown_of_eq_some heq, heq]
    rfl

/-- The first frame in the queue is chosen for eviction. -/
private theorem Sound.exists_victim (h : cache.Sound none guards) {rest : List FrameIndex}
    (horder : cache.queue.order = index :: rest) :
    ∃ (queue : EvictionQueue) (frame : Frame), cache.queue.victim? = some (index, queue) ∧
      cache.frames[index]? = some frame ∧ frame.pins = 0 ∧ pinsOn guards index = 0 ∧
        cache.queue.count = rest.length + 1 ∧ Sound { cache with queue } (some index) guards := by
  obtain ⟨queue, hvictim, hwf, hrest, hcapacity⟩ := h.queue.victim?_eq horder
  have hnodup := h.queue.nodup_order
  rw [horder] at hnodup
  obtain ⟨hindex, -, hpins⟩ := (h.waiting index).1 (by rw [horder]; exact List.mem_cons_self)
  have hframe : cache.frames[index]? = some cache.frames[index] := Array.getElem?_eq_getElem hindex
  have hcount : cache.queue.count = rest.length + 1 := by
    rw [h.queue.count_eq, horder]
    rfl
  refine ⟨queue, cache.frames[index], hvictim, hframe, (h.frame index _ hframe).2.trans hpins, hpins, hcount, ?_⟩
  refine { h with capacity := hcapacity.symm ▸ h.capacity, queue := hwf, waiting := fun i => ?_ }
  have hi := h.waiting i
  rw [horder, List.mem_cons] at hi
  rw [hrest]
  constructor
  · intro hmem
    obtain ⟨hlt, -, hunpinned⟩ := hi.1 (.inr hmem)
    refine ⟨hlt, fun heq => ?_, hunpinned⟩
    exact (List.nodup_cons.1 hnodup).1 (Option.some.inj heq ▸ hmem)
  · rintro ⟨hlt, hne, hunpinned⟩
    rcases hi.2 ⟨hlt, nofun, hunpinned⟩ with rfl | hmem
    · exact absurd rfl hne
    · exact hmem

/-- A cache is full if it may not grow and no frame waits for eviction. -/
theorem Sound.full_iff (h : cache.Sound none guards) :
    cache.Full ↔ cache.frames.size = cache.maxFrames ∧ cache.queue.order = [] := by
  unfold Full
  refine and_congr_right fun _ => ⟨fun hpinned => ?_, fun hnil index frame hframe => ?_⟩
  · apply List.eq_nil_iff_forall_not_mem.2
    intro index hmem
    obtain ⟨hlt, -, hpins⟩ := (h.waiting index).1 hmem
    have hframe := Array.getElem?_eq_getElem hlt
    have hpos := hpinned index _ hframe
    rw [(h.frame index _ hframe).2] at hpos
    omega
  · rw [(h.frame index frame hframe).2]
    apply Nat.pos_of_ne_zero
    intro hpins
    have hmem := (h.waiting index).2 ⟨(Array.getElem?_eq_some_iff.1 hframe).1, nofun, hpins⟩
    rw [hnil] at hmem
    cases hmem

/-- Without guards there is always a frame to take. -/
theorem Sound.not_full (h : cache.Sound none []) : ¬cache.Full := by
  rintro ⟨hsize, hpinned⟩
  have hlt : 0 < cache.frames.size := hsize ▸ h.room
  have hframe := Array.getElem?_eq_getElem hlt
  exact Nat.ne_of_gt (hpinned 0 _ hframe) (h.frame 0 _ hframe).2

private theorem acquireFrame_apply (cache : PageCache) : acquireFrame cache =
    (if cache.frames.size < cache.maxFrames then do
      set cache.grown
      return cache.frames.size
    else evict cache.queue.count : CacheM FrameIndex) cache := by
  unfold acquireFrame
  rw [bind_apply]
  rfl

/-- A full cache says so, and nothing happens to it. -/
theorem acquireFrame_full (h : cache.Sound none guards) (hfull : cache.Full) :
    acquireFrame cache = (.error (.cacheFull cache.maxFrames), cache) := by
  obtain ⟨hsize, hnil⟩ := h.full_iff.1 hfull
  rw [acquireFrame_apply, if_neg (by omega), h.queue.count_eq, hnil]
  rfl

/-- An empty frame is there for a cache that is not full. -/
theorem acquireFrame_keeps (h : cache.Sound none guards) (hfree : ¬cache.Full) : ∃ index cache',
    acquireFrame cache = (.ok index, cache') ∧ cache'.Sound (some index) guards ∧ Keeps cache cache' ∧
      cache'.frames[index]? = some (.blank cache'.pageSize) ∧
      ∀ page : Nat, cache.table[page]? = none → cache'.table[page]? = none := by
  by_cases hgrow : cache.frames.size < cache.maxFrames
  · refine ⟨cache.frames.size, cache.grown, ?_, h.grow hgrow, .of_file_eq rfl rfl (byteAt_grown h), ?_,
      fun _ habsent => habsent⟩
    · rw [acquireFrame_apply, if_pos hgrow]
      rfl
    · rw [getElem?_grown, if_pos rfl]
      rfl
  · -- some frame waits, and it is written back and emptied
    have hsize := Nat.le_antisymm h.bounded (Nat.not_lt.1 hgrow)
    obtain ⟨index, rest, horder⟩ : ∃ index rest, cache.queue.order = index :: rest :=
      List.exists_cons_of_ne_nil fun hnil => hfree (h.full_iff.2 ⟨hsize, hnil⟩)
    obtain ⟨queue, frame, hvictim, hframe, hpins, hunguarded, hcount, hsound⟩ := h.exists_victim horder
    obtain ⟨cache', hwrite, hsound', hkeeps, -, htable, hframes⟩ := writeBack_keeps hsound index
    have hframe' : cache'.frames[index]? = some frame.cleaned := by
      rw [hframes, if_pos rfl]
      change (cache.frames[index]?).map Frame.cleaned = _
      rw [hframe]
      rfl
    obtain ⟨hvacant, hkeeps', hblank, habsent⟩ := vacate_keeps hsound' hframe' hunguarded Frame.dirty_cleaned
    have hpins' : cache.frames[index]?.elim 0 (·.pins) = 0 := by
      rw [hframe]
      exact hpins
    refine ⟨index, cache'.vacate index, ?_, hvacant, ?_, hblank, fun page hnone => habsent page ?_⟩
    · rw [acquireFrame_apply, if_neg hgrow, hcount]
      exact evict_apply hvictim hpins' hwrite
    · have hsame : Keeps cache { cache with queue } := .of_file_eq rfl rfl fun _ => rfl
      exact (hsame.trans hkeeps).trans hkeeps'
    · rw [htable]
      exact hnone

end PageCache

end RecordStore
