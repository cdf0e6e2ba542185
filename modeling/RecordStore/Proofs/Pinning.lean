import Mathlib.Algebra.Group.Nat.Defs
import RecordStore.Proofs.Caching
import RecordStore.Proofs.Image

/-!
# Work on cached pages

What the operations of a page cache do to it while any guards are held: a page is pinned if a frame holds it or can be
taken for it (`pin_keeps`, `pin_full`, `pin_missing`), a guard sees the bytes of its page (`Sound.byte_frameData`), and
none of these bytes changes but by `setBytes_keeps`.  A flush brings every page of the file up to date that nobody
writes to (`flush_keeps`).
-/

namespace RecordStore

open Bytes

/-- Where pages are counted in 32 bits, the page that is allocated follows the last one. -/
theorem PageFile.allocatePage_eq {file : PageFile} (h : file.pages < 2 ^ 32) :
    file.allocatePage =
      (file.pages, { file with content := file.content.setLength ((file.pages + 1) * file.pageSize) }) := by
  have hcount : file.pageCount = file.pages := Nat.mod_eq_of_lt h
  unfold PageFile.allocatePage
  rw [hcount]

/-- Nothing is read of a page behind the end of the file. -/
theorem PageFile.readPage_missing {file : PageFile} {page : Nat} (hpages : file.content.length % file.pageSize = 0)
    (hmissing : ¬file.HasPage page) : file.readPage page file.pageSize = .error (.pageNotFound page) := by
  have hle : file.content.length ≤ page * file.pageSize := by
    obtain ⟨count, hcount⟩ := Nat.dvd_of_mod_eq_zero hpages
    unfold PageFile.HasPage at hmissing
    rw [hcount, Nat.mul_comm file.pageSize] at hmissing ⊢
    apply Nat.mul_le_mul_right
    by_contra hlt
    exact hmissing (Nat.mul_le_mul_right _ (by omega))
  have hstart : PageNumber.start page file.pageSize = page * file.pageSize := rfl
  unfold PageFile.readPage PageFile.checkBuffer
  rw [if_pos rfl, hstart]
  dsimp only
  rw [if_pos hle]
  rfl

theorem pinsOn_cons (guard : Guard) (guards : List Guard) (index : Nat) :
    pinsOn (guard :: guards) index = pinsOn guards index + if guard.frame = index then 1 else 0 := by
  unfold pinsOn
  rw [List.countP_cons]
  simp only [decide_eq_true_eq]

theorem pinsOn_cons_of_ne {guard : Guard} {index : Nat} (h : index ≠ guard.frame) (guards : List Guard) :
    pinsOn (guard :: guards) index = pinsOn guards index := by
  rw [pinsOn_cons, if_neg (Ne.symm h), Nat.add_zero]

theorem Locked.cons {guards : List Guard} {index : Nat} (h : Locked guards index) (guard : Guard) :
    Locked (guard :: guards) index := by
  obtain ⟨other, hother, hheld⟩ := h
  exact ⟨other, List.mem_cons_of_mem _ hother, hheld⟩

theorem Locked.of_cons {guard : Guard} {guards : List Guard} {index : Nat} (h : Locked (guard :: guards) index)
    (hne : guard.frame = index → guard.mode ≠ .exclusive) : Locked guards index := by
  obtain ⟨other, hother, hframe, hmode⟩ := h
  rcases List.mem_cons.1 hother with rfl | hother
  · exact absurd hmode (hne hframe)
  · exact ⟨other, hother, hframe, hmode⟩

namespace PageCache

variable {cache : PageCache} {taken : Option FrameIndex} {guards : List Guard} {index page : Nat}

/-! ### The image of a cache -/

/-- The file as it is once all changed pages are written back. -/
def image (cache : PageCache) : Image :=
  { pageSize := cache.pageSize, size := cache.file.content.length, byte := cache.byteAt }

theorem Keeps.image_eq {cache' : PageCache} (h : Keeps cache cache') : cache'.image = cache.image := by
  unfold image
  rw [h.pageSize, h.length, funext h.byteAt]

/-- A page lies in the image if it lies in the file. -/
theorem Sound.hasPage_iff_lt (h : cache.Sound taken guards) :
    cache.file.HasPage page ↔ page * cache.pageSize < cache.image.size := by
  have hpos : 0 < cache.file.pageSize := h.pos
  obtain ⟨count, hcount⟩ := Nat.dvd_of_mod_eq_zero h.pages
  change (page + 1) * cache.file.pageSize ≤ cache.file.content.length ↔
    page * cache.file.pageSize < cache.file.content.length
  have hcount' : cache.file.content.length = count * cache.file.pageSize := hcount.trans (Nat.mul_comm ..)
  rw [hcount', Nat.mul_le_mul_right_iff hpos, Nat.mul_lt_mul_right hpos]
  rfl

/-! ### Pinning a page -/

section

variable {data : ByteArray} (h : cache.Sound (some index) guards)
  (hblank : cache.frames[index]? = some (.blank cache.pageSize))

include hblank

private theorem getElem?_occupy (dirty : Bool) (i : Nat) : (cache.occupy index page data dirty).frames[i]? =
    if index = i then some { page := some page, data, pins := 1, dirty } else cache.frames[i]? := by
  refine (getElem?_modifyFrame cache index _ i).trans ?_
  by_cases hi : index = i
  · rw [if_pos hi, if_pos hi, ← hi, hblank]
    rfl
  · rw [if_neg hi, if_neg hi]

omit hblank in
private theorem table_occupy (dirty : Bool) (other : Nat) : (cache.occupy index page data dirty).table[other]? =
    if page = other then some index else cache.table[other]? := getElem?_insert_treeMap ..

include h

/-- No page stands in an empty frame. -/
private theorem ne_of_resident {other i : Nat} (hresident : cache.table[other]? = some i) : index ≠ i := by
  rintro rfl
  obtain ⟨frame, hframe, hheld⟩ := (h.table _ _).1 hresident
  obtain rfl := Option.some.inj (hblank.symm.trans hframe)
  cases hheld

/-- A page that stood nowhere stands in the frame then, and every other one where it did. -/
private theorem table_occupy_iff (habsent : cache.table[page]? = none) (dirty : Bool) (other i : Nat) :
    (cache.occupy index page data dirty).table[other]? = some i ↔
      ∃ frame, (cache.occupy index page data dirty).frames[i]? = some frame ∧ frame.page = some other := by
  rw [table_occupy, getElem?_occupy hblank]
  by_cases hi : index = i
  · subst hi
    rw [if_pos rfl]
    by_cases hother : page = other
    · rw [if_pos hother]
      exact iff_of_true rfl ⟨_, rfl, congrArg some hother⟩
    · rw [if_neg hother]
      refine iff_of_false (fun hresident => ne_of_resident h hblank hresident rfl) ?_
      rintro ⟨_, ⟨⟩, hheld⟩
      exact hother (Option.some.inj hheld)
  · rw [if_neg hi, ← h.table]
    by_cases hother : page = other
    · rw [if_pos hother, ← hother, habsent]
      exact iff_of_false (fun heq => hi (Option.some.inj heq)) nofun
    · rw [if_neg hother]

/-- A page put into an empty frame as the file holds it, for somebody who pins it. -/
private theorem occupy_sound (habsent : cache.table[page]? = none) (hinside : cache.file.HasPage page)
    (hsize : data.size = cache.pageSize)
    (hdata : ∀ i, i / cache.pageSize = page → byte data (i % cache.pageSize) = cache.file.content.byteAt i)
    (dirty : Bool) (mode : GuardMode) :
    (cache.occupy index page data dirty).Sound none ({ page, frame := index, mode } :: guards) := by
  have hunguarded : pinsOn guards index = 0 := h.pinsOn_eq_zero hblank rfl
  have hframes : (cache.occupy index page data dirty).frames.size = cache.frames.size := size_modifyFrame ..
  have hcapacity : (cache.queue.leave index).capacity = cache.queue.capacity := EvictionQueue.capacity_leave ..
  refine ⟨h.pos, h.pages, h.room, hcapacity.symm ▸ h.capacity, hframes.symm ▸ h.bounded, h.queue.leave, fun i => ?_,
    table_occupy_iff h hblank habsent dirty, fun i frame heq => ?_, fun guard hguard => ?_⟩
  · change i ∈ (cache.queue.leave index).order ↔ _
    rw [h.queue.order_leave, h.queue.nodup_order.mem_erase_iff, h.waiting, hframes]
    by_cases hi : i = index
    · rw [hi, pinsOn_cons, if_pos rfl]
      simp
    · rw [pinsOn_cons_of_ne hi]
      simp [hi, Ne.symm hi]
  · rw [getElem?_occupy hblank] at heq
    by_cases hi : index = i
    · subst hi
      rw [if_pos rfl] at heq
      cases heq
      refine ⟨⟨hsize, ?_, ?_⟩, ?_⟩
      · rintro _ ⟨⟩
        exact hinside
      · rintro - - _ ⟨⟩ j hj
        exact (hdata j hj).symm
      · rw [pinsOn_cons, if_pos rfl, hunguarded]
    · rw [if_neg hi] at heq
      obtain ⟨hfits, hpins⟩ := h.frame i frame heq
      exact ⟨hfits.mono fun hlocked => hlocked.cons _, by rw [pinsOn_cons_of_ne (Ne.symm hi), hpins]⟩
  · rw [table_occupy]
    rcases List.mem_cons.1 hguard with rfl | hguard
    · exact if_pos rfl
    · have hresident := h.guarded guard hguard
      rw [if_neg, hresident]
      rintro rfl
      rw [habsent] at hresident
      cases hresident

private theorem occupy_keeps (habsent : cache.table[page]? = none)
    (hdata : ∀ i, i / cache.pageSize = page → byte data (i % cache.pageSize) = cache.file.content.byteAt i)
    (dirty : Bool) : Keeps cache (cache.occupy index page data dirty) := by
  refine .of_file_eq rfl rfl fun i => ?_
  have hpageSize : (cache.occupy index page data dirty).pageSize = cache.pageSize := rfl
  unfold byteAt
  rw [hpageSize, table_occupy]
  by_cases hi : page = i / cache.pageSize
  · rw [if_pos hi, ← hi, habsent]
    dsimp only
    unfold frameData
    rw [getElem?_occupy hblank, if_pos rfl]
    exact hdata i hi.symm
  · rw [if_neg hi]
    cases hresident : cache.table[i / cache.pageSize]? with
    | none => rfl
    | some other =>
      dsimp only
      unfold frameData
      rw [getElem?_occupy hblank, if_neg (ne_of_resident h hblank hresident)]

/-- A frame that was not filled is given back. -/
private theorem releaseFrame_keeps :
    (cache.releaseFrame index).Sound none guards ∧ Keeps cache (cache.releaseFrame index) := by
  have hsame : ∀ frame, cache.frames[index]? = some frame → frame = .blank cache.pageSize := fun frame hframe =>
    Option.some.inj (hframe.symm.trans hblank)
  have hindex := (Array.getElem?_eq_some_iff.1 hblank).1
  have hunguarded : pinsOn guards index = 0 := h.pinsOn_eq_zero hblank rfl
  constructor
  · refine h.modifyFrame (f := fun _ => .blank cache.pageSize) (fun frame hframe => ?_) h.queue.join
      (EvictionQueue.capacity_join ..) (fun i => ?_) (fun frame _ => ⟨Frame.fits_blank _ _, hunguarded.symm⟩)
      (fun _ _ => ⟨rfl, id⟩) h.guarded
    · rw [hsame frame hframe]
    · rw [h.mem_join hindex, h.waiting]
      by_cases hi : i = index
      · simp [hi, hindex, hunguarded]
      · simp [hi, Ne.symm hi]
  · refine .of_file_eq rfl rfl (byteAt_congr rfl rfl (fun i => ?_) fun _ _ => rfl)
    apply frameData_modifyFrame cache index (f := fun _ => Frame.blank cache.pageSize)
    intro frame hframe
    rw [hsame frame hframe]

end

private theorem pin_of_absent (habsent : cache.table[page]? = none) {index : Nat} {cache' : PageCache}
    (hacquire : acquireFrame cache = (.ok index, cache')) : pin page cache =
    (match cache'.file.readPage page cache'.pageSize with
      | .ok data => (.ok index, cache'.occupy index page data false)
      | .error e => (.error e, cache'.releaseFrame index)) := by
  unfold pin
  rw [get_bind_apply, habsent]
  dsimp only
  rw [bind_apply, hacquire]
  dsimp only
  rw [get_bind_apply]
  cases cache'.file.readPage page cache'.pageSize <;> rfl

/-- The page of a frame is pinned once more. -/
private theorem pin_resident (h : cache.Sound none guards) (hresident : cache.table[page]? = some index)
    (mode : GuardMode) : ∃ cache', pin page cache = (.ok index, cache') ∧
      cache'.Sound none ({ page, frame := index, mode } :: guards) ∧ Keeps cache cache' := by
  obtain ⟨frame, hframe, hheld⟩ := (h.table page index).1 hresident
  refine ⟨{ cache.modifyFrame index fun frame => { frame with pins := frame.pins + 1 } with
    queue := cache.queue.leave index }, ?_, ?_, .of_file_eq rfl rfl ?_⟩
  · unfold pin
    rw [get_bind_apply, hresident]
    rfl
  · refine h.modifyFrame (f := fun frame => { frame with pins := frame.pins + 1 }) (fun _ _ => rfl) h.queue.leave
      (EvictionQueue.capacity_leave ..) (fun i => ?_) (fun other hother => ?_) (fun i hi => ?_) fun guard hguard => ?_
    · rw [h.queue.order_leave, h.queue.nodup_order.mem_erase_iff, h.waiting]
      by_cases hi : i = index
      · rw [hi, pinsOn_cons, if_pos rfl]
        simp
      · rw [pinsOn_cons_of_ne hi]
        simp [hi]
    · obtain ⟨hfits, hpins⟩ := h.frame index other hother
      have hlocked := hfits.mono fun hlocked => Locked.cons hlocked { page, frame := index, mode }
      exact ⟨⟨hlocked.size, hlocked.inside, hlocked.clean⟩, by rw [pinsOn_cons, if_pos rfl, hpins]⟩
    · exact ⟨pinsOn_cons_of_ne hi guards, fun hlocked => hlocked.cons _⟩
    · rcases List.mem_cons.1 hguard with rfl | hguard
      · exact hresident
      · exact h.guarded guard hguard
  · exact byteAt_congr rfl rfl (fun i => frameData_modifyFrame cache index
      (f := fun frame => { frame with pins := frame.pins + 1 }) (fun _ _ => rfl) i) fun _ _ => rfl

/-- Every page of the file can be pinned if a frame holds it or is left for it. -/
theorem pin_keeps (h : cache.Sound none guards) (hinside : cache.file.HasPage page)
    (hfree : cache.table[page]? = none → ¬cache.Full) (mode : GuardMode) :
    ∃ index cache', pin page cache = (.ok index, cache') ∧
      cache'.Sound none ({ page, frame := index, mode } :: guards) ∧ Keeps cache cache' := by
  cases hresident : cache.table[page]? with
  | some index =>
    obtain ⟨cache', happly, hsound, hkeeps⟩ := pin_resident h hresident mode
    exact ⟨index, cache', happly, hsound, hkeeps⟩
  | none =>
    obtain ⟨index, cache', hacquire, hsound, hkeeps, hblank, habsent⟩ := acquireFrame_keeps h (hfree hresident)
    have hpageSize : cache'.file.pageSize = cache.file.pageSize := hkeeps.pageSize
    have hinside' : cache'.file.HasPage page := by
      unfold PageFile.HasPage at hinside ⊢
      rw [hkeeps.length, hpageSize]
      exact hinside
    obtain ⟨data, hread, hsize, hdata⟩ := PageFile.exists_readPage hsound.pos hinside'
    have hsound' := occupy_sound hsound hblank (habsent page hresident) hinside' hsize hdata false mode
    have hkeeps' := occupy_keeps hsound hblank (habsent page hresident) hdata false
    refine ⟨index, cache'.occupy index page data false, ?_, hsound', hkeeps.trans hkeeps'⟩
    change cache'.file.readPage page cache'.pageSize = _ at hread
    rw [pin_of_absent hresident hacquire, hread]

/-- No page is brought into a full cache. -/
theorem pin_full (h : cache.Sound none guards) (hfull : cache.Full) (habsent : cache.table[page]? = none) :
    pin page cache = (.error (.cacheFull cache.maxFrames), cache) := by
  unfold pin
  rw [get_bind_apply, habsent]
  dsimp only
  rw [bind_apply, acquireFrame_full h hfull]

/-- A frame holds pages of the file only. -/
theorem Sound.hasPage (h : cache.Sound taken guards) (hresident : cache.table[page]? = some index) :
    cache.file.HasPage page := by
  obtain ⟨frame, hframe, hheld⟩ := (h.table page index).1 hresident
  exact (h.frame _ _ hframe).1.inside page hheld

theorem Sound.absent (h : cache.Sound taken guards) (hmissing : ¬cache.file.HasPage page) :
    cache.table[page]? = none := by
  cases hresident : cache.table[page]? with
  | none => rfl
  | some index => exact absurd (h.hasPage hresident) hmissing

/-- Looking for a page that the file does not have costs no frame. -/
theorem pin_missing (h : cache.Sound none guards) (hmissing : ¬cache.file.HasPage page) (hfree : ¬cache.Full) :
    ∃ cache', pin page cache = (.error (.pageNotFound page), cache') ∧ cache'.Sound none guards ∧
      Keeps cache cache' := by
  have habsent := h.absent hmissing
  obtain ⟨index, cache', hacquire, hsound, hkeeps, hblank, -⟩ := acquireFrame_keeps h hfree
  obtain ⟨hsound', hkeeps'⟩ := releaseFrame_keeps hsound hblank
  have hmissing' : ¬cache'.file.HasPage page := by
    have hpageSize : cache'.file.pageSize = cache.file.pageSize := hkeeps.pageSize
    unfold PageFile.HasPage at hmissing ⊢
    rw [hkeeps.length, hpageSize]
    exact hmissing
  have hread := PageFile.readPage_missing hsound.pages hmissing'
  refine ⟨cache'.releaseFrame index, ?_, hsound', hkeeps.trans hkeeps'⟩
  change cache'.file.readPage page cache'.pageSize = _ at hread
  rw [pin_of_absent habsent hacquire, hread]

/-! ### The bytes behind a guard -/

/-- Nothing written is nothing changed. -/
theorem setBytes_of_size_eq_zero (cache : PageCache) (index start : Nat) {data : ByteArray} (h : data.size = 0) :
    cache.setBytes index start data = cache := by
  have hframes : (cache.setBytes index start data).frames = cache.frames := by
    apply Array.ext_getElem?
    intro i
    refine (getElem?_modifyFrame cache index _ i).trans ?_
    by_cases hi : index = i
    · rw [if_pos hi]
      simp only [splice_of_size_eq_zero _ _ h]
      exact Option.map_id'
    · rw [if_neg hi]
  change { cache with frames := (cache.setBytes index start data).frames } = cache
  rw [hframes]

section

variable {guard : Guard} (h : cache.Sound taken guards) (hguard : guard ∈ guards)

include h hguard

theorem Sound.exists_frame : ∃ frame : Frame, cache.frames[guard.frame]? = some frame ∧
    frame.page = some guard.page := (h.table _ _).1 (h.guarded guard hguard)

/-- What stands in the frame of a guard is its page. -/
theorem Sound.byte_frameData {i : Nat} (hi : i / cache.pageSize = guard.page) :
    byte (cache.frameData guard.frame) (i % cache.pageSize) = cache.byteAt i := by
  obtain ⟨frame, hframe, hheld⟩ := h.exists_frame hguard
  rw [byteAt_of_frame h hframe hheld hi]
  unfold frameData
  rw [hframe]

theorem Sound.size_frameData : (cache.frameData guard.frame).size = cache.pageSize := by
  obtain ⟨frame, hframe, -⟩ := h.exists_frame hguard
  unfold frameData
  rw [hframe]
  exact (h.frame _ _ hframe).1.size

/-- The frame of a guard holds its page of the image. -/
theorem Sound.frameData_eq :
    cache.frameData guard.frame = cache.image.read (guard.page * cache.pageSize) cache.pageSize := by
  have hsize := h.size_frameData hguard
  apply ext_byte
  · rw [Image.size_read, hsize]
  · intro i hi
    rw [hsize] at hi
    have hdiv : (guard.page * cache.pageSize + i) / cache.pageSize = guard.page := by
      rw [Nat.mul_comm, Nat.mul_add_div h.pos, Nat.div_eq_of_lt hi, Nat.add_zero]
    have hmod : (guard.page * cache.pageSize + i) % cache.pageSize = i := by
      rw [Nat.mul_comm, Nat.mul_add_mod, Nat.mod_eq_of_lt hi]
    have hbyte := h.byte_frameData hguard hdiv
    rw [hmod] at hbyte
    rw [Image.byte_read, if_pos hi]
    exact hbyte

/-- Pages in other frames are left alone. -/
private theorem Sound.byteAt_modifyFrame_of_ne (f : Frame → Frame) {i : Nat}
    (hi : i / cache.pageSize ≠ guard.page) : (cache.modifyFrame guard.frame f).byteAt i = cache.byteAt i := by
  have htable : (cache.modifyFrame guard.frame f).table = cache.table := rfl
  have hpageSize : (cache.modifyFrame guard.frame f).pageSize = cache.pageSize := rfl
  unfold byteAt
  rw [hpageSize, htable]
  cases hresident : cache.table[i / cache.pageSize]? with
  | none => rfl
  | some other =>
    have hne : guard.frame ≠ other := by
      rintro rfl
      obtain ⟨frame, hframe, hheld⟩ := h.exists_frame hguard
      obtain ⟨frame', hframe', hheld'⟩ := (h.table _ _).1 hresident
      obtain rfl := Option.some.inj (hframe.symm.trans hframe')
      exact hi (Option.some.inj (hheld'.symm.trans hheld))
    have hdata : (cache.modifyFrame guard.frame f).frameData other = cache.frameData other := by
      unfold frameData
      rw [getElem?_modifyFrame, if_neg hne]
    exact congrArg (byte · (i % cache.pageSize)) hdata

/-- Bytes of a page are overwritten by somebody who may. -/
theorem setBytes_keeps (hmode : guard.mode = .exclusive) {start : Nat} {data : ByteArray}
    (hfits : start + data.size ≤ cache.pageSize ∨ data.size = 0) :
    (cache.setBytes guard.frame start data).Sound taken guards ∧
      (cache.setBytes guard.frame start data).image =
        cache.image.write (guard.page * cache.pageSize + start) data := by
  rcases hfits with hfits | hempty
  · obtain ⟨frame, hframe, hheld⟩ := h.exists_frame hguard
    have hsize : frame.data.size = cache.pageSize := (h.frame _ _ hframe).1.size
    have hlocked : Locked guards guard.frame := ⟨guard, hguard, rfl, hmode⟩
    have hsound : (cache.setBytes guard.frame start data).Sound taken guards := by
      refine h.modifyFrame (f := fun frame => { frame with data := splice frame.data start data }) (fun _ _ => rfl)
        h.queue rfl h.waiting (fun other hother => ?_) (fun _ _ => ⟨rfl, id⟩) h.guarded
      obtain rfl := Option.some.inj (hframe.symm.trans hother)
      obtain ⟨hframe, hpins⟩ := h.frame _ _ hframe
      refine ⟨⟨?_, hframe.inside, fun _ hunlocked => absurd hlocked hunlocked⟩, hpins⟩
      exact (size_splice (by omega)).trans hsize
    have hframe' : (cache.setBytes guard.frame start data).frames[guard.frame]? =
        some { frame with data := splice frame.data start data } := by
      unfold setBytes
      rw [getElem?_modifyFrame, if_pos rfl, hframe]
      rfl
    refine ⟨hsound, ?_⟩
    change Image.mk cache.pageSize cache.file.content.length _ = Image.mk _ _ _
    congr 1
    funext i
    have hdiv := Nat.div_add_mod' i cache.pageSize
    have hmod := Nat.mod_lt i h.pos
    -- the bytes of other pages are in other frames
    by_cases hi : i / cache.pageSize = guard.page
    · rw [hi] at hdiv
      refine (byteAt_of_frame hsound hframe' hheld hi).trans ?_
      change byte (splice frame.data start data) (i % cache.pageSize) = _
      rw [byte_splice (by omega)]
      by_cases hrange : start ≤ i % cache.pageSize ∧ i % cache.pageSize < start + data.size
      · rw [if_pos hrange, if_pos (by omega)]
        congr 1
        omega
      · rw [if_neg hrange, if_neg (by omega)]
        exact (byteAt_of_frame h hframe hheld hi).symm
    · have hother : ∀ page : Nat, i / cache.pageSize ≠ page →
          ¬(page * cache.pageSize + start ≤ i ∧ i < page * cache.pageSize + start + data.size) := by
        rintro page hne ⟨hlow, hhigh⟩
        apply hne
        rw [Nat.div_eq_iff h.pos]
        omega
      rw [if_neg (hother guard.page hi)]
      exact h.byteAt_modifyFrame_of_ne hguard _ hi
  · rw [setBytes_of_size_eq_zero _ _ _ hempty, Image.write_of_size_eq_zero _ _ hempty]
    exact ⟨h, rfl⟩

end

/-! ### Letting a page go -/

private theorem unpin_eq {frame : Frame} (hframe : cache.frames[index]? = some frame) (written : Bool) :
    cache.unpin index written =
      { cache.modifyFrame index fun frame =>
          { frame with pins := frame.pins - 1, dirty := frame.dirty || written } with
        queue := if frame.pins = 1 then cache.queue.join index else cache.queue } := by
  unfold unpin
  rw [hframe]
  change (if decide (frame.pins = 1) = true then _ else _) = _
  simp only [decide_eq_true_eq]
  split_ifs <;> rfl

/-- A guard is let go; a page that was written to is marked. -/
theorem unpin_keeps {guard : Guard} (h : cache.Sound none (guard :: guards)) {written : Bool}
    (hwritten : guard.mode = .exclusive → written = true) :
    (cache.unpin guard.frame written).Sound none guards ∧ Keeps cache (cache.unpin guard.frame written) := by
  obtain ⟨frame, hframe, hheld⟩ := h.exists_frame List.mem_cons_self
  obtain ⟨hfits, hpins⟩ := h.frame _ _ hframe
  have hindex := (Array.getElem?_eq_some_iff.1 hframe).1
  rw [pinsOn_cons, if_pos rfl] at hpins
  rw [unpin_eq hframe]
  constructor
  · refine h.modifyFrame
      (f := fun frame => { frame with pins := frame.pins - 1, dirty := frame.dirty || written }) (fun _ _ => rfl)
      ?_ ?_ (fun i => ?_) (fun other hother => ?_) (fun i hi => ?_) fun other hother =>
        h.guarded other (List.mem_cons_of_mem _ hother)
    · split_ifs
      · exact h.queue.join
      · exact h.queue
    · split_ifs
      · exact EvictionQueue.capacity_join ..
      · rfl
    · have hi := h.waiting i
      rw [pinsOn_cons] at hi
      split_ifs with hlast
      · -- the frame joins the queue, as this was its last pin
        rw [h.mem_join hindex, hi]
        by_cases hsame : i = guard.frame
        · simp [hsame, hindex, show pinsOn guards guard.frame = 0 by omega]
        · simp [hsame, Ne.symm hsame]
      · rw [hi]
        by_cases hsame : guard.frame = i
        · subst hsame
          simp [show pinsOn guards guard.frame ≠ 0 by omega]
        · simp [hsame]
    · obtain rfl := Option.some.inj (hframe.symm.trans hother)
      refine ⟨⟨hfits.size, hfits.inside, fun hclean hunlocked => hfits.clean ?_ fun hlocked => hunlocked ?_⟩, ?_⟩
      · exact (Bool.or_eq_false_iff.1 hclean).1
      · refine hlocked.of_cons fun _ hmode => ?_
        have hunwritten := (Bool.or_eq_false_iff.1 hclean).2
        rw [hwritten hmode] at hunwritten
        cases hunwritten
      · change frame.pins - 1 = _
        omega
    · exact ⟨(pinsOn_cons_of_ne hi guards).symm, fun hlocked => hlocked.of_cons fun heq => absurd heq (Ne.symm hi)⟩
  · exact .of_file_eq rfl rfl (byteAt_congr rfl rfl (fun i => frameData_modifyFrame cache guard.frame
      (f := fun frame => { frame with pins := frame.pins - 1, dirty := frame.dirty || written }) (fun _ _ => rfl) i)
      fun _ _ => rfl)

theorem file_unpin (cache : PageCache) (index : Nat) (written : Bool) :
    (cache.unpin index written).file = cache.file := by
  unfold unpin
  dsimp only
  split_ifs <;> rfl

/-! ### Appending and flushing -/

/-- The file made longer by zeros. -/
private theorem Sound.extend (h : cache.Sound taken guards) (length : Nat)
    (hlength : cache.file.content.length ≤ length) (hpages : length % cache.pageSize = 0) :
    Sound { cache with file := { cache.file with content := cache.file.content.setLength length } } taken guards ∧
      Refreshes cache { cache with file := { cache.file with content := cache.file.content.setLength length } } := by
  have hbytes := SparseFile.byteAt_setLength_of_le hlength
  refine ⟨{ h with pages := hpages, frame := fun i frame heq => ?_ }, rfl, rfl,
    byteAt_congr rfl rfl (fun _ => rfl) fun i _ => hbytes i, fun page => .inl fun i _ => hbytes i⟩
  obtain ⟨hfits, hpins⟩ := h.frame i frame heq
  refine ⟨⟨hfits.size, fun page hpage => ?_, fun hclean hunlocked page hpage i hi => ?_⟩, hpins⟩
  · exact Nat.le_trans (hfits.inside page hpage) hlength
  · exact (hbytes i).trans (hfits.clean hclean hunlocked page hpage i hi)

/-- The page behind the last one: no frame holds it, and once it is allocated it is there and reads as zeros. -/
private theorem Sound.allocate (h : cache.Sound taken guards) (hcount : cache.file.pages < 2 ^ 32) :
    ∃ file, cache.file.allocatePage = (cache.file.pages, file) ∧ Sound { cache with file } taken guards ∧
      Refreshes cache { cache with file } ∧ cache.table[cache.file.pages]? = none ∧ file.HasPage cache.file.pages ∧
      (∀ i, i / cache.pageSize = cache.file.pages → file.content.byteAt i = 0) ∧
      file.content.length = cache.file.content.length + cache.pageSize := by
  have hend : cache.file.pages * cache.file.pageSize = cache.file.content.length :=
    Nat.div_mul_cancel (Nat.dvd_of_mod_eq_zero h.pages)
  have hlength : (cache.file.pages + 1) * cache.file.pageSize = cache.file.content.length + cache.file.pageSize := by
    rw [Nat.add_mul, hend, Nat.one_mul]
  have hgrown : cache.file.content.length ≤ (cache.file.pages + 1) * cache.file.pageSize := by omega
  have hmissing : ¬cache.file.HasPage cache.file.pages :=
    mt (PageFile.hasPage_iff h.pos).1 (Nat.lt_irrefl _)
  obtain ⟨hsound, hrefreshes⟩ := h.extend _ hgrown (Nat.mul_mod_left ..)
  refine ⟨_, PageFile.allocatePage_eq hcount, hsound, hrefreshes, h.absent hmissing, Nat.le_refl _, fun i hi => ?_,
    hlength⟩
  have hle : cache.file.pages * cache.file.pageSize ≤ i := hi ▸ Nat.div_mul_le_self i cache.file.pageSize
  rw [SparseFile.byteAt_setLength_of_le hgrown, SparseFile.byteAt_of_le (hend ▸ hle)]

/-- A page of zeros is appended behind the last one. -/
theorem appendPage_refreshes (h : cache.Sound none guards) (hfree : ¬cache.Full)
    (hcount : cache.file.content.length / cache.pageSize < 2 ^ 32) (mode : GuardMode) :
    ∃ index cache', appendPage cache = (.ok (cache.file.content.length / cache.pageSize, index), cache') ∧
      cache'.Sound none ({ page := cache.file.content.length / cache.pageSize, frame := index, mode } :: guards) ∧
      Refreshes cache cache' ∧ cache'.file.content.length = cache.file.content.length + cache.pageSize := by
  obtain ⟨index, cache₁, hacquire, hsound, hkeeps, hblank, -⟩ := acquireFrame_keeps h hfree
  have hpages : cache.file.content.length / cache.pageSize = cache₁.file.pages := by
    rw [← hkeeps.length, ← hkeeps.pageSize]
    rfl
  rw [hpages] at hcount ⊢
  obtain ⟨file, hallocate, hextended, hrefreshes, habsent, hinside, hzero, hlength⟩ := hsound.allocate hcount
  have hpageSize : file.pageSize = cache₁.pageSize := hrefreshes.pageSize
  have hsize : (zeros cache₁.pageSize).size = file.pageSize := by rw [size_zeros, hpageSize]
  have hzeros : ∀ i, i / file.pageSize = cache₁.file.pages →
      byte (zeros cache₁.pageSize) (i % file.pageSize) = file.content.byteAt i := by
    intro i hi
    rw [byte_zeros, hzero i (hpageSize ▸ hi)]
  have hblank' : ({ cache₁ with file } : PageCache).frames[index]? = some (.blank file.pageSize) := hpageSize ▸ hblank
  have hsound' := occupy_sound hextended hblank' habsent hinside hsize hzeros true mode
  have hkeeps' := occupy_keeps hextended hblank' habsent hzeros true
  refine ⟨index, _, ?_, hsound', (hkeeps.toRefreshes.trans hrefreshes).trans hkeeps'.toRefreshes, ?_⟩
  · unfold appendPage
    rw [bind_apply, hacquire]
    dsimp only
    rw [get_bind_apply, hallocate]
    rfl
  · rw [hkeeps'.length]
    change file.content.length = _
    rw [hlength, hkeeps.length, hkeeps.pageSize]

/-- No page is appended while the cache is full, not even to the file. -/
theorem appendPage_full (h : cache.Sound none guards) (hfull : cache.Full) :
    appendPage cache = (.error (.cacheFull cache.maxFrames), cache) := by
  unfold appendPage
  rw [bind_apply, acquireFrame_full h hfull]

theorem writeBackAll_keeps (h : cache.Sound none guards) (indices : List Nat) :
    ∃ cache', writeBackAll indices cache = (.ok (), cache') ∧ cache'.Sound none guards ∧ Keeps cache cache' ∧
      ∀ i frame', cache'.frames[i]? = some frame' → ∃ frame, cache.frames[i]? = some frame ∧
        (frame' = frame ∧ i ∉ indices ∨ frame' = frame.cleaned) := by
  induction indices generalizing cache with
  | nil => exact ⟨cache, rfl, h, .refl _, fun i frame hframe => ⟨frame, hframe, .inl ⟨rfl, List.not_mem_nil⟩⟩⟩
  | cons index rest ih =>
    obtain ⟨cache₁, hwrite, hsound₁, hkeeps₁, -, -, hframes₁⟩ := writeBack_keeps h index
    obtain ⟨cache₂, hrest, hsound₂, hkeeps₂, hframes₂⟩ := ih hsound₁
    refine ⟨cache₂, ?_, hsound₂, hkeeps₁.trans hkeeps₂, fun i frame₂ hframe₂ => ?_⟩
    · unfold writeBackAll
      rw [bind_apply, hwrite]
      exact hrest
    · -- a frame may be listed twice
      have htwice : ∀ frame : Frame, frame.cleaned.cleaned = frame.cleaned := by
        intro frame
        unfold Frame.cleaned
        rw [Bool.and_assoc, Bool.and_self]
      obtain ⟨frame₁, hframe₁, hcases⟩ := hframes₂ i frame₂ hframe₂
      rw [hframes₁] at hframe₁
      by_cases hi : index = i
      · rw [if_pos hi] at hframe₁
        obtain ⟨frame, hframe, rfl⟩ := Option.map_eq_some_iff.1 hframe₁
        refine ⟨frame, hframe, .inr ?_⟩
        rcases hcases with ⟨heq, -⟩ | heq
        · exact heq
        · exact heq.trans (htwice frame)
      · rw [if_neg hi] at hframe₁
        refine ⟨frame₁, hframe₁, ?_⟩
        rcases hcases with ⟨heq, hnot⟩ | heq
        · refine .inl ⟨heq, fun hmem => ?_⟩
          rcases List.mem_cons.1 hmem with rfl | hmem
          · exact hi rfl
          · exact hnot hmem
        · exact .inr heq

/-- A flush brings every page of the file up to date, if nobody writes to one. -/
theorem flush_keeps (h : cache.Sound none guards) : ∃ cache', flush cache = (.ok (), cache') ∧
    cache'.Sound none guards ∧ Keeps cache cache' ∧
      ((∀ guard ∈ guards, guard.mode = .shared) → ∀ i, cache'.file.content.byteAt i = cache.byteAt i) := by
  obtain ⟨cache', hwrite, hsound, hkeeps, hframes⟩ := writeBackAll_keeps h (List.range cache.frames.size)
  refine ⟨cache', ?_, hsound, hkeeps, fun hshared i => ?_⟩
  · unfold flush
    rw [bind_apply]
    exact hwrite
  · rw [← hkeeps.byteAt]
    cases hresident : cache'.table[i / cache'.pageSize]? with
    | none =>
      unfold byteAt
      rw [hresident]
    | some index =>
      obtain ⟨frame', hframe', hheld⟩ := (hsound.table _ _).1 hresident
      have hclean : frame'.dirty = false := by
        obtain ⟨frame, hframe, ⟨-, hnot⟩ | rfl⟩ := hframes index frame' hframe'
        · exact absurd (List.mem_range.2 (Array.getElem?_eq_some_iff.1 hframe).1) hnot
        · unfold Frame.cleaned at hheld ⊢
          dsimp only at hheld ⊢
          rw [hheld, Option.isNone_some, Bool.and_false]
      have hunlocked : ¬Locked guards index := by
        rintro ⟨guard, hguard, -, hmode⟩
        rw [hshared guard hguard] at hmode
        cases hmode
      rw [byteAt_of_frame hsound hframe' hheld rfl]
      exact (hsound.frame _ _ hframe').1.clean hclean hunlocked _ hheld i rfl

/-- A cache that was just made holds what the file holds. -/
theorem sound_new {file : PageFile} (hpos : 0 < file.pageSize) (hpages : file.content.length % file.pageSize = 0)
    {frames capacity : Nat} (hframes : 1 ≤ frames) (hcapacity : frames ≤ capacity) :
    (new file frames capacity).Sound none [] ∧ ∀ i, (new file frames capacity).byteAt i = file.content.byteAt i := by
  have htable : ∀ page : Nat, (new file frames capacity).table[page]? = none := fun page => by simp [new]
  refine ⟨?_, fun i => ?_⟩
  · constructor
    · exact hpos
    · exact hpages
    · exact Nat.lt_of_lt_of_le Nat.zero_lt_one (Nat.le_max_right frames 1)
    · exact Nat.max_le.2 ⟨hcapacity, Nat.le_trans hframes hcapacity⟩
    · exact Nat.zero_le _
    · exact EvictionQueue.wellFormed_empty _
    · intro index
      simp [new]
    · intro page index
      rw [htable]
      simp [new]
    · intro index frame hframe
      simp [new] at hframe
    · nofun
  · unfold byteAt
    rw [htable]
    rfl

end RecordStore.PageCache
