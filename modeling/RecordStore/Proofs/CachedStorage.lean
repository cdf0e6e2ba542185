import RecordStore.Proofs.Layout
import RecordStore.Proofs.Pinning
import RecordStore.Storage.Cached

/-!
# Cached files keep the contract

A cached file looks like the bytes of its cache (`CachedFile.image`), and what a call answers and makes of it follows
from that image as long as page numbers have 32 bits (`CachedFile.Ready`).  What stands on disk is older: every page
of it is as it was in some earlier image, not the same one for all pages (`CachedFile.Lags`).  A call leaves only pages
there that stood there before, or that belong to the image before the call or to the one after it
(`CachedFile.TurnsInto`).  A file that is no larger than a store needs keeps the contract of storages
(`CachedFile.contract`).
-/

namespace RecordStore

open Bytes StorageView

/-! ### Spans -/

/-- The pieces of a range, from the last one on: each lies in the page of its position, and all but the last one end
with their page. -/
theorem spans_induction {pageSize stop : Nat} (hpos : 0 < pageSize) (hstop : stop ≤ 2 ^ 32 * pageSize)
    {motive : Nat → List Span → Prop} (nil : motive stop [])
    (cons : ∀ (position : Nat) (span : Span) (rest : List Span), position < stop → span.page = position / pageSize →
      span.start = position % pageSize → span.start + span.length ≤ pageSize → position + span.length ≤ stop →
      (position + span.length < stop → span.start + span.length = pageSize) → motive (position + span.length) rest →
      motive position (span :: rest)) {position : Nat} (h : position ≤ stop) :
    motive position (spans pageSize position stop) := by
  -- the spans behind the first one are those of the rest of the range
  induction hn : stop - position using Nat.strongRecOn generalizing position with
  | ind n ih =>
    have hmod := Nat.mod_lt position hpos
    have hdiv := Nat.div_add_mod' position pageSize
    rw [spans]
    by_cases hlt : position < stop
    · have hpage : (Span.first pageSize position stop).page = position / pageSize := by
        change position / pageSize % (1 <<< 32) = _
        apply Nat.mod_eq_of_lt
        apply Nat.div_lt_of_lt_mul
        rw [Nat.mul_comm]
        exact Nat.lt_of_lt_of_le hlt hstop
      have hstart : (Span.first pageSize position stop).start = position % pageSize := by
        change position - (Span.first pageSize position stop).page * pageSize = _
        rw [hpage]
        omega
      have hlength : (Span.first pageSize position stop).length =
          min (pageSize - position % pageSize) (stop - position) := by
        rw [← hstart]
        rfl
      generalize Span.first pageSize position stop = span at *
      rw [if_pos (by omega)]
      refine cons position span _ hlt hpage hstart (by omega) (by omega) (fun _ => by omega) ?_
      exact ih (stop - (position + span.length)) (by omega) (by omega) rfl
    · obtain rfl : position = stop := by omega
      have hnone : ¬0 < (Span.first pageSize position position).length := by
        change ¬0 < min _ (position - position)
        omega
      rw [if_neg hnone]
      exact nil

namespace Image

theorem read_append (img : Image) (offset a b : Nat) :
    img.read offset a ++ img.read (offset + a) b = img.read offset (a + b) := by
  apply ext_byte (by simp [ByteArray.size_append])
  intro i hi
  rw [ByteArray.size_append, size_read, size_read] at hi
  rw [byte_append, size_read, byte_read, byte_read, byte_read, if_pos hi]
  by_cases hfirst : i < a
  · rw [if_pos hfirst, if_pos hfirst]
  · rw [if_neg hfirst, if_pos (by omega), Nat.add_assoc, Nat.add_sub_cancel' (by omega)]

/-- Two writes next to each other make one. -/
theorem write_extract_write (img : Image) (position : Nat) (data : ByteArray) {start mid : Nat} (hstart : start ≤ mid)
    (hmid : mid ≤ data.size) :
    (img.write position (data.extract start mid)).write (position + (mid - start)) (data.extract mid data.size) =
      img.write position (data.extract start data.size) := by
  change Image.mk _ _ _ = Image.mk _ _ _
  congr 1
  funext i
  have hsize : (data.extract start mid).size = mid - start := by
    rw [ByteArray.size_extract]
    omega
  have hsize' : (data.extract mid data.size).size = data.size - mid := by
    rw [ByteArray.size_extract]
    omega
  have hsize'' : (data.extract start data.size).size = data.size - start := by
    rw [ByteArray.size_extract]
    omega
  rw [hsize', hsize'', byte_write, hsize]
  by_cases hsecond : position + (mid - start) ≤ i ∧ i < position + (mid - start) + (data.size - mid)
  · rw [if_pos hsecond, if_pos (by omega), byte_extract, byte_extract, if_pos (by omega), if_pos (by omega)]
    congr 1
    omega
  · rw [if_neg hsecond]
    by_cases hfirst : position ≤ i ∧ i < position + (mid - start)
    · rw [if_pos hfirst, if_pos (by omega), byte_extract, byte_extract, if_pos (by omega), if_pos (by omega)]
    · rw [if_neg hfirst, if_neg (by omega)]

/-- Every page is as some image with the property `version` has it. -/
def PagesOf (img : Image) (version : Image → Prop) : Prop :=
  ∀ page : Nat, ∃ other, version other ∧ ∀ i, i / img.pageSize = page → img.byte i = other.byte i

theorem pagesOf {img : Image} {version : Image → Prop} (h : version img) : img.PagesOf version :=
  fun _ => ⟨img, h, fun _ _ => rfl⟩

/-- Between two writes next to each other, if the first one ends with its page, every page is as it was before them or
as it is after them. -/
theorem PagesOf.between {img : Image} {version : Image → Prop} {position : Nat} {piece rest : ByteArray}
    (hpos : 0 < img.pageSize) (hpiece : position % img.pageSize + piece.size ≤ img.pageSize)
    (hends : 0 < rest.size → position % img.pageSize + piece.size = img.pageSize) (hbefore : img.PagesOf version)
    (hafter : ((img.write position piece).write (position + piece.size) rest).PagesOf version) :
    (img.write position piece).PagesOf version := by
  intro page
  have hposition := Nat.div_add_mod' position img.pageSize
  by_cases hpage : page = position / img.pageSize
  · obtain ⟨other, hversion, hbytes⟩ := hafter page
    refine ⟨other, hversion, fun i hi => ?_⟩
    rw [← hbytes i hi, byte_write _ _ rest, if_neg]
    rintro ⟨hlow, hhigh⟩
    have hmod := Nat.mod_lt i hpos
    have hdiv := Nat.div_add_mod' i img.pageSize
    change i / img.pageSize = page at hi
    rw [hi, hpage] at hdiv
    have hfull := hends (by omega)
    omega
  · obtain ⟨other, hversion, hbytes⟩ := hbefore page
    refine ⟨other, hversion, fun i hi => ?_⟩
    change i / img.pageSize = page at hi
    rw [← hbytes i hi, byte_write, if_neg]
    rintro ⟨hlow, hhigh⟩
    have hsame : i / img.pageSize = position / img.pageSize := by
      rw [Nat.div_eq_iff hpos]
      omega
    exact hpage (hi.symm.trans hsame)

/-- The image of at least `target` bytes, in whole pages. -/
def extend (img : Image) (target : Nat) : Image :=
  { img with size := max img.size ((target + img.pageSize - 1) / img.pageSize * img.pageSize) }

/-- A number of whole pages is enough for `target` rounded up if it is enough for `target`. -/
theorem roundUp_le_iff {pageSize target size : Nat} (hpos : 0 < pageSize) (hpages : size % pageSize = 0) :
    (target + pageSize - 1) / pageSize * pageSize ≤ size ↔ target ≤ size := by
  obtain ⟨pages, rfl⟩ := Nat.dvd_of_mod_eq_zero hpages
  rw [Nat.mul_comm pageSize pages, Nat.mul_le_mul_right_iff hpos, ← Nat.lt_succ_iff, Nat.div_lt_iff_lt_mul hpos,
    Nat.succ_mul]
  omega

theorem roundUp_eq {pageSize : Nat} (hpos : 0 < pageSize) (target : Nat) : (target + pageSize - 1) / pageSize * pageSize =
    if target % pageSize = 0 then target else (target / pageSize + 1) * pageSize := by
  have hdiv := Nat.div_add_mod' target pageSize
  have hmod := Nat.mod_lt target hpos
  by_cases hpages : target % pageSize = 0
  · have hpage : (target + pageSize - 1) / pageSize = target / pageSize :=
      ((Nat.div_mod_unique hpos).2 ⟨by rw [Nat.mul_comm]; omega, Nat.sub_lt hpos Nat.one_pos⟩).1
    rw [if_pos hpages, hpage]
    omega
  · have hpage : (target + pageSize - 1) / pageSize = target / pageSize + 1 :=
      ((Nat.div_mod_unique (c := target % pageSize - 1) hpos).2
        ⟨by rw [Nat.mul_comm, Nat.add_mul, Nat.one_mul]; omega, by omega⟩).1
    rw [if_neg hpages, hpage]

theorem le_size_extend {img : Image} (target : Nat) (hpos : 0 < img.pageSize) : target ≤ (img.extend target).size :=
  Nat.le_trans ((roundUp_le_iff hpos (Nat.mul_mod_left _ _)).1 (Nat.le_refl _)) (Nat.le_max_right ..)

theorem extend_of_le {img : Image} (hpos : 0 < img.pageSize) (hpages : img.size % img.pageSize = 0) {target : Nat}
    (h : target ≤ img.size) : img.extend target = img := by
  have hround := (roundUp_le_iff hpos hpages).2 h
  unfold extend
  rw [Nat.max_eq_left hround]

/-- Of a page that has to come anyway. -/
theorem extend_next {img : Image} (hpos : 0 < img.pageSize) (hpages : img.size % img.pageSize = 0) {target : Nat}
    (h : img.size < target) :
    ({ img with size := img.size + img.pageSize } : Image).extend target = img.extend target := by
  have hround := mt (roundUp_le_iff hpos hpages).1 (Nat.not_le.2 h)
  obtain ⟨pages, hsize⟩ := Nat.dvd_of_mod_eq_zero hpages
  have hnext : img.size + img.pageSize ≤ (target + img.pageSize - 1) / img.pageSize * img.pageSize := by
    rw [hsize, Nat.mul_comm img.pageSize pages] at hround ⊢
    have hlt := Nat.lt_of_mul_lt_mul_right (Nat.not_le.1 hround)
    have hle : (pages + 1) * img.pageSize ≤ _ := Nat.mul_le_mul_right img.pageSize hlt
    rwa [Nat.add_mul, Nat.one_mul] at hle
  unfold extend
  dsimp only
  rw [Nat.max_eq_right hnext, Nat.max_eq_right (by omega)]

@[simp] theorem read_zero (img : Image) (offset : Nat) : img.read offset 0 = ByteArray.empty := rfl

end Image

namespace CachedFile

variable {file : CachedFile}

/-- What the file holds, changed pages included. -/
def image (file : CachedFile) : Image := { pageSize := file.pageSize, size := file.size, byte := file.cache.byteAt }

/-- Open, of the size of the file on disk, and with page numbers of 32 bits. -/
structure Ready (file : CachedFile) : Prop where
  sound : file.cache.Sound none []
  opened : file.closed = false
  size : file.size = file.onDisk.length
  fits : file.size ≤ 2 ^ 32 * file.pageSize

structure Usable (file : CachedFile) : Prop where
  sound : file.cache.Sound none []
  opened : file.closed = false
  size : file.size = file.onDisk.length
  large : minPageSize ≤ file.pageSize
  reached : file.size ≤ reach + file.pageSize

/-- Every page on disk is as some image with the property `version` holds it. -/
def Lags (file : CachedFile) (version : Image → Prop) : Prop :=
  ∀ page : Nat, ∃ img, version img ∧ ∀ i, i / file.pageSize = page → file.onDisk.byteAt i = img.byte i

/-- The file as a call leaves it that makes `img` of what it holds. -/
structure TurnsInto (file file' : CachedFile) (img : Image) : Prop where
  ready : file'.Ready
  image : file'.image = img
  lags : ∀ version, version file.image → version img → file.Lags version → file'.Lags version

/-- The file while a call is under way that makes `img` of what it holds: the pages themselves may be from several
versions. -/
private structure WritesTo (file file' : CachedFile) (img : Image) : Prop where
  ready : file'.Ready
  image : file'.image = img
  lags : ∀ version, file.image.PagesOf version → img.PagesOf version → file.Lags version → file'.Lags version

private theorem WritesTo.turnsInto {file' : CachedFile} {img : Image} (h : file.WritesTo file' img) :
    file.TurnsInto file' img where
  ready := h.ready
  image := h.image
  lags version hversion himg := h.lags version (Image.pagesOf hversion) (Image.pagesOf himg)

/-- The same with a file that is still no larger than a store needs. -/
structure Becomes (file file' : CachedFile) (img : Image) : Prop where
  usable : file'.Usable
  image : file'.image = img
  lags : ∀ version, version file.image → version img → file.Lags version → file'.Lags version

/-- Pages that are written back are pages of the cache. -/
private theorem Lags.of_refreshes {file' : CachedFile} {version : Image → Prop} (h : file.Lags version)
    (hrefreshes : file.cache.Refreshes file'.cache)
    (hversions : file.image.PagesOf version) : file'.Lags version := by
  intro page
  have hpageSize : file'.pageSize = file.pageSize := hrefreshes.pageSize
  rcases hrefreshes.onDisk page with hkept | hwritten
  · obtain ⟨img, himg, hbytes⟩ := h page
    refine ⟨img, himg, fun i hi => ?_⟩
    rw [hpageSize] at hi
    exact (hkept i hi).trans (hbytes i hi)
  · obtain ⟨img, himg, hbytes⟩ := hversions page
    refine ⟨img, himg, fun i hi => ?_⟩
    rw [hpageSize] at hi
    exact (hwritten i hi).trans (hbytes i hi)

namespace Ready

variable (h : file.Ready)

include h

theorem pos : 0 < file.pageSize := h.sound.pos

theorem size_mod : file.size % file.pageSize = 0 := by
  rw [h.size]
  exact h.sound.pages

theorem hasPage {i : Nat} (hi : i < file.size) : file.cache.file.HasPage (i / file.pageSize) := by
  have hend := endOfPage_le hi h.size_mod
  rw [h.size] at hend
  exact hend

omit h in
theorem image_of_keeps {cache : PageCache} (hkeeps : file.cache.Keeps cache) :
    ({ file with cache } : CachedFile).image = file.image := by
  have hpageSize : cache.pageSize = file.cache.pageSize := hkeeps.pageSize
  change Image.mk cache.pageSize file.size cache.byteAt = Image.mk file.cache.pageSize file.size file.cache.byteAt
  rw [hpageSize, funext hkeeps.byteAt]

/-- The cache changes and the file becomes no longer. -/
theorem turnsInto {cache : PageCache} (hsound : cache.Sound none []) (hkeeps : file.cache.Keeps cache) :
    file.TurnsInto { file with cache } file.image where
  ready := by
    refine ⟨hsound, h.opened, h.size.trans hkeeps.length.symm, ?_⟩
    have hpageSize : ({ file with cache } : CachedFile).pageSize = file.pageSize := hkeeps.pageSize
    rw [hpageSize]
    exact h.fits
  image := image_of_keeps hkeeps
  lags _ hversion _ hlags := hlags.of_refreshes hkeeps.toRefreshes (Image.pagesOf hversion)

theorem turnsInto_refl : file.TurnsInto file file.image := h.turnsInto h.sound (.refl _)

end Ready

/-- The numbers of all pages have 32 bits. -/
theorem Usable.ready (h : file.Usable) : file.Ready where
  sound := h.sound
  opened := h.opened
  size := h.size
  fits := by
    have hlarge := h.large
    have hreached := h.reached
    unfold reach at hreached
    unfold minPageSize at hlarge
    omega

namespace TurnsInto

variable {file' : CachedFile} {img : Image}

theorem size_eq (h : file.TurnsInto file' img) : file'.size = img.size := congrArg Image.size h.image

theorem pageSize_eq (h : file.TurnsInto file' img) : file'.pageSize = img.pageSize := congrArg Image.pageSize h.image

/-- The file is still no larger than a store needs. -/
theorem becomes (h : file.TurnsInto file' img) (husable : file.Usable) (hpageSize : img.pageSize = file.pageSize)
    (hreached : img.size ≤ reach + file.pageSize) : file.Becomes file' img where
  usable := by
    refine ⟨h.ready.sound, h.ready.opened, h.ready.size, ?_, ?_⟩
    · rw [h.pageSize_eq, hpageSize]
      exact husable.large
    · rw [h.size_eq, h.pageSize_eq, hpageSize]
      exact hreached
  image := h.image
  lags := h.lags

/-- A call behind one that changed no byte. -/
theorem trans {file₁ file₂ file₃ : CachedFile} {img img' : Image} (h : file₁.TurnsInto file₂ img)
    (h' : file₂.TurnsInto file₃ img') (hbytes : img.byte = file₁.image.byte) : file₁.TurnsInto file₃ img' where
  ready := h'.ready
  image := h'.image
  lags version hversion himg hlags page := by
    -- the image in between differs from the first one in its size only
    have hweak : file₁.Lags fun other => version other ∨ other = img := fun page => by
      obtain ⟨other, hother, hsame⟩ := hlags page
      exact ⟨other, .inl hother, hsame⟩
    obtain ⟨other, hother | rfl, hsame⟩ := h'.lags (fun other => version other ∨ other = img) (.inr h.image) (.inl himg)
      (h.lags _ (.inl hversion) (.inr rfl) hweak) page
    · exact ⟨other, hother, hsame⟩
    · exact ⟨file₁.image, hversion, fun i hi => (hsame i hi).trans (congrFun hbytes i)⟩

end TurnsInto

theorem onCache_apply {α : Type} (act : CacheM α) (file : CachedFile) :
    onCache act file = ((act file.cache).1, { file with cache := (act file.cache).2 }) := rfl

/-! ### Reading -/

/-- A piece of a page in use. -/
private theorem extract_frameData {cache : PageCache} {guard : Guard} {position length : Nat}
    (h : cache.Sound none [guard]) (hpage : guard.page = position / cache.pageSize)
    (hlength : position % cache.pageSize + length ≤ cache.pageSize) :
    (cache.frameData guard.frame).extract (position % cache.pageSize) (position % cache.pageSize + length) =
      cache.image.read position length := by
  rw [h.frameData_eq (List.mem_singleton_self guard), hpage, Image.extract_read, Nat.div_add_mod',
    Nat.min_eq_left hlength, Nat.add_sub_cancel_left]

private theorem readSpans_turnsInto {pageSize position stop : Nat} (hpos : 0 < pageSize)
    (hbound : stop ≤ 2 ^ 32 * pageSize) (hposition : position ≤ stop) :
    ∀ (bytes : ByteArray) (file : CachedFile), file.Ready → file.pageSize = pageSize → stop ≤ file.size →
      ∃ file', readSpans (spans pageSize position stop) bytes file =
        (.ok (bytes ++ file.image.read position (stop - position)), file') ∧ file.TurnsInto file' file.image := by
  refine spans_induction hpos hbound (motive := fun position spans => ∀ (bytes : ByteArray) (file : CachedFile),
    file.Ready → file.pageSize = pageSize → stop ≤ file.size → ∃ file', readSpans spans bytes file =
      (.ok (bytes ++ file.image.read position (stop - position)), file') ∧ file.TurnsInto file' file.image)
    ?_ ?_ hposition
  · intro bytes file hready _ _
    refine ⟨file, ?_, hready.turnsInto_refl⟩
    rw [Nat.sub_self, Image.read_zero, ByteArray.append_empty]
    rfl
  · rintro position ⟨page, start, length⟩ rest hlt hpage hstart hlength hle - ih bytes file hready rfl hstop
    dsimp only at hpage hstart hlength hle ih
    subst hpage hstart
    -- the page is pinned, copied from and unpinned, and the image is the same as before
    obtain ⟨index, cache₁, hpin, hpinned, hkeeps₁⟩ := PageCache.pin_keeps hready.sound
      (hready.hasPage (Nat.lt_of_lt_of_le hlt hstop)) (fun _ => hready.sound.not_full) .shared
    have hshared : GuardMode.shared = .exclusive → false = true := nofun
    obtain ⟨hsound₂, hkeeps₂⟩ := PageCache.unpin_keeps hpinned hshared
    have hturns := hready.turnsInto hsound₂ (hkeeps₁.trans hkeeps₂)
    have hpageSize : cache₁.pageSize = file.pageSize := hkeeps₁.pageSize
    have hpiece : (cache₁.frameData index).extract (position % file.pageSize) (position % file.pageSize + length) =
        file.image.read position length := by
      rw [← hpageSize] at hpinned hlength ⊢
      rw [extract_frameData hpinned rfl hlength, hkeeps₁.image_eq]
      rfl
    obtain ⟨file₃, hrest, hturns₃⟩ := ih (bytes ++ file.image.read position length) _ hturns.ready
      (hkeeps₁.trans hkeeps₂).pageSize hstop
    refine ⟨file₃, ?_, hturns.trans (hturns.image ▸ hturns₃) rfl⟩
    rw [hturns.image, ByteArray.append_assoc, Image.read_append,
      show length + (stop - (position + length)) = stop - position by omega] at hrest
    unfold readSpans
    rw [bind_apply, onCache_apply, hpin, ← hrest, ← hpiece]
    rfl

/-! ### Writing -/

/-- A piece of a page overwritten, and what the file holds then.  Only pages from before it may have reached the
disk. -/
private theorem setBytes_turnsInto (hready : file.Ready) {position length index : Nat} {cache₁ : PageCache}
    (hpinned : cache₁.Sound none [{ page := position / file.pageSize, frame := index, mode := .exclusive }])
    (hkeeps : file.cache.Keeps cache₁)
    (hlength : position % file.pageSize + length ≤ file.pageSize) {piece : ByteArray} (hpiece : piece.size = length) :
    let file' : CachedFile :=
      { file with cache := (cache₁.setBytes index (position % file.pageSize) piece).unpin index true }
    file'.Ready ∧ file'.image = file.image.write position piece ∧
      ∀ version, file.image.PagesOf version → file.Lags version → file'.Lags version := by
  intro file'
  have hpageSize : cache₁.pageSize = file.pageSize := hkeeps.pageSize
  have hposition : position / file.pageSize * cache₁.pageSize + position % file.pageSize = position := by
    rw [hpageSize]
    exact Nat.div_add_mod' ..
  obtain ⟨hwritten, himage⟩ := PageCache.setBytes_keeps hpinned (List.mem_singleton_self _) rfl
    (show position % file.pageSize + piece.size ≤ cache₁.pageSize ∨ _ from
      .inl (by rw [hpageSize, hpiece]; exact hlength))
  have hexclusive : GuardMode.exclusive = .exclusive → true = true := fun _ => rfl
  obtain ⟨hsound, hkept⟩ := PageCache.unpin_keeps hwritten hexclusive
  have hfile : file'.cache.file = cache₁.file := PageCache.file_unpin ..
  have hdisk : file'.onDisk = cache₁.file.content := congrArg PageFile.content hfile
  have hpageSize' : file'.pageSize = file.pageSize := (congrArg PageFile.pageSize hfile).trans hpageSize
  refine ⟨⟨hsound, hready.opened, ?_, ?_⟩, ?_, fun version hversions hlags page => ?_⟩
  · rw [hdisk, hkeeps.length]
    exact hready.size
  · rw [hpageSize']
    exact hready.fits
  · have hbyte : file'.cache.byteAt = (cache₁.image.write position piece).byte := by
      have hbyte := congrArg Image.byte himage
      rw [hposition] at hbyte
      exact (funext hkept.byteAt).trans hbyte
    change Image.mk file'.pageSize file.size file'.cache.byteAt = _
    rw [hpageSize', hbyte, hkeeps.image_eq]
    rfl
  · have hlags₁ : Lags { file with cache := cache₁ } version := hlags.of_refreshes hkeeps.toRefreshes hversions
    rw [hdisk, hpageSize', ← hpageSize]
    exact hlags₁ page

/-- What becomes of a file when `spans`, the first one at `position`, are filled with what `data` has for them. -/
private def SpansWritten (data : ByteArray) (offset pageSize position : Nat) (spans : List Span) : Prop :=
  offset ≤ position → ∀ file : CachedFile, file.Ready → file.pageSize = pageSize → offset + data.size ≤ file.size →
    ∃ file', writeSpans data spans (position - offset) file = (.ok (), file') ∧
      file.WritesTo file' (file.image.write position (data.extract (position - offset) data.size))

private theorem writeSpans_writesTo {pageSize position offset : Nat} {data : ByteArray} (hpos : 0 < pageSize)
    (hbound : offset + data.size ≤ 2 ^ 32 * pageSize) (hposition : position ≤ offset + data.size) :
    SpansWritten data offset pageSize position (spans pageSize position (offset + data.size)) := by
  refine spans_induction hpos hbound (motive := SpansWritten data offset pageSize) ?_ ?_ hposition
  · intro _ file hready _ _
    refine ⟨file, rfl, hready, (Image.write_of_size_eq_zero _ _ ?_).symm, fun _ _ _ hlags => hlags⟩
    rw [ByteArray.size_extract]
    omega
  · rintro position ⟨page, start, length⟩ rest hlt hpage hstart hlength hle hends ih hoffset file hready rfl hstop
    dsimp only at hpage hstart hlength hle hends ih
    subst hpage hstart
    obtain ⟨index, cache₁, hpin, hpinned, hkeeps⟩ := PageCache.pin_keeps hready.sound
      (hready.hasPage (Nat.lt_of_lt_of_le hlt hstop)) (fun _ => hready.sound.not_full) .exclusive
    have hpiece : (data.extract (position - offset) (position - offset + length)).size = length := by
      rw [ByteArray.size_extract]
      omega
    obtain ⟨hready₂, himage₂, hlags₂⟩ := setBytes_turnsInto hready hpinned hkeeps hlength hpiece
    generalize hfile₂ : ({ file with cache := (cache₁.setBytes index (position % file.pageSize)
      (data.extract (position - offset) (position - offset + length))).unpin index true } : CachedFile) = file₂
      at hready₂ himage₂ hlags₂
    have hpageSize₂ : file₂.pageSize = file.pageSize := congrArg Image.pageSize himage₂
    have hsize₂ : file₂.size = file.size := congrArg Image.size himage₂
    have hdone : position + length - offset = position - offset + length := by omega
    obtain ⟨file₃, hrest, hwrites⟩ := ih (by omega) file₂ hready₂ hpageSize₂ (by omega)
    rw [hdone] at hrest hwrites
    -- the first piece and the rest behind it make up the whole write
    have hlast : file₂.image.write (position + length) (data.extract (position - offset + length) data.size) =
        file.image.write position (data.extract (position - offset) data.size) := by
      have hwrite := file.image.write_extract_write position data
        (show position - offset ≤ position - offset + length by omega) (by omega)
      rw [Nat.add_sub_cancel_left] at hwrite
      rw [himage₂, hwrite]
    refine ⟨file₃, ?_, hwrites.ready, hwrites.image.trans hlast, fun version hbefore hafter hlags => ?_⟩
    · unfold writeSpans
      rw [bind_apply, onCache_apply, hpin, ← hrest, ← hfile₂]
      rfl
    · rw [← hlast] at hafter
      -- in between, every page is as it was before the whole write or as it is after it
      refine hwrites.lags version ?_ hafter (hlags₂ version hbefore hlags)
      rw [himage₂] at hafter ⊢
      refine Image.PagesOf.between hready.pos (by rw [hpiece]; exact hlength) (fun hmore => ?_) hbefore
        (by rw [hpiece]; exact hafter)
      rw [ByteArray.size_extract] at hmore
      rw [hpiece]
      exact hends (by omega)

/-- A piece at the start of the first page. -/
private theorem spans_front {pageSize length : Nat} (hpos : 0 < length) (hle : length ≤ pageSize) :
    spans pageSize 0 length = [{ page := 0, start := 0, length }] := by
  have hfirst : Span.first pageSize 0 length = { page := 0, start := 0, length } := by
    have hpage : PageNumber.ofOffset 0 pageSize = 0 := by
      change 0 / pageSize % (1 <<< 32) = 0
      rw [Nat.zero_div]
      rfl
    unfold Span.first
    rw [hpage]
    change Span.mk 0 (0 - 0 * pageSize) (min (pageSize - (0 - 0 * pageSize)) (length - 0)) = _
    rw [Nat.zero_mul, Nat.sub_self, Nat.sub_zero, Nat.sub_zero, Nat.min_eq_right hle]
  have hlast : ¬0 < (Span.first pageSize length length).length :=
    Nat.not_lt.2 (Nat.le_trans (Nat.min_le_right _ _) (Nat.le_of_eq (Nat.sub_self _)))
  rw [spans, hfirst, if_pos hpos, Nat.zero_add, spans, if_neg hlast]

/-! ### Growing -/

private theorem growBy_of_le {target : Nat} (h : target ≤ file.size) (pages : Nat) :
    growBy target pages file = (.ok (), file) := by
  cases pages with
  | zero => rfl
  | succ pages =>
    rw [growBy, get_bind_apply, if_neg (Nat.not_lt.2 h)]
    rfl

/-- One page more. -/
private theorem growBy_step {target : Nat} (hready : file.Ready) (htarget : target ≤ 2 ^ 32 * file.pageSize)
    (hsmall : file.size < target) (pages : Nat) :
    ∃ file', growBy target (pages + 1) file = growBy target pages file' ∧
      file.TurnsInto file' { file.image with size := file.size + file.pageSize } := by
  have hlength : file.cache.file.content.length = file.size := hready.size.symm
  have hcount : file.cache.file.content.length / file.cache.pageSize < 2 ^ 32 := by
    rw [hlength]
    apply Nat.div_lt_of_lt_mul
    rw [Nat.mul_comm]
    exact Nat.lt_of_lt_of_le hsmall htarget
  obtain ⟨index, cache₁, happend, hpinned, hrefreshes, hlength₁⟩ :=
    PageCache.appendPage_refreshes hready.sound hready.sound.not_full hcount .exclusive
  have hexclusive : GuardMode.exclusive = .exclusive → true = true := fun _ => rfl
  obtain ⟨hsound₂, hkeeps₂⟩ := PageCache.unpin_keeps hpinned hexclusive
  have hrefreshes₂ := hrefreshes.trans hkeeps₂.toRefreshes
  generalize hfile₂ : ({ file with cache := cache₁.unpin index true, size := file.size + file.pageSize } :
    CachedFile) = file₂
  have hpageSize₂ : file₂.pageSize = file.pageSize := by
    rw [← hfile₂]
    exact hrefreshes₂.pageSize
  have hsize₂ : file₂.size = file.size + file.pageSize := by rw [← hfile₂]
  refine ⟨file₂, ?_, ?_, ?_, fun version hversion _ hlags => ?_⟩
  · have hpage : file.cache.file.content.length / file.cache.pageSize * cache₁.pageSize + cache₁.pageSize =
        file.size + file.pageSize := by
      rw [hrefreshes.pageSize, Nat.div_mul_cancel (Nat.dvd_of_mod_eq_zero hready.sound.pages), hlength]
      rfl
    rw [growBy, get_bind_apply, if_pos hsmall, bind_apply, onCache_apply, happend, ← hfile₂, ← hpage]
    rfl
  · refine ⟨?_, ?_, ?_, ?_⟩
    · rw [← hfile₂]
      exact hsound₂
    · rw [← hfile₂]
      exact hready.opened
    · rw [hsize₂, ← hlength, ← hfile₂]
      exact (hkeeps₂.length.trans hlength₁).symm
    · have hdiv := Nat.div_mul_cancel (Nat.dvd_of_mod_eq_zero hready.size_mod)
      have hlt : file.size / file.pageSize < 2 ^ 32 := by
        rw [← hlength]
        exact hcount
      have hnext : (file.size / file.pageSize + 1) * file.pageSize ≤ 2 ^ 32 * file.pageSize :=
        Nat.mul_le_mul_right _ hlt
      rw [Nat.add_mul, hdiv, Nat.one_mul] at hnext
      rw [hpageSize₂, hsize₂]
      exact hnext
  · change Image.mk file₂.pageSize file₂.size file₂.cache.byteAt =
      Image.mk file.pageSize (file.size + file.pageSize) file.cache.byteAt
    rw [hpageSize₂, hsize₂, ← hfile₂]
    dsimp only
    rw [funext hrefreshes₂.byteAt]
  · refine hlags.of_refreshes (by rw [← hfile₂]; exact hrefreshes₂) (Image.pagesOf hversion)

private theorem growBy_turnsInto {target : Nat} (pages : Nat) (file : CachedFile) (hready : file.Ready)
    (htarget : target ≤ 2 ^ 32 * file.pageSize) (henough : target ≤ file.size + pages * file.pageSize) :
    ∃ file', growBy target pages file = (.ok (), file') ∧ file.TurnsInto file' (file.image.extend target) := by
  have hstay {file : CachedFile} (hready : file.Ready) (hle : target ≤ file.size) (pages : Nat) :
      ∃ file', growBy target pages file = (.ok (), file') ∧ file.TurnsInto file' (file.image.extend target) := by
    refine ⟨file, growBy_of_le hle pages, ?_⟩
    rw [Image.extend_of_le hready.pos hready.size_mod hle]
    exact hready.turnsInto_refl
  -- one page is appended after another until the file is large enough
  induction pages generalizing file with
  | zero => exact hstay hready (by omega) 0
  | succ pages ih =>
    by_cases hsmall : file.size < target
    · obtain ⟨file₂, hgrow, hturns₂⟩ := growBy_step hready htarget hsmall pages
      have hpageSize₂ : file₂.pageSize = file.pageSize := hturns₂.pageSize_eq
      have hsize₂ : file₂.size = file.size + file.pageSize := hturns₂.size_eq
      rw [Nat.add_mul, Nat.one_mul] at henough
      obtain ⟨file₃, hrest, hturns₃⟩ := ih file₂ hturns₂.ready (by rw [hpageSize₂]; exact htarget)
        (by rw [hpageSize₂, hsize₂]; omega)
      have himage : file₂.image.extend target = file.image.extend target := by
        rw [hturns₂.image]
        exact Image.extend_next hready.pos hready.size_mod hsmall
      rw [himage] at hturns₃
      exact ⟨file₃, hgrow.trans hrest, hturns₂.trans hturns₃ rfl⟩
    · exact hstay hready (Nat.not_lt.1 hsmall) _

/-! ### The calls -/

theorem ensureOpen_bind {α : Type} (hopened : file.closed = false) (next : M α) :
    (do ensureOpen; next) file = next file := by
  rw [bind_apply]
  have hopen : ensureOpen file = (.ok (), file) := by
    unfold ensureOpen
    rw [get_bind_apply, hopened]
    rfl
  rw [hopen]

private theorem checkBounds_bind {α : Type} {offset length : Nat} (h : offset + length ≤ file.size) (next : M α) :
    (do checkBounds offset length; next) file = next file := by
  rw [bind_apply]
  have hbounds : checkBounds offset length file = (.ok (), file) := by
    unfold checkBounds
    rw [get_bind_apply, if_neg (Nat.not_lt.2 h)]
    rfl
  rw [hbounds]

theorem read_turnsInto (hready : file.Ready) {offset length : Nat} (h : offset + length ≤ file.size) :
    ∃ file', (PagedStorage.read offset length : M ByteArray) file = (.ok (file.image.read offset length), file') ∧
      file.TurnsInto file' file.image := by
  obtain ⟨file', hread, hturns⟩ := readSpans_turnsInto hready.pos (Nat.le_trans h hready.fits)
    (Nat.le_add_right offset length) ByteArray.empty file hready rfl h
  refine ⟨file', ?_, hturns⟩
  rw [Nat.add_sub_cancel_left, ByteArray.empty_append] at hread
  change (do ensureOpen; checkBounds offset length; _ : M ByteArray) file = _
  rw [ensureOpen_bind hready.opened, checkBounds_bind h, get_bind_apply]
  exact hread

theorem write_turnsInto (hready : file.Ready) {offset : Nat} {data : ByteArray} (h : offset + data.size ≤ file.size) :
    ∃ file', (PagedStorage.write offset data : M Unit) file = (.ok (), file') ∧
      file.TurnsInto file' (file.image.write offset data) := by
  obtain ⟨file', hwrite, hwrites⟩ := writeSpans_writesTo hready.pos (Nat.le_trans h hready.fits)
    (Nat.le_add_right offset data.size) (Nat.le_refl offset) file hready rfl h
  rw [Nat.sub_self] at hwrite hwrites
  rw [show data.extract 0 data.size = data from ByteArray.extract_zero_size] at hwrites
  refine ⟨file', ?_, hwrites.turnsInto⟩
  change (do ensureOpen; checkBounds offset data.size; _ : M Unit) file = _
  rw [ensureOpen_bind hready.opened, checkBounds_bind h, get_bind_apply]
  exact hwrite

/-- What is written at the start of the first page is not on disk yet. -/
theorem lags_write_front (hready : file.Ready) {data : ByteArray} (hpos : 0 < data.size)
    (hpage : data.size ≤ file.pageSize) (hbound : data.size ≤ file.size) {version : Image → Prop}
    (hversion : version file.image) (hlags : file.Lags version) :
    ((PagedStorage.write 0 data : M Unit) file).2.Lags version := by
  have hposition : (0 : Nat) / file.pageSize = 0 := Nat.zero_div _
  have hstart : (0 : Nat) % file.pageSize = 0 := Nat.zero_mod _
  obtain ⟨index, cache₁, hpin, hpinned, hkeeps⟩ := PageCache.pin_keeps hready.sound
    (hready.hasPage (Nat.lt_of_lt_of_le hpos hbound)) (fun _ => hready.sound.not_full) .exclusive
  have hsize : (data.extract 0 (0 + data.size)).size = data.size := by
    rw [ByteArray.size_extract]
    omega
  obtain ⟨-, -, hlags'⟩ := setBytes_turnsInto hready hpinned hkeeps (by rw [hstart]; omega) hsize
  rw [hstart] at hlags'
  rw [hposition] at hpin
  have hbound' : 0 + data.size ≤ file.size := by omega
  change ((do ensureOpen; checkBounds 0 data.size; _ : M Unit) file).2.Lags version
  rw [ensureOpen_bind hready.opened, checkBounds_bind hbound', get_bind_apply, Nat.zero_add, spans_front hpos hpage]
  unfold writeSpans
  rw [bind_apply, onCache_apply, hpin]
  exact hlags' version (Image.pagesOf hversion) hlags

theorem grow_turnsInto (hready : file.Ready) {target : Nat} (h : target ≤ 2 ^ 32 * file.pageSize) :
    ∃ file', (PagedStorage.grow target : M Unit) file = (.ok (), file') ∧
      file.TurnsInto file' (file.image.extend target) := by
  have hlt := Nat.lt_mul_div_succ target hready.pos
  rw [Nat.mul_comm] at hlt
  obtain ⟨file', hgrow, hturns⟩ := growBy_turnsInto (target / file.pageSize + 1) file hready h (by omega)
  refine ⟨file', ?_, hturns⟩
  change (do ensureOpen; _ : M Unit) file = _
  rw [ensureOpen_bind hready.opened, get_bind_apply]
  exact hgrow

/-- After a flush the disk holds what the file holds. -/
theorem flush_turnsInto (hready : file.Ready) :
    ∃ file', (PagedStorage.flush : M Unit) file = (.ok (), file') ∧ file.TurnsInto file' file.image ∧
      ∀ i, file'.onDisk.byteAt i = file.image.byte i := by
  obtain ⟨cache', hflush, hsound, hkeeps, hdisk⟩ := PageCache.flush_keeps hready.sound
  refine ⟨{ file with cache := cache' }, ?_, hready.turnsInto hsound hkeeps, hdisk nofun⟩
  change (do ensureOpen; _ : M Unit) file = _
  rw [ensureOpen_bind hready.opened, onCache_apply, hflush]

theorem size_apply (hopened : file.closed = false) : (PagedStorage.size : M Nat) file = (.ok file.size, file) := by
  change (do ensureOpen; return (← get).size : M Nat) file = _
  rw [ensureOpen_bind hopened]
  rfl

theorem read_becomes (husable : file.Usable) {offset length : Nat} (h : offset + length ≤ file.size) :
    ∃ file', (PagedStorage.read offset length : M ByteArray) file = (.ok (file.image.read offset length), file') ∧
      file.Becomes file' file.image := by
  obtain ⟨file', hread, hturns⟩ := read_turnsInto husable.ready h
  exact ⟨file', hread, hturns.becomes husable rfl husable.reached⟩

theorem write_becomes (husable : file.Usable) {offset : Nat} {data : ByteArray} (h : offset + data.size ≤ file.size) :
    ∃ file', (PagedStorage.write offset data : M Unit) file = (.ok (), file') ∧
      file.Becomes file' (file.image.write offset data) := by
  obtain ⟨file', hwrite, hturns⟩ := write_turnsInto husable.ready h
  exact ⟨file', hwrite, hturns.becomes husable rfl husable.reached⟩

theorem grow_becomes (husable : file.Usable) {target : Nat} (h : target ≤ reach) :
    ∃ file', (PagedStorage.grow target : M Unit) file = (.ok (), file') ∧
      file.Becomes file' (file.image.extend target) := by
  have hreach : reach ≤ 2 ^ 32 * file.pageSize := by
    have hlarge := husable.large
    unfold minPageSize at hlarge
    unfold reach
    omega
  obtain ⟨file', hgrow, hturns⟩ := grow_turnsInto husable.ready (Nat.le_trans h hreach)
  refine ⟨file', hgrow, hturns.becomes husable rfl (Nat.max_le.2 ⟨husable.reached, ?_⟩)⟩
  have hround := Nat.div_mul_le_self (target + file.pageSize - 1) file.pageSize
  change (target + file.pageSize - 1) / file.pageSize * file.pageSize ≤ _
  omega

theorem flush_becomes (husable : file.Usable) :
    ∃ file', (PagedStorage.flush : M Unit) file = (.ok (), file') ∧ file.Becomes file' file.image ∧
      ∀ i, file'.onDisk.byteAt i = file.image.byte i := by
  obtain ⟨file', hflush, hturns, hdisk⟩ := flush_turnsInto husable.ready
  exact ⟨file', hflush, hturns.becomes husable rfl husable.reached, hdisk⟩

/-- A file of whole pages is opened as it is. -/
theorem openOrCreate_regular (path : String) {content : SparseFile} {pageSize : Nat}
    (hpageSize : checkPageSize pageSize = .ok ()) (hpages : content.length % pageSize = 0) (frames : Nat) :
    openOrCreate path (.regular content) pageSize frames = .ok (behind { content, pageSize } frames) := by
  unfold openOrCreate PageFile.openOrCreate
  rw [hpageSize]
  simp only [bind, Except.bind]
  rw [if_pos hpages]
  rfl

/-- Where there is no file an empty one is created. -/
theorem openOrCreate_missing (path : String) {pageSize : Nat} (hpageSize : checkPageSize pageSize = .ok ())
    (frames : Nat) : openOrCreate path .missing pageSize frames = .ok (behind { content := .empty, pageSize } frames) := by
  unfold openOrCreate PageFile.openOrCreate
  rw [hpageSize]
  rfl

/-- A file that is opened again holds what was on disk. -/
theorem ready_behind (file : PageFile) (hpos : 0 < file.pageSize) (hpages : file.content.length % file.pageSize = 0)
    (hfits : file.content.length < 2 ^ 32 * file.pageSize) {frames : Nat} (hframes : 1 ≤ frames) :
    (behind file frames).Ready ∧ (behind file frames).image =
      { pageSize := file.pageSize, size := file.content.length, byte := file.content.byteAt } := by
  obtain ⟨hsound, hbytes⟩ := PageCache.sound_new hpos hpages hframes (Nat.le_refl frames)
  have hsize : (behind file frames).size = file.content.length := by
    change file.content.length / file.pageSize % (1 <<< 32) * file.pageSize = _
    rw [Nat.mod_eq_of_lt, Nat.div_mul_cancel (Nat.dvd_of_mod_eq_zero hpages)]
    apply Nat.div_lt_of_lt_mul
    rw [Nat.mul_comm]
    exact hfits
  refine ⟨⟨hsound, rfl, hsize, ?_⟩, ?_⟩
  · rw [hsize]
    exact Nat.le_of_lt hfits
  · change Image.mk file.pageSize (behind file frames).size _ = Image.mk file.pageSize _ _
    rw [hsize]
    exact congrArg (Image.mk _ _) (funext hbytes)

theorem usable_behind (file : PageFile) (hlarge : minPageSize ≤ file.pageSize)
    (hpages : file.content.length % file.pageSize = 0) (hreach : file.content.length ≤ reach + file.pageSize)
    {frames : Nat} (hframes : 1 ≤ frames) :
    (behind file frames).Usable ∧ (behind file frames).image =
      { pageSize := file.pageSize, size := file.content.length, byte := file.content.byteAt } := by
  obtain ⟨hready, himage⟩ := ready_behind file (Nat.lt_of_lt_of_le (by decide) hlarge) hpages (by
    unfold reach at hreach
    unfold minPageSize at hlarge
    omega) hframes
  refine ⟨⟨hready.sound, rfl, hready.size, hlarge, ?_⟩, himage⟩
  have hsize : (behind file frames).size = file.content.length := congrArg Image.size himage
  rw [hsize]
  exact hreach

theorem close_apply (hready : file.Ready) :
    ∃ file', (PagedStorage.close : M Unit) file = (.ok (), file') ∧ file'.image = file.image ∧ file'.closed = true ∧
      file'.cache.file.pageSize = file.pageSize ∧ file'.onDisk.length = file.size ∧
      ∀ i, file'.onDisk.byteAt i = file.image.byte i := by
  obtain ⟨cache', hflush, hsound, hkeeps, hdisk⟩ := PageCache.flush_keeps hready.sound
  refine ⟨{ file with cache := cache', closed := true }, ?_, Ready.image_of_keeps hkeeps, rfl, hkeeps.pageSize,
    hkeeps.length.trans hready.size.symm, hdisk nofun⟩
  change close file = _
  unfold close
  rw [get_bind_apply, hready.opened]
  change onCache PageCache.flush { file with closed := true } = _
  rw [onCache_apply]
  change ((PageCache.flush file.cache).1, _) = _
  rw [hflush]

/-- A file behind a cache of one frame or more keeps the contract, and no call on it fails. -/
def contract (frames : Nat) (hframes : 1 ≤ frames) : StorageContract CachedFile where
  image := image
  Usable := Usable
  fallible := False
  reopen file := behind file.cache.file frames
  wellFormed {file} h := by
    refine ⟨h.ready.size_mod, fun i hi => PageCache.byteAt_of_length_le h.sound ?_⟩
    change file.onDisk.length ≤ i
    rw [← h.size]
    exact hi
  pageSize_eq _ := rfl
  read h hbound := by
    obtain ⟨file', happly, hbecomes⟩ := read_becomes h hbound
    unfold Serves
    rw [happly]
    exact ⟨hbecomes.usable, rfl, hbecomes.image⟩
  write h hbound := by
    obtain ⟨file', happly, hbecomes⟩ := write_becomes h hbound
    unfold Serves
    rw [happly]
    exact ⟨hbecomes.usable, hbecomes.image⟩
  size h := by
    unfold Serves
    rw [size_apply h.opened]
    exact ⟨h, rfl, rfl⟩
  grow h hreach := by
    obtain ⟨file', happly, hbecomes⟩ := grow_becomes h hreach
    unfold Serves
    rw [happly]
    refine ⟨hbecomes.usable, ?_⟩
    dsimp only
    rw [hbecomes.image]
    exact ⟨rfl, Image.le_size_extend _ h.ready.pos, Nat.le_max_left ..⟩
  flush h := by
    obtain ⟨file', happly, hbecomes, -⟩ := flush_becomes h
    unfold Serves
    rw [happly]
    exact ⟨hbecomes.usable, hbecomes.image⟩
  close {file} h := by
    obtain ⟨file', happly, himage, -, hpageSize, hlength, hdisk⟩ := close_apply h.ready
    have hlength' : file'.cache.file.content.length = file.size := hlength
    obtain ⟨husable, hreopened⟩ := usable_behind file'.cache.file (by rw [hpageSize]; exact h.large)
      (by rw [hpageSize, hlength']; exact h.ready.size_mod) (by rw [hpageSize, hlength']; exact h.reached) hframes
    rw [happly]
    refine ⟨himage, husable, hreopened.trans ?_⟩
    change Image.mk _ _ _ = Image.mk file.pageSize file.size file.cache.byteAt
    rw [hpageSize, hlength']
    congr 1
    exact funext hdisk

end CachedFile

end RecordStore
