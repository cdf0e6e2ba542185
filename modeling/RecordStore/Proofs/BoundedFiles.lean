import RecordStore.Proofs.FlatFile
import RecordStore.Proofs.Moments

/-!
# Files of any page size

The file under a path may be opened with one page size and later with another one.  It becomes no longer than the longest
file of a store with the largest pages (`CachedFile.Bounded`), as every opening fills it up to whole pages and the larger
of two page sizes is a multiple of the other one (`openOrCreate_bounded`).  So every cached file that comes up keeps the
contract of storages (`CachedFile.boundedContract`).  What the disk lacks is said of the images at the moments of an
operation (`Session.lags_perform`).
-/

namespace RecordStore

open Bytes StorageView

/-- No file of a store is longer, whatever the size of its pages. -/
def maxFileSize : Nat := reach + maxPageSize

/-! ### Opening -/

/-- The page sizes of files divide the longest length. -/
theorem maxFileSize_mod {pageSize : Nat} (h : checkPageSize pageSize = .ok ()) : maxFileSize % pageSize = 0 := by
  obtain ⟨log, -, hhigh, rfl⟩ := log_of_checkPageSize h
  have hpow : 2 ^ log ∣ 2 ^ 24 := Nat.pow_dvd_pow 2 hhigh
  exact Nat.mod_eq_zero_of_dvd (Nat.dvd_trans hpow (show 2 ^ 24 ∣ maxFileSize by decide))

namespace PageFile

/-- What is opened holds what the file under the path does, filled up to whole pages. -/
theorem openOrCreate_eq_ok {path : String} {entry : Entry} {pageSize : Nat} {file : PageFile}
    (h : openOrCreate path entry pageSize = .ok file) :
    checkPageSize pageSize = .ok () ∧ file.pageSize = pageSize ∧ file.content.length % pageSize = 0 ∧
      ∃ content, entry.Provides content ∧ file.content.byteAt = content.byteAt ∧
        ∀ bound, bound % pageSize = 0 → content.length ≤ bound → file.content.length ≤ bound := by
  unfold openOrCreate at h
  rcases hpageSize : checkPageSize pageSize with e | ⟨⟩
  · rw [hpageSize] at h
    cases h
  rw [hpageSize] at h
  refine ⟨rfl, ?_⟩
  cases entry with
  | blocked cause => cases h
  | missing =>
    cases h
    exact ⟨rfl, Nat.zero_mod _, .empty, .inr ⟨rfl, rfl⟩, rfl, fun _ _ hle => hle⟩
  | regular content =>
    simp only [bind, Except.bind] at h
    -- a file that ends inside a page is filled up to the end of that page
    split_ifs at h with hpages hmax
    · cases h
      exact ⟨rfl, hpages, content, .inl rfl, rfl, fun _ _ hle => hle⟩
    · cases h
      have hpos := (supported_of_checkPageSize hpageSize).pos
      refine ⟨rfl, Nat.mul_mod_left .., content, .inl rfl, funext (content.byteAt_setLength_page hpos),
        fun bound hbound hle => ?_⟩
      obtain ⟨pages, rfl⟩ := Nat.dvd_of_mod_eq_zero hbound
      rw [SparseFile.length_setLength, Nat.mul_comm]
      refine Nat.mul_le_mul_left _ ((Nat.div_lt_iff_lt_mul hpos).2 ?_)
      rw [Nat.mul_comm]
      refine Nat.lt_of_le_of_ne hle fun heq => hpages ?_
      rw [heq]
      exact Nat.mul_mod_right ..

end PageFile

namespace CachedFile

variable {file file' : CachedFile}

/-- In use, and no longer than the longest file of a store. -/
structure Bounded (file : CachedFile) : Prop where
  ready : file.Ready
  large : minPageSize ≤ file.pageSize
  small : file.pageSize ≤ maxPageSize
  length : file.size ≤ maxFileSize

theorem Bounded.of_turnsInto (h : file.Bounded) {img : Image} (hturns : file.TurnsInto file' img)
    (hpageSize : img.pageSize = file.pageSize) (hlength : img.size ≤ maxFileSize) : file'.Bounded := by
  have hsame : file'.pageSize = file.pageSize := hturns.pageSize_eq.trans hpageSize
  exact ⟨hturns.ready, hsame ▸ h.large, hsame ▸ h.small, hturns.size_eq ▸ hlength⟩

/-- In use as the file of a store is, if it is no longer than such a file with pages of this size. -/
theorem Bounded.usable (h : file.Bounded) (hreach : file.size ≤ reach + file.pageSize) : file.Usable :=
  ⟨h.ready.sound, h.ready.opened, h.ready.size, h.large, hreach⟩

theorem bounded_behind (file : PageFile) (hlarge : minPageSize ≤ file.pageSize) (hsmall : file.pageSize ≤ maxPageSize)
    (hpages : file.content.length % file.pageSize = 0) (hlength : file.content.length ≤ maxFileSize) {frames : Nat}
    (hframes : 1 ≤ frames) : (behind file frames).Bounded ∧ (behind file frames).image =
      { pageSize := file.pageSize, size := file.content.length, byte := file.content.byteAt } := by
  have hfits : file.content.length < 2 ^ 32 * file.pageSize := by
    have hlimit : maxFileSize < 2 ^ 32 * minPageSize := by decide
    exact Nat.lt_of_le_of_lt hlength (Nat.lt_of_lt_of_le hlimit (Nat.mul_le_mul_left _ hlarge))
  obtain ⟨hready, himage⟩ := ready_behind file (Nat.lt_of_lt_of_le (by decide) hlarge) hpages hfits hframes
  have hsize : (behind file frames).size = file.content.length := congrArg Image.size himage
  exact ⟨⟨hready, hlarge, hsmall, hsize ▸ hlength⟩, himage⟩

theorem openOrCreate_bounded {path : String} {entry : Entry} {pageSize frames : Nat}
    (h : openOrCreate path entry pageSize frames = .ok file) (hframes : 1 ≤ frames)
    (hlength : ∀ content, entry.Provides content → content.length ≤ maxFileSize) :
    file.Bounded ∧ file.pageSize = pageSize ∧ file.onDisk.byteAt = file.image.byte ∧
      ∃ content, entry.Provides content ∧ file.image.byte = content.byteAt := by
  unfold openOrCreate at h
  rcases hopen : PageFile.openOrCreate path entry pageSize with e | opened
  · rw [hopen] at h
    cases h
  rw [hopen] at h
  cases h
  obtain ⟨hpageSize, hsame, hpages, content, hentry, hbytes, hleast⟩ := PageFile.openOrCreate_eq_ok hopen
  obtain ⟨hlarge, hsmall⟩ := le_of_checkPageSize hpageSize
  rw [← hsame] at hlarge hsmall hpages
  obtain ⟨hbounded, himage⟩ := bounded_behind opened hlarge hsmall hpages
    (hleast _ (maxFileSize_mod hpageSize) (hlength content hentry)) hframes
  have hbyte : (behind opened frames).image.byte = opened.content.byteAt := congrArg Image.byte himage
  exact ⟨hbounded, hsame, hbyte.symm, content, hentry, hbyte.trans hbytes⟩

/-! ### The contract -/

/-- A file behind a cache keeps the contract as long as it is no longer than the longest file of a store. -/
def boundedContract : StorageContract CachedFile where
  image := image
  Usable := Bounded
  fallible := False
  reopen file := behind file.cache.file 1
  wellFormed {file} h := by
    refine ⟨h.ready.size_mod, fun i hi => PageCache.byteAt_of_length_le h.ready.sound ?_⟩
    change file.onDisk.length ≤ i
    rw [← h.ready.size]
    exact hi
  pageSize_eq _ := rfl
  read h hbound := by
    obtain ⟨file', happly, hturns⟩ := read_turnsInto h.ready hbound
    unfold Serves
    rw [happly]
    exact ⟨h.of_turnsInto hturns rfl h.length, rfl, hturns.image⟩
  write h hbound := by
    obtain ⟨file', happly, hturns⟩ := write_turnsInto h.ready hbound
    unfold Serves
    rw [happly]
    exact ⟨h.of_turnsInto hturns rfl h.length, hturns.image⟩
  size h := by
    unfold Serves
    rw [size_apply h.ready.opened]
    exact ⟨h, rfl, rfl⟩
  grow {file target} h hreach := by
    have hlarge := h.large
    have hsmall := h.small
    have hroom : target ≤ 2 ^ 32 * file.pageSize := by
      unfold minPageSize at hlarge
      unfold reach at hreach
      omega
    obtain ⟨file', happly, hturns⟩ := grow_turnsInto h.ready hroom
    have hround := Nat.div_mul_le_self (target + file.pageSize - 1) file.pageSize
    have hgrown : (file.image.extend target).size ≤ maxFileSize := by
      refine Nat.max_le.2 ⟨h.length, ?_⟩
      change (target + file.pageSize - 1) / file.pageSize * file.pageSize ≤ reach + maxPageSize
      omega
    unfold Serves
    rw [happly]
    refine ⟨h.of_turnsInto hturns rfl hgrown, ?_⟩
    dsimp only
    rw [hturns.image]
    exact ⟨rfl, Image.le_size_extend _ h.ready.pos, Nat.le_max_left ..⟩
  flush h := by
    obtain ⟨file', happly, hturns, -⟩ := flush_turnsInto h.ready
    unfold Serves
    rw [happly]
    exact ⟨h.of_turnsInto hturns rfl h.length, hturns.image⟩
  close {file} h := by
    obtain ⟨file', happly, himage, -, hpageSize, hlength, hdisk⟩ := close_apply h.ready
    have hlength' : file'.cache.file.content.length = file.size := hlength
    obtain ⟨hbounded, hreopened⟩ := bounded_behind file'.cache.file (hpageSize ▸ h.large) (hpageSize ▸ h.small)
      (by rw [hpageSize, hlength']; exact h.ready.size_mod) (hlength' ▸ h.length) (Nat.le_refl 1)
    rw [happly]
    refine ⟨himage, hbounded, hreopened.trans ?_⟩
    change Image.mk _ _ _ = Image.mk file.pageSize file.size file.cache.byteAt
    rw [hpageSize, hlength']
    congr 1
    exact funext hdisk

/-- The same with calls that may fail. -/
abbrev failingFile : StorageContract (Unreliable CachedFile) := Unreliable.contract boundedContract

end CachedFile

/-! ### What the disk lacks -/

namespace CachedFile

variable {α β : Type} {version : Image → Prop} {storage : Unreliable CachedFile}

/-- Pages on disk are from versions after a dialogue at whose moments the file is a version. -/
private theorem lags_dialogue {dialogue : Dialogue β} (hlags : storage.inner.Lags version)
    (hmoments : ∀ moment ∈ dialogue.moments storage, failingFile.Usable moment ∧ version moment.inner.image) :
    (dialogue.run storage).2.inner.Lags version := by
  refine Dialogue.run_induction (Q := fun moment => moment.inner.Lags version) hmoments
    (fun call moment hbefore hafter hlags => ?_) hlags
  have hbounded : moment.inner.Bounded := hbefore.1.1
  have hinner := Unreliable.inner_run hbefore.1.2.2 call
  generalize (call.run moment).2 = next at hinner hafter ⊢
  rcases hinner with hsame | hrun
  · rw [hsame]
    exact hlags
  · rcases run_turnsInto hbounded.ready hbounded.large call with hsame | ⟨hturns, -⟩
    · rw [hrun, hsame]
      exact hlags
    · rw [← hrun] at hturns
      exact hturns.lags _ hbefore.2 hafter.2 hlags

/-- If all images that work on slots may leave are versions, pages on disk are from versions once it is over. -/
theorem lags_run {act : ∀ (σ : Type) [PagedStorage σ], SlotM σ α} (huniform : Uniform act)
    (husable : failingFile.Usable storage)
    (hruns : (Unreliable.contract failingFile).Runs (act _) storage.inner.image fun _ after => version after)
    (hlags : storage.inner.Lags version) : (act _ storage).2.inner.Lags version := by
  obtain ⟨dialogue, hrun, hmoments⟩ := Session.moments_run huniform husable hruns
  rw [hrun]
  refine lags_dialogue hlags fun moment hmoment => ?_
  obtain ⟨husable', -, hversion⟩ := hmoments moment hmoment
  exact ⟨husable', hversion⟩

end CachedFile

namespace Session

open CachedFile (failingFile)

/-- The same of an operation. -/
theorem lags_perform {α : Type} {session : Session (Unreliable CachedFile)} {version : Image → Prop}
    {act : ∀ (σ : Type) [PagedStorage σ], SessionM σ α} (huniform : UniformIn (session.on ()) fun σ _ _ => act σ)
    (husable : failingFile.Usable session.storage)
    (hperforms : Performs (Unreliable.contract failingFile).toStorageView (act _)
      (session.seen failingFile.toStorageView) fun _ after => version after.storage)
    (hlags : session.storage.inner.Lags version) :
    (act _ session).2.storage.inner.Lags version := by
  obtain ⟨dialogue, hstorage, hmoments⟩ := moments_perform huniform husable hperforms
  rw [hstorage]
  refine CachedFile.lags_dialogue hlags fun moment hmoment => ?_
  obtain ⟨husable', result, after, himage, hversion⟩ := hmoments moment hmoment
  exact ⟨husable', (himage ▸ hversion : version (failingFile.image moment))⟩

end Session

end RecordStore
