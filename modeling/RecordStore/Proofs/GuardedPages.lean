import Mathlib
import RecordStore.Proofs.Guarding
import RecordStore.Proofs.Runs

/-!
# Guarded caches are open shelves

A holder of guards on a cache is answered as if every page of the file stood on an open shelf, from which no more than
a certain number of pages may be held at once (`PageShelf`).  The shelf knows neither frames nor a queue nor what is
written back: it answers with the bytes last written, for every sequence of calls and whatever the cache evicts on the
way (`guarded_cache_is_shelf`).
-/

namespace RecordStore

open Bytes

/-- What the holder of guards may ask for. -/
inductive GuardCall
  | append (name : String)
  | fetch (name : String) (page : PageNumber) (mode : GuardMode)
  | bytes (name : String) (position length : Nat)
  | setBytes (name : String) (position : Nat) (data : ByteArray)
  | drop (name : String)
  | flush

inductive GuardReply
  | page (page : PageNumber)
  | bytes (data : ByteArray)
  | done
deriving DecidableEq

/-- A reply, or an error. -/
abbrev GuardResult := Except GuardError GuardReply

/-! ### The shelf -/

/-- A page that somebody holds. -/
structure Hold where
  page : PageNumber
  mode : GuardMode

/-- Pages that are all at hand, and who holds which; at most `room` pages may be held at once. -/
structure PageShelf where
  image : Image
  room : Nat
  holds : List (String × Hold)

namespace PageShelf

variable {shelf : PageShelf}

/-- The pages of a file, none of them held. -/
def new (file : PageFile) (room : Nat) : PageShelf :=
  { image := { pageSize := file.pageSize, size := file.content.length, byte := file.content.byteAt }
    room, holds := [] }

def release (shelf : PageShelf) (name : String) : PageShelf := { shelf with holds := shelf.holds.filter (·.1 ≠ name) }

def keep (shelf : PageShelf) (name : String) (hold : Hold) : PageShelf :=
  { shelf with holds := (name, hold) :: shelf.holds }

/-- The pages that are held, each counted once. -/
def pagesHeld (shelf : PageShelf) : List PageNumber := (shelf.holds.map (·.2.page)).dedup

/-- No further page may be held. -/
def Crowded (shelf : PageShelf) : Prop := shelf.room ≤ shelf.pagesHeld.length

instance : Decidable shelf.Crowded := inferInstanceAs (Decidable (_ ≤ _))

/-- The bytes of a page. -/
def read (shelf : PageShelf) (page : PageNumber) : ByteArray :=
  shelf.image.read (page * shelf.image.pageSize) shelf.image.pageSize

/-- A hold is given up before another one is taken under its name.  Bytes past the end of a page are not written. -/
def answer (call : GuardCall) (shelf : PageShelf) : GuardResult × PageShelf :=
  match call with
  | .append name =>
    let shelf := shelf.release name
    let page := shelf.image.size / shelf.image.pageSize
    if shelf.Crowded then (.error (.storage (.cacheFull shelf.room)), shelf)
    else
      (.ok (.page page),
        { shelf with image := { shelf.image with size := shelf.image.size + shelf.image.pageSize } }.keep name
          { page, mode := .exclusive })
  | .fetch name page mode =>
    let shelf := shelf.release name
    if page ∉ shelf.pagesHeld ∧ shelf.Crowded then (.error (.storage (.cacheFull shelf.room)), shelf)
    else if shelf.image.size ≤ page * shelf.image.pageSize then (.error (.storage (.pageNotFound page)), shelf)
    else (.ok (.bytes (shelf.read page)), shelf.keep name { page, mode })
  | .bytes name position length =>
    match shelf.holds.lookup name with
    | none => (.error .unknownGuard, shelf)
    | some hold => (.ok (.bytes ((shelf.read hold.page).extract position (position + length))), shelf)
  | .setBytes name position data =>
    match shelf.holds.lookup name with
    | none => (.error .unknownGuard, shelf)
    | some hold =>
      if hold.mode = .shared then (.error .readOnly, shelf)
      else
        (.ok .done,
          { shelf with image := shelf.image.write (hold.page * shelf.image.pageSize + position)
                        (data.extract 0 (shelf.image.pageSize - position)) })
  | .drop name =>
    match shelf.holds.lookup name with
    | none => (.error .unknownGuard, shelf)
    | some _ => (.ok .done, shelf.release name)
  | .flush => (.ok .done, shelf)

@[simp] theorem room_release (shelf : PageShelf) (name : String) : (shelf.release name).room = shelf.room := rfl

@[simp] theorem pageSize_answer (call : GuardCall) (shelf : PageShelf) :
    (shelf.answer call).2.image.pageSize = shelf.image.pageSize := by
  cases call <;> simp only [answer] <;> split <;> first | rfl | split <;> rfl

theorem size_le_answer (call : GuardCall) (shelf : PageShelf) :
    shelf.image.size ≤ (shelf.answer call).2.image.size := by
  cases call with
  | append name =>
    simp only [answer]
    split
    · exact Nat.le_refl _
    · exact Nat.le_add_right ..
  | flush => exact Nat.le_refl _
  | _ =>
    simp only [answer]
    split <;> first | exact Nat.le_refl _ | split <;> exact Nat.le_refl _

theorem pageSize_runAll (calls : List GuardCall) (shelf : PageShelf) :
    (runAll answer calls shelf).2.image.pageSize = shelf.image.pageSize := by
  induction calls generalizing shelf with
  | nil => rfl
  | cons call rest ih => rw [runAll_cons, ih, pageSize_answer]

theorem size_le_runAll (calls : List GuardCall) (shelf : PageShelf) :
    shelf.image.size ≤ (runAll answer calls shelf).2.image.size := by
  induction calls generalizing shelf with
  | nil => exact Nat.le_refl _
  | cons call rest ih => exact Nat.le_trans (shelf.size_le_answer call) (ih _)

end PageShelf

/-! ### The cache -/

namespace GuardedCache

variable {held : GuardedCache}

def replying {α : Type} (reply : α → GuardReply) (act : GuardedM α) (held : GuardedCache) :
    GuardResult × GuardedCache := ((act held).1.map reply, (act held).2)

/-- A flush is made here whatever guards are held; `Waits` says when it would not come to an end. -/
def answer (call : GuardCall) (held : GuardedCache) : GuardResult × GuardedCache :=
  match call with
  | .append name => replying .page (append name) held
  | .fetch name page mode => replying .bytes (fetch name page mode) held
  | .bytes name position length => replying .bytes (bytes name position length) held
  | .setBytes name position data => replying (fun _ => .done) (setBytes name position data) held
  | .drop name => replying (fun _ => .done) (drop name) held
  | .flush => replying (fun _ => .done) (onCache PageCache.flush) held

/-- The call would wait for a guard of the caller: for one that stands against the guard it asks for, or for one that
may still write to a page which has to be written back. -/
def Waits (held : GuardedCache) : GuardCall → Prop
  | .fetch _ page mode => held.blocks page mode = true
  | .flush => ∃ entry ∈ held.guards, entry.2.mode = .exclusive ∧
      (held.cache.frames[entry.2.frame]?).any (·.dirty) = true
  | .append _ | .bytes .. | .setBytes .. | .drop _ => False

instance (held : GuardedCache) (call : GuardCall) : Decidable (held.Waits call) := by
  cases call <;> unfold Waits <;> infer_instance

/-- No call has to wait for the caller. -/
def Unhindered : List GuardCall → GuardedCache → Prop
  | [], _ => True
  | call :: rest, held => ¬held.Waits call ∧ Unhindered rest (held.answer call).2

instance decidableUnhindered : (calls : List GuardCall) → (held : GuardedCache) → Decidable (Unhindered calls held)
  | [], _ => .isTrue trivial
  | call :: rest, held => @instDecidableAnd _ _ _ (decidableUnhindered rest (held.answer call).2)

end GuardedCache

/-! ### Frames and pages held -/

namespace PageCache

/-- The frames that guards pin. -/
private def pinnedFrames (guards : List Guard) : Finset Nat := (guards.map (·.frame)).toFinset

private theorem mem_pinnedFrames {guards : List Guard} {index : Nat} :
    index ∈ pinnedFrames guards ↔ 0 < pinsOn guards index := by
  simp [pinnedFrames, pinsOn, List.countP_pos_iff]

namespace Sound

variable {cache : PageCache} {guards : List Guard} (h : cache.Sound none guards)

include h

/-- A page is held in one frame, and a frame holds one page. -/
private theorem page_eq_iff {guard guard' : Guard} (hguard : guard ∈ guards) (hguard' : guard' ∈ guards) :
    guard.page = guard'.page ↔ guard.frame = guard'.frame := by
  constructor
  · intro hsame
    have hresident := h.guarded guard hguard
    rw [hsame, h.guarded guard' hguard'] at hresident
    exact (Option.some.inj hresident).symm
  · intro hsame
    obtain ⟨frame, hframe, hheld⟩ := h.exists_frame hguard
    obtain ⟨frame', hframe', hheld'⟩ := h.exists_frame hguard'
    rw [hsame, hframe'] at hframe
    obtain rfl := Option.some.inj hframe
    exact Option.some.inj (hheld.symm.trans hheld')

/-- So there are as many frames pinned as pages held. -/
private theorem card_pinnedFrames : (pinnedFrames guards).card = (guards.map (·.page)).dedup.length := by
  let frameOf (page : Nat) : Nat := (cache.table[page]?).getD 0
  have hframeOf : ∀ guard ∈ guards, frameOf guard.page = guard.frame := fun guard hguard => by
    simp [frameOf, h.guarded guard hguard]
  have himage : pinnedFrames guards = (guards.map (·.page)).toFinset.image frameOf := by
    ext index
    simp only [pinnedFrames, List.mem_toFinset, List.mem_map, Finset.mem_image]
    constructor
    · rintro ⟨guard, hguard, rfl⟩
      exact ⟨guard.page, ⟨guard, hguard, rfl⟩, hframeOf guard hguard⟩
    · rintro ⟨_, ⟨guard, hguard, rfl⟩, rfl⟩
      exact ⟨guard, hguard, (hframeOf guard hguard).symm⟩
  have hinjective : Set.InjOn frameOf (guards.map (·.page)).toFinset := by
    intro page hpage page' hpage' heq
    obtain ⟨guard, hguard, rfl⟩ := List.mem_map.1 (List.mem_toFinset.1 hpage)
    obtain ⟨guard', hguard', rfl⟩ := List.mem_map.1 (List.mem_toFinset.1 hpage')
    rw [hframeOf guard hguard, hframeOf guard' hguard'] at heq
    exact (h.page_eq_iff hguard hguard').2 heq
  rw [himage, Finset.card_image_of_injOn hinjective, List.card_toFinset]

private theorem pinnedFrames_subset : pinnedFrames guards ⊆ Finset.range cache.frames.size := by
  intro index hindex
  obtain ⟨guard, hguard, rfl⟩ := List.mem_map.1 (List.mem_toFinset.1 hindex)
  obtain ⟨frame, hframe, -⟩ := h.exists_frame hguard
  exact Finset.mem_range.2 (Array.getElem?_eq_some_iff.1 hframe).1

/-- All frames are pinned if as many pages are held as there may be frames. -/
theorem full_iff_length : cache.Full ↔ cache.maxFrames ≤ (guards.map (·.page)).dedup.length := by
  have hsubset := h.pinnedFrames_subset
  rw [← h.card_pinnedFrames]
  constructor
  · rintro ⟨hsize, hpinned⟩
    have hall : Finset.range cache.frames.size ⊆ pinnedFrames guards := by
      intro index hindex
      have hframe := Array.getElem?_eq_getElem (Finset.mem_range.1 hindex)
      rw [mem_pinnedFrames, ← (h.frame index _ hframe).2]
      exact hpinned index _ hframe
    have hle := Finset.card_le_card hall
    rwa [Finset.card_range, hsize] at hle
  · intro hle
    have hmost := Finset.card_le_card hsubset
    rw [Finset.card_range] at hmost
    have hbounded := h.bounded
    refine ⟨by omega, fun index frame hframe => ?_⟩
    have hall := Finset.eq_of_subset_of_card_le hsubset (by rw [Finset.card_range]; omega)
    rw [(h.frame index frame hframe).2, ← mem_pinnedFrames, hall]
    exact Finset.mem_range.2 (Array.getElem?_eq_some_iff.1 hframe).1

end Sound

end PageCache

/-- In a full cache a frame holds a page only if somebody holds it. -/
theorem PageCache.Sound.exists_guard_of_full {cache : PageCache} {guards : List Guard} (h : cache.Sound none guards)
    (hfull : cache.Full) {page index : Nat} (hresident : cache.table[page]? = some index) :
    ∃ guard ∈ guards, guard.page = page := by
  obtain ⟨frame, hframe, hheld⟩ := (h.table page index).1 hresident
  have hpinned := hfull.2 index frame hframe
  rw [(h.frame index frame hframe).2] at hpinned
  obtain ⟨guard, hguard, heq⟩ := List.countP_pos_iff.1 hpinned
  obtain ⟨frame', hframe', hheld'⟩ := h.exists_frame hguard
  rw [of_decide_eq_true heq, hframe] at hframe'
  obtain rfl := Option.some.inj hframe'
  exact ⟨guard, hguard, Option.some.inj (hheld'.symm.trans hheld)⟩

/-! ### One call -/

namespace PageShelf

open GuardedCache

variable {shelf : PageShelf} {held : GuardedCache} {name : String}

/-- What the shelf knows of a guard. -/
def holdOf (guard : Guard) : Hold := { page := guard.page, mode := guard.mode }

/-- The pages of the shelf are what the cache stands for, and the same ones are held. -/
structure Mirrors (shelf : PageShelf) (held : GuardedCache) : Prop where
  sound : held.Sound
  image : held.image = shelf.image
  room : held.cache.maxFrames = shelf.room
  holds : shelf.holds = held.guards.map (Prod.map id holdOf)

namespace Mirrors

section

variable (h : shelf.Mirrors held)

include h

theorem pageSize_eq : held.cache.pageSize = shelf.image.pageSize := congrArg Image.pageSize h.image

theorem lookup_holds (name : String) : shelf.holds.lookup name = (held.find? name).map holdOf := by
  rw [h.holds]
  unfold find?
  induction held.guards with
  | nil => rfl
  | cons entry rest ih =>
    obtain ⟨other, guard⟩ := entry
    change ((other, holdOf guard) :: rest.map (Prod.map id holdOf)).lookup name = _
    rw [List.lookup_cons, List.lookup_cons, ih]
    cases name == other <;> rfl

theorem release (name : String) : (shelf.release name).Mirrors (held.release name) := by
  obtain ⟨hsound, hkeeps⟩ := h.sound.release name
  refine ⟨hsound, hkeeps.image_eq.trans h.image, hkeeps.maxFrames.trans h.room, ?_⟩
  change shelf.holds.filter _ = _
  rw [guards_release, h.holds, List.filter_map]
  rfl

theorem pagesHeld_eq : shelf.pagesHeld = ((held.guards.map Prod.snd).map (·.page)).dedup := by
  unfold pagesHeld
  rw [h.holds, List.map_map, List.map_map]
  rfl

theorem crowded_iff : shelf.Crowded ↔ held.cache.Full := by
  rw [h.sound.cache.full_iff_length, ← h.pagesHeld_eq, h.room]
  rfl

/-- A page that is held is resident, and a resident page is held if the cache is full. -/
theorem refused_iff (page : Nat) :
    page ∉ shelf.pagesHeld ∧ shelf.Crowded ↔ held.cache.table[page]? = none ∧ held.cache.Full := by
  rw [h.crowded_iff, h.pagesHeld_eq]
  refine and_congr_left fun hfull => ?_
  rw [List.mem_dedup, List.mem_map, not_iff_comm, ← ne_eq, Option.ne_none_iff_exists']
  constructor
  · rintro ⟨index, hresident⟩
    exact h.sound.cache.exists_guard_of_full hfull hresident
  · rintro ⟨guard, hguard, rfl⟩
    exact ⟨guard.frame, h.sound.cache.guarded guard hguard⟩

theorem read_eq {guard : Guard} (hguard : guard ∈ held.guards.map Prod.snd) :
    shelf.read guard.page = held.cache.frameData guard.frame := by
  rw [h.sound.cache.frameData_eq hguard]
  unfold read
  rw [← h.image]
  rfl

end

/-- A page more is held. -/
private theorem keep (h : shelf.Mirrors (held.release name)) {cache : PageCache} {guard : Guard}
    (hsound : cache.Sound none (guard :: (held.release name).guards.map Prod.snd)) {image : Image}
    (himage : cache.image = image) (hmaxFrames : cache.maxFrames = (held.release name).cache.maxFrames) :
    ({ shelf with image }.keep name (holdOf guard)).Mirrors
      { cache, guards := (name, guard) :: (held.release name).guards } := by
  refine ⟨h.sound.keep hsound, himage, hmaxFrames.trans h.room, ?_⟩
  change (name, holdOf guard) :: shelf.holds = _
  rw [h.holds]
  rfl

end Mirrors

/-- The cache replies as the shelf does, and still stands for it. -/
private def Agree (shelf : PageShelf) (held : GuardedCache) (call : GuardCall) : Prop :=
  (held.answer call).1 = (shelf.answer call).1 ∧ (shelf.answer call).2.Mirrors (held.answer call).2

private theorem agree_of_replying {call : GuardCall} {α : Type} {reply : α → GuardReply} {act : GuardedM α}
    {result : Except GuardError α} {shelf' : PageShelf} {held' : GuardedCache}
    (hanswer : held.answer call = replying reply act held) (hact : act held = (result, held'))
    (hshelf : shelf.answer call = (result.map reply, shelf')) (hmirrors : shelf'.Mirrors held') :
    Agree shelf held call := by
  unfold Agree
  rw [hanswer, hshelf]
  unfold replying
  rw [hact]
  exact ⟨rfl, hmirrors⟩

namespace Mirrors

variable (h : shelf.Mirrors held)

include h

/-- The cache has changed, but not what it stands for. -/
private theorem of_keeps {cache : PageCache} (hsound : cache.Sound none (held.guards.map Prod.snd))
    (hkeeps : held.cache.Keeps cache) : shelf.Mirrors { held with cache } :=
  ⟨⟨hsound, h.sound.names⟩, hkeeps.image_eq.trans h.image, hkeeps.maxFrames.trans h.room, h.holds⟩

private theorem agree_append (hfits : shelf.image.size < 2 ^ 32 * shelf.image.pageSize) (name : String) :
    Agree shelf held (.append name) := by
  have hreleased := h.release name
  have happly := append_apply name held
  by_cases hfull : (held.release name).cache.Full
  · rw [PageCache.appendPage_full hreleased.sound.cache hfull] at happly
    refine agree_of_replying rfl happly ?_ hreleased
    simp only [answer]
    rw [if_pos (hreleased.crowded_iff.2 hfull), ← hreleased.room]
    rfl
  · have hpageSize : (held.release name).cache.pageSize = shelf.image.pageSize := hreleased.pageSize_eq
    have hlength : (held.release name).cache.file.content.length = shelf.image.size :=
      congrArg Image.size hreleased.image
    have hcount : (held.release name).cache.file.content.length / (held.release name).cache.pageSize < 2 ^ 32 := by
      rw [hlength, hpageSize]
      apply Nat.div_lt_of_lt_mul
      rwa [Nat.mul_comm]
    obtain ⟨frame, cache, happend, hsound, hrefreshes, hgrown⟩ :=
      PageCache.appendPage_refreshes hreleased.sound.cache hfull hcount .exclusive
    rw [happend] at happly
    have himage : cache.image = { shelf.image with size := shelf.image.size + shelf.image.pageSize } := by
      have hbyte : cache.byteAt = shelf.image.byte :=
        (funext hrefreshes.byteAt).trans (congrArg Image.byte hreleased.image)
      unfold PageCache.image
      rw [hrefreshes.pageSize, hgrown, hlength, hpageSize, hbyte]
    refine agree_of_replying rfl happly ?_ (hreleased.keep hsound himage hrefreshes.maxFrames)
    simp only [answer]
    rw [if_neg (mt hreleased.crowded_iff.1 hfull), hlength, hpageSize]
    rfl

private theorem agree_fetch {page : PageNumber} {mode : GuardMode} (hblocks : held.blocks page mode = false)
    (name : String) : Agree shelf held (.fetch name page mode) := by
  have hreleased := h.release name
  have happly := fetch_apply name hblocks
  have hinside : (held.release name).cache.file.HasPage page ↔
      ¬(shelf.release name).image.size ≤ page * (shelf.release name).image.pageSize := by
    have himage : (held.release name).cache.image = (shelf.release name).image := hreleased.image
    rw [hreleased.sound.cache.hasPage_iff_lt, himage, hreleased.pageSize_eq, Nat.not_le]
  have hrefused := hreleased.refused_iff page
  by_cases hnone : (held.release name).cache.table[page]? = none ∧ (held.release name).cache.Full
  · rw [PageCache.pin_full hreleased.sound.cache hnone.2 hnone.1] at happly
    refine agree_of_replying rfl happly ?_ hreleased
    simp only [answer]
    rw [if_pos (hrefused.2 hnone), ← hreleased.room]
    rfl
  · by_cases hpage : (held.release name).cache.file.HasPage page
    · obtain ⟨frame, cache, hpin, hsound, hkeeps⟩ :=
        PageCache.pin_keeps hreleased.sound.cache hpage (fun habsent hfull => hnone ⟨habsent, hfull⟩) mode
      rw [hpin] at happly
      have hmirrors := hreleased.keep hsound (hkeeps.image_eq.trans hreleased.image) hkeeps.maxFrames
      have hread := hmirrors.read_eq (List.mem_map_of_mem List.mem_cons_self)
      refine agree_of_replying rfl happly ?_ hmirrors
      simp only [answer]
      rw [if_neg (mt hrefused.1 hnone), if_neg (hinside.1 hpage), ← hread]
      rfl
    · -- a page that the file lacks is not in the table either, so the cache is not full
      have hfree : ¬(held.release name).cache.Full := by
        intro hfull
        cases hresident : (held.release name).cache.table[page]? with
        | none => exact hnone ⟨hresident, hfull⟩
        | some index => exact hpage (hreleased.sound.cache.hasPage hresident)
      obtain ⟨cache, hpin, hsound, hkeeps⟩ := PageCache.pin_missing hreleased.sound.cache hpage hfree
      rw [hpin] at happly
      refine agree_of_replying rfl happly ?_ (hreleased.of_keeps hsound hkeeps)
      simp only [answer]
      rw [if_neg (mt hrefused.1 hnone), if_pos (not_not.1 (mt hinside.2 hpage))]
      rfl

private theorem agree_bytes (name : String) (position length : Nat) :
    Agree shelf held (.bytes name position length) := by
  have happly := bytes_apply name position length held
  have hlookup := h.lookup_holds name
  cases hfind : held.find? name with
  | none =>
    rw [hfind] at happly hlookup
    refine agree_of_replying rfl happly ?_ h
    simp only [answer]
    rw [hlookup]
    rfl
  | some guard =>
    rw [hfind] at happly hlookup
    have hread := h.read_eq (List.mem_map_of_mem (mem_of_find? h.sound hfind))
    refine agree_of_replying rfl happly ?_ h
    simp only [answer]
    rw [hlookup, ← hread]
    rfl

private theorem agree_setBytes (name : String) (position : Nat) (data : ByteArray) :
    Agree shelf held (.setBytes name position data) := by
  have happly := setBytes_apply name position data held
  have hlookup := h.lookup_holds name
  cases hfind : held.find? name with
  | none =>
    rw [hfind] at happly hlookup
    refine agree_of_replying rfl happly ?_ h
    simp only [answer]
    rw [hlookup]
    rfl
  | some guard =>
    rw [hfind] at happly hlookup
    dsimp only at happly
    -- a shared guard does not write
    by_cases hmode : guard.mode = .shared
    · rw [if_pos hmode] at happly
      refine agree_of_replying rfl happly ?_ h
      simp only [answer]
      rw [hlookup]
      exact if_pos hmode
    · rw [if_neg hmode] at happly
      have hguard := List.mem_map_of_mem (f := Prod.snd) (mem_of_find? h.sound hfind)
      have hexclusive : guard.mode = .exclusive := by
        cases hcase : guard.mode with
        | shared => exact absurd hcase hmode
        | exclusive => rfl
      have hdata : position + (data.extract 0 (held.cache.pageSize - position)).size ≤ held.cache.pageSize ∨
          (data.extract 0 (held.cache.pageSize - position)).size = 0 := by
        rw [ByteArray.size_extract]
        omega
      obtain ⟨hsound, himage⟩ := PageCache.setBytes_keeps h.sound.cache hguard hexclusive hdata
      have hbefore : held.cache.image = shelf.image := h.image
      rw [hbefore, h.pageSize_eq] at himage
      rw [h.pageSize_eq] at happly hsound
      have hmirrors : Mirrors { shelf with
          image := shelf.image.write (guard.page * shelf.image.pageSize + position)
            (data.extract 0 (shelf.image.pageSize - position)) }
          { held with
            cache := held.cache.setBytes guard.frame position (data.extract 0 (shelf.image.pageSize - position)) } :=
        ⟨⟨hsound, h.sound.names⟩, himage, h.room, h.holds⟩
      refine agree_of_replying rfl happly ?_ hmirrors
      simp only [answer]
      rw [hlookup]
      exact if_neg hmode

private theorem agree_drop (name : String) : Agree shelf held (.drop name) := by
  have happly := drop_apply name held
  have hlookup := h.lookup_holds name
  cases hfind : held.find? name with
  | none =>
    rw [hfind] at happly hlookup
    refine agree_of_replying rfl happly ?_ h
    simp only [answer]
    rw [hlookup]
    rfl
  | some guard =>
    rw [hfind] at happly hlookup
    refine agree_of_replying rfl happly ?_ (h.release name)
    simp only [answer]
    rw [hlookup]
    rfl

private theorem agree_flush : Agree shelf held .flush := by
  obtain ⟨cache, hflush, hsound, hkeeps, -⟩ := PageCache.flush_keeps h.sound.cache
  have happly := onCache_apply PageCache.flush held
  rw [hflush] at happly
  exact agree_of_replying rfl happly rfl (h.of_keeps hsound hkeeps)

/-- Every call that does not wait is answered. -/
private theorem agree (hfits : shelf.image.size < 2 ^ 32 * shelf.image.pageSize) {call : GuardCall}
    (hwaits : ¬held.Waits call) : Agree shelf held call := by
  cases call with
  | append name => exact h.agree_append hfits name
  | fetch name page mode => exact h.agree_fetch (Bool.not_eq_true _ ▸ hwaits) name
  | bytes name position length => exact h.agree_bytes name position length
  | setBytes name position data => exact h.agree_setBytes name position data
  | drop name => exact h.agree_drop name
  | flush => exact h.agree_flush

end Mirrors

/-! ### All calls -/

/-- Calls one after the other. -/
private theorem Mirrors.run (h : shelf.Mirrors held) {calls : List GuardCall}
    (hfits : (runAll answer calls shelf).2.image.size < 2 ^ 32 * shelf.image.pageSize)
    (hfree : Unhindered calls held) :
    (runAll GuardedCache.answer calls held).1 = (runAll answer calls shelf).1 ∧
      (runAll answer calls shelf).2.Mirrors (runAll GuardedCache.answer calls held).2 := by
  induction calls generalizing shelf held with
  | nil => exact ⟨rfl, h⟩
  | cons call rest ih =>
    obtain ⟨hwaits, hrest⟩ := hfree
    rw [runAll_cons] at hfits ⊢
    rw [runAll_cons]
    obtain ⟨hreply, hmirrors⟩ := h.agree
      (Nat.lt_of_le_of_lt (Nat.le_trans (size_le_answer call shelf) (size_le_runAll _ _)) hfits) hwaits
    rw [← pageSize_answer call shelf] at hfits
    obtain ⟨hreplies, hmirrors'⟩ := ih hmirrors hfits hrest
    exact ⟨by rw [hreply, hreplies], hmirrors'⟩

/-- A flush while nobody writes brings all pages to the file. -/
private theorem Mirrors.flush_saves (h : shelf.Mirrors held) (hshared : ∀ entry ∈ held.guards, entry.2.mode = .shared) :
    ∃ after, GuardedCache.flush held = (.ok (), after) ∧ after.cache.file.content.length = shelf.image.size ∧
      ∀ i, after.cache.file.content.byteAt i = shelf.image.byte i := by
  obtain ⟨cache, hflush, -, hkeeps, hdisk⟩ := PageCache.flush_keeps h.sound.cache
  have hmodes : ∀ guard ∈ held.guards.map Prod.snd, guard.mode = .shared := by
    intro guard hguard
    obtain ⟨entry, hentry, rfl⟩ := List.mem_map.1 hguard
    exact hshared entry hentry
  refine ⟨{ held with cache }, ?_, hkeeps.length.trans (congrArg Image.size h.image), fun i => ?_⟩
  · rw [flush_apply hshared, onCache_apply, hflush]
  · rw [← h.image]
    exact hdisk hmodes i

end PageShelf

end RecordStore
