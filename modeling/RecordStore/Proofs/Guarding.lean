import Mathlib.Data.List.Nodup
import RecordStore.Proofs.Pinning

/-!
# Guards over a cache

What the requests of a holder of guards do to the cache below.  The guards that are held account for all pins of the
cache and have names of their own (`GuardedCache.Sound`), and each request keeps it so.
-/

namespace RecordStore

open Bytes

namespace GuardedCache

variable {held : GuardedCache} {name : String}

/-- The guards under their names account for the pins of the cache. -/
structure Sound (held : GuardedCache) : Prop where
  cache : held.cache.Sound none (held.guards.map Prod.snd)
  names : (held.guards.map Prod.fst).Nodup

/-- What the cache stands for. -/
def image (held : GuardedCache) : Image := held.cache.image

/-! ### Guards by name -/

private theorem lookup_eq_none {guards : List (String × Guard)} (h : guards.lookup name = none) :
    ∀ entry ∈ guards, entry.1 ≠ name := by
  induction guards with
  | nil => nofun
  | cons first rest ih =>
    obtain ⟨other, guard⟩ := first
    rw [List.lookup_cons] at h
    cases hname : name == other with
    | true =>
      rw [hname] at h
      cases h
    | false =>
      rw [hname] at h
      intro entry hentry
      rcases List.mem_cons.1 hentry with rfl | hentry
      · exact fun heq => beq_eq_false_iff_ne.1 hname heq.symm
      · exact ih h entry hentry

/-- A guard that is found by its name is taken out by its name, and no other one is. -/
private theorem perm_of_lookup {guards : List (String × Guard)} (hnames : (guards.map Prod.fst).Nodup) {guard : Guard}
    (h : guards.lookup name = some guard) : guards.Perm ((name, guard) :: guards.filter (·.1 ≠ name)) := by
  induction guards with
  | nil => cases h
  | cons first rest ih =>
    obtain ⟨other, found⟩ := first
    rw [List.map_cons, List.nodup_cons] at hnames
    rw [List.lookup_cons] at h
    cases hname : name == other with
    | true =>
      rw [hname] at h
      obtain rfl := beq_iff_eq.1 hname
      obtain rfl := Option.some.inj h
      have hkept : rest.filter (·.1 ≠ name) = rest := by
        apply List.filter_eq_self.2
        intro entry hentry
        apply decide_eq_true
        intro heq
        exact hnames.1 (List.mem_map.2 ⟨entry, hentry, heq⟩)
      rw [List.filter_cons_of_neg (by simp), hkept]
    | false =>
      rw [hname] at h
      have hne : other ≠ name := fun heq => beq_eq_false_iff_ne.1 hname heq.symm
      rw [List.filter_cons_of_pos (by simpa using hne)]
      exact ((ih hnames.2 h).cons _).trans (.swap ..)

theorem mem_of_find? (h : held.Sound) {guard : Guard} (hfind : held.find? name = some guard) :
    (name, guard) ∈ held.guards := (perm_of_lookup h.names hfind).mem_iff.2 List.mem_cons_self

@[simp] theorem guards_release (held : GuardedCache) (name : String) :
    (held.release name).guards = held.guards.filter (·.1 ≠ name) := by
  unfold release
  cases hfind : held.find? name with
  | none =>
    refine (List.filter_eq_self.2 fun entry hentry => ?_).symm
    exact decide_eq_true (lookup_eq_none hfind entry hentry)
  | some guard => rfl

/-- Letting a guard go changes no byte. -/
theorem Sound.release (h : held.Sound) (name : String) :
    (held.release name).Sound ∧ held.cache.Keeps (held.release name).cache := by
  have hnames : ((held.release name).guards.map Prod.fst).Nodup := by
    rw [guards_release]
    exact h.names.sublist (List.filter_sublist.map _)
  cases hfind : held.find? name with
  | none =>
    have hsame : held.release name = held := by
      unfold GuardedCache.release
      rw [hfind]
    rw [hsame]
    exact ⟨h, .refl _⟩
  | some guard =>
    have hperm := (perm_of_lookup h.names hfind).map Prod.snd
    have hwritten : guard.mode = .exclusive → decide (guard.mode = .exclusive) = true := decide_eq_true
    obtain ⟨hsound, hkeeps⟩ := PageCache.unpin_keeps (h.cache.perm hperm) hwritten
    have hcache : (held.release name).cache = held.cache.unpin guard.frame (guard.mode = .exclusive) := by
      unfold GuardedCache.release
      rw [hfind]
    refine ⟨⟨?_, hnames⟩, hcache ▸ hkeeps⟩
    rw [hcache, guards_release]
    exact hsound

private theorem not_mem_names_release (held : GuardedCache) (name : String) :
    name ∉ (held.release name).guards.map Prod.fst := by
  rw [guards_release]
  simp

/-- A guard more, under a name that is free. -/
theorem Sound.keep {cache : PageCache} {guard : Guard}
    (hcache : cache.Sound none (guard :: (held.release name).guards.map Prod.snd)) (h : (held.release name).Sound) :
    Sound { cache, guards := (name, guard) :: (held.release name).guards } :=
  ⟨hcache, List.nodup_cons.2 ⟨not_mem_names_release held name, h.names⟩⟩

/-! ### Requests -/

theorem onCache_apply {α : Type} (act : CacheM α) (held : GuardedCache) : onCache act held =
    match act held.cache with
    | (.ok a, cache) => (.ok a, { held with cache })
    | (.error e, cache) => (.error (.storage e), { held with cache }) := rfl

theorem append_apply (name : String) (held : GuardedCache) : append name held =
    match PageCache.appendPage (held.release name).cache with
    | (.ok (page, frame), cache) =>
      (.ok page, { cache, guards := (name, { page, frame, mode := .exclusive }) :: (held.release name).guards })
    | (.error e, cache) => (.error (.storage e), { held.release name with cache }) := by
  unfold append
  rw [bind_apply]
  change (onCache PageCache.appendPage >>= _ : GuardedM PageNumber) (held.release name) = _
  rw [bind_apply, onCache_apply]
  rcases PageCache.appendPage (held.release name).cache with ⟨_ | ⟨page, frame⟩, cache⟩ <;> rfl

theorem fetch_apply (name : String) {page : PageNumber} {mode : GuardMode} (hblocks : held.blocks page mode = false) :
    fetch name page mode held =
      match PageCache.pin page (held.release name).cache with
      | (.ok frame, cache) =>
        (.ok (cache.frameData frame), { cache, guards := (name, { page, frame, mode }) :: (held.release name).guards })
      | (.error e, cache) => (.error (.storage e), { held.release name with cache }) := by
  unfold fetch
  rw [get_bind_apply, hblocks]
  change (onCache (PageCache.pin page) >>= _ : GuardedM ByteArray) (held.release name) = _
  rw [bind_apply, onCache_apply]
  rcases PageCache.pin page (held.release name).cache with ⟨_ | frame, cache⟩ <;> rfl

private theorem requireGuard_bind {α : Type} (name : String) (next : Guard → GuardedM α) (held : GuardedCache) :
    (requireGuard name >>= next) held =
      match held.find? name with
      | some guard => next guard held
      | none => (.error .unknownGuard, held) := by
  rw [bind_apply]
  unfold requireGuard
  rw [get_bind_apply]
  cases held.find? name <;> rfl

theorem bytes_apply (name : String) (position length : Nat) (held : GuardedCache) : bytes name position length held =
    match held.find? name with
    | some guard => (.ok ((held.cache.frameData guard.frame).extract position (position + length)), held)
    | none => (.error .unknownGuard, held) := by
  unfold bytes
  rw [requireGuard_bind]
  cases held.find? name <;> rfl

theorem setBytes_apply (name : String) (position : Nat) (data : ByteArray) (held : GuardedCache) :
    setBytes name position data held =
      match held.find? name with
      | none => (.error .unknownGuard, held)
      | some guard =>
        if guard.mode = .shared then (.error .readOnly, held)
        else (.ok (), { held with
          cache := held.cache.setBytes guard.frame position (data.extract 0 (held.cache.pageSize - position)) }) := by
  unfold setBytes
  rw [requireGuard_bind]
  cases held.find? name with
  | none => rfl
  | some guard =>
    dsimp only
    split_ifs <;> rfl

theorem drop_apply (name : String) (held : GuardedCache) : drop name held =
    match held.find? name with
    | some _ => (.ok (), held.release name)
    | none => (.error .unknownGuard, held) := by
  unfold drop
  rw [requireGuard_bind]
  cases held.find? name <;> rfl

/-- Where no page is being written to a flush is not refused. -/
theorem flush_apply (hshared : ∀ entry ∈ held.guards, entry.2.mode = .shared) :
    flush held = onCache PageCache.flush held := by
  have hnone : held.guards.any (·.2.mode = .exclusive) = false := by
    apply List.any_eq_false.2
    intro entry hentry
    rw [hshared entry hentry]
    nofun
  unfold flush
  rw [get_bind_apply, hnone]
  rfl

end GuardedCache

end RecordStore
