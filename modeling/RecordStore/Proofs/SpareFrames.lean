import RecordStore.Proofs.FlatFile

/-!
# Spare frames

Between two accesses to a cached file no page is pinned, so there is always a frame to take: every frame waits for
eviction, but for the one in use (`PageCache.Idle`).  This asks nothing of the file behind the cache, which may be of any
length, and whose pages may not be readable.  The cache has at least one frame, and its queue has room for as many frames
as the cache was asked to have; so with one frame or more no call fails for want of a frame (`cache_is_never_full`).  A
cache that was asked to have none has one, but its queue takes no one (`frameless_cache_is_full`).
-/

namespace RecordStore

/-! ### How work ends -/

/-- Work that is started in `state` ends with a result and a state as `post` says. -/
def Leads {ε σ α : Type} (act : ExceptT ε (StateM σ) α) (state : σ) (post : Except ε α → σ → Prop) : Prop :=
  post (act state).1 (act state).2

namespace Leads

variable {ε σ α β : Type} {state : σ}

theorem mono {act : ExceptT ε (StateM σ) α} {post post' : Except ε α → σ → Prop} (h : Leads act state post)
    (himp : ∀ result after, post result after → post' result after) : Leads act state post' := himp _ _ h

theorem pure {a : α} {post : Except ε α → σ → Prop} (h : post (.ok a) state) : Leads (Pure.pure a) state post := h

theorem throw {e : ε} {post : Except ε α → σ → Prop} (h : post (.error e) state) :
    Leads (MonadExcept.throw e) state post := h

theorem step {act : ExceptT ε (StateM σ) α} {next : α → ExceptT ε (StateM σ) β} {post : Except ε β → σ → Prop}
    (h : Leads act state fun result after =>
      match result with
      | .ok a => Leads (next a) after post
      | .error e => post (.error e) after) : Leads (act >>= next) state post := by
  unfold Leads at h ⊢
  rw [bind_apply]
  rcases hact : act state with ⟨e | a, after⟩ <;> rw [hact] at h <;> exact h

theorem get_bind {next : σ → ExceptT ε (StateM σ) β} {post : Except ε β → σ → Prop} (h : Leads (next state) state post) :
    Leads (get >>= next) state post := h

theorem setting {after : σ} {post : Except ε Unit → σ → Prop} (h : post (.ok ()) after) :
    Leads (set after) state post := h

theorem modifying {f : σ → σ} {post : Except ε Unit → σ → Prop} (h : post (.ok ()) (f state)) :
    Leads (modify f) state post := h

theorem ofExcept {result : Except ε α} {post : Except ε α → σ → Prop} (h : post result state) :
    Leads (liftExcept result) state post := by
  cases result <;> exact h

theorem catching {act : ExceptT ε (StateM σ) α} {handler : ε → ExceptT ε (StateM σ) α} {post : Except ε α → σ → Prop}
    (h : Leads act state fun result after =>
      match result with
      | .ok a => post (.ok a) after
      | .error e => Leads (handler e) after post) : Leads (tryCatch act handler) state post := by
  unfold Leads at h ⊢
  simp only [tryCatch, tryCatchThe, MonadExceptOf.tryCatch, ExceptT.tryCatch, ExceptT.mk, bind, StateT.bind]
  rcases hact : act state with ⟨e | a, after⟩ <;> rw [hact] at h <;> exact h

end Leads

namespace PageCache

/-- Every frame waits for eviction, but for the frame `out`, which is pinned `pins` times. -/
structure Idle (cache : PageCache) (out : Option FrameIndex) (pins : Nat) : Prop where
  room : 0 < cache.maxFrames
  capacity : cache.maxFrames ≤ cache.queue.capacity
  bounded : cache.frames.size ≤ cache.maxFrames
  queue : cache.queue.WellFormed
  inside : ∀ index ∈ out, index < cache.frames.size
  waiting : ∀ index, index ∈ cache.queue.order ↔ index < cache.frames.size ∧ out ≠ some index
  table : ∀ (page : PageNumber) (index : FrameIndex), cache.table[page]? = some index → index < cache.frames.size
  pins : ∀ (index : Nat) (frame : Frame), cache.frames[index]? = some frame →
    frame.pins = if out = some index then pins else 0

/-- Whatever went wrong, it was not for want of a frame. -/
def Spared {α : Type} (result : Except StorageError α) : Prop := ∀ n, result ≠ .error (.cacheFull n)

theorem Spared.of_error {α β : Type} {e : StorageError} (h : Spared (.error e : Except StorageError α)) :
    Spared (.error e : Except StorageError β) := fun n heq => h n (congrArg Except.error (Except.error.inj heq))

theorem Spared.bind {α β : Type} {x : Except StorageError α} {f : α → Except StorageError β} (hx : Spared x)
    (hf : ∀ a, Spared (f a)) : Spared (x >>= f) := by
  cases x with
  | error e => exact hx.of_error
  | ok a => exact hf a

variable {cache : PageCache} {out : Option FrameIndex} {pins : Nat} {index : FrameIndex}

private theorem spared_of_writePage {file : PageFile} {page : PageNumber} {data : ByteArray} {e : StorageError} {α : Type}
    (h : file.writePage page data = .error e) : Spared (.error e : Except StorageError α) := by
  unfold PageFile.writePage PageFile.checkBuffer at h
  split at h <;> cases h
  nofun

/-- Whatever is done to the file, and to a frame but for its pins. -/
theorem Idle.modifyFrame (h : cache.Idle out pins) (file : PageFile) (index : FrameIndex) {f : Frame → Frame}
    (hf : ∀ frame, (f frame).pins = frame.pins) : ({ cache with file }.modifyFrame index f).Idle out pins where
  room := h.room
  capacity := h.capacity
  bounded := (size_modifyFrame ..).symm ▸ h.bounded
  queue := h.queue
  inside i hi := (size_modifyFrame ..).symm ▸ h.inside i hi
  waiting i := (size_modifyFrame { cache with file } index f).symm ▸ h.waiting i
  table page i hi := (size_modifyFrame ..).symm ▸ h.table page i hi
  pins i frame hframe := by
    rw [getElem?_modifyFrame] at hframe
    by_cases hi : index = i
    · rw [if_pos hi] at hframe
      obtain ⟨before, hbefore, rfl⟩ := Option.map_eq_some_iff.1 hframe
      rw [hf]
      exact h.pins i before hbefore
    · rw [if_neg hi] at hframe
      exact h.pins i frame hframe

/-- What is done to the frame that is out before or afterwards. -/
theorem Idle.turn (h : cache.Idle out pins) (hout : ∀ i ∈ out, i = index) {f : Frame → Frame} {file : PageFile}
    {table : Std.TreeMap PageNumber FrameIndex} {queue : EvictionQueue} {out' : Option FrameIndex} {pins' : Nat}
    (hout' : ∀ i ∈ out', i = index ∧ index < cache.frames.size)
    (hf : ∀ frame, cache.frames[index]? = some frame → (f frame).pins = if out' = some index then pins' else 0)
    (hqueue : queue.WellFormed) (hcapacity : queue.capacity = cache.queue.capacity)
    (hwaiting : ∀ i, i ∈ queue.order ↔ i < cache.frames.size ∧ out' ≠ some i)
    (htable : ∀ (page : PageNumber) (i : FrameIndex), table[page]? = some i → i < cache.frames.size) :
    Idle { cache.modifyFrame index f with file, table, queue } out' pins' where
  room := h.room
  capacity := hcapacity.symm ▸ h.capacity
  bounded := (size_modifyFrame ..).symm ▸ h.bounded
  queue := hqueue
  inside i hi := by
    rw [size_modifyFrame, (hout' i hi).1]
    exact (hout' i hi).2
  waiting i := (size_modifyFrame cache index f).symm ▸ hwaiting i
  table page i hi := (size_modifyFrame ..).symm ▸ htable page i hi
  pins i frame hframe := by
    rw [getElem?_modifyFrame] at hframe
    by_cases hi : index = i
    · subst hi
      rw [if_pos rfl] at hframe
      obtain ⟨before, hbefore, rfl⟩ := Option.map_eq_some_iff.1 hframe
      exact hf before hbefore
    · rw [if_neg hi] at hframe
      have hbefore : out ≠ some i := fun heq => hi (hout i heq).symm
      have hafter : out' ≠ some i := fun heq => hi (hout' i heq).1.symm
      rw [h.pins i frame hframe, if_neg hbefore, if_neg hafter]

/-- There is a place in the queue for the frame that is out. -/
theorem Idle.mem_join (h : cache.Idle (some index) pins) (i : FrameIndex) :
    i ∈ (cache.queue.join index).order ↔ i < cache.frames.size ∧ none ≠ some i := by
  have hindex := h.inside index rfl
  rw [h.queue.mem_order_join (fun other hother => ((h.waiting other).1 hother).1)
    (Nat.le_trans h.bounded h.capacity) hindex, h.waiting]
  constructor
  · rintro (rfl | ⟨hlt, -⟩)
    · exact ⟨hindex, nofun⟩
    · exact ⟨hlt, nofun⟩
  · rintro ⟨hlt, -⟩
    by_cases hi : i = index
    · exact .inl hi
    · exact .inr ⟨hlt, fun heq => hi (Option.some.inj heq).symm⟩

/-- The frame that is out is released, and waits with the others. -/
theorem Idle.join (h : cache.Idle (some index) pins) {f : Frame → Frame}
    (hf : ∀ frame, cache.frames[index]? = some frame → (f frame).pins = 0) :
    Idle { cache.modifyFrame index f with queue := cache.queue.join index } none 0 :=
  h.turn (fun _ hi => (Option.some.inj hi).symm) nofun (fun frame hframe => (hf frame hframe).trans (if_neg nofun).symm)
    h.queue.join (EvictionQueue.capacity_join ..) h.mem_join h.table

/-- The same for a frame that has not been touched. -/
private theorem Idle.rejoin (h : cache.Idle (some index) 0) :
    Idle { cache with queue := cache.queue.join index } none 0 where
  room := h.room
  capacity := (EvictionQueue.capacity_join ..).symm ▸ h.capacity
  bounded := h.bounded
  queue := h.queue.join
  inside := nofun
  waiting := h.mem_join
  table := h.table
  pins i frame hframe := by
    rw [h.pins i frame hframe, ite_self, ite_self]

/-- A frame is taken into use, if it is not out already. -/
theorem Idle.leave (h : cache.Idle out pins) (hout : ∀ i ∈ out, i = index) (hindex : index < cache.frames.size)
    {f : Frame → Frame} {pins' : Nat} (hf : ∀ frame, cache.frames[index]? = some frame → (f frame).pins = pins')
    {table : Std.TreeMap PageNumber FrameIndex}
    (htable : ∀ (page : PageNumber) (i : FrameIndex), table[page]? = some i → i < cache.frames.size) :
    Idle { cache.modifyFrame index f with table, queue := cache.queue.leave index } (some index) pins' := by
  refine h.turn hout (fun i hi => ⟨(Option.some.inj hi).symm, hindex⟩)
    (fun frame hframe => (hf frame hframe).trans (if_pos rfl).symm) h.queue.leave (EvictionQueue.capacity_leave ..)
    (fun i => ?_) htable
  rw [h.queue.order_leave, h.queue.nodup_order.mem_erase_iff, h.waiting]
  constructor
  · rintro ⟨hne, hlt, -⟩
    exact ⟨hlt, fun heq => hne (Option.some.inj heq).symm⟩
  · rintro ⟨hlt, hne⟩
    have hne' : i ≠ index := fun heq => hne (congrArg some heq.symm)
    exact ⟨hne', hlt, fun heq => hne' (hout i heq)⟩

/-! ### Taking a frame -/

/-- A page that is written back does so with no frame taken. -/
theorem writeBack_idle (h : cache.Idle out pins) (index : FrameIndex) :
    Leads (writeBack index) cache fun result after => after.Idle out pins ∧ Spared result := by
  unfold writeBack
  refine Leads.get_bind ?_
  split
  · refine Leads.step (Leads.ofExcept ?_)
    cases hwrite : cache.file.writePage _ _ with
    | error e => exact ⟨h, spared_of_writePage hwrite⟩
    | ok file =>
      exact Leads.setting ⟨h.modifyFrame file index (f := fun frame => { frame with dirty := false }) fun _ => rfl, nofun⟩
  · exact Leads.pure ⟨h, nofun⟩

/-- A frame that waits is taken out of the queue. -/
private theorem Idle.exists_victim (h : cache.Idle none 0) {rest : List FrameIndex}
    (horder : cache.queue.order = index :: rest) : ∃ queue, cache.queue.victim? = some (index, queue) ∧
      cache.queue.count = rest.length + 1 ∧ cache.frames[index]?.elim 0 (·.pins) = 0 ∧
        Idle { cache with queue } (some index) 0 := by
  obtain ⟨queue, hvictim, hwf, hrest, hcapacity⟩ := h.queue.victim?_eq horder
  have hnodup := h.queue.nodup_order
  rw [horder] at hnodup
  have hindex := ((h.waiting index).1 (by rw [horder]; exact List.mem_cons_self)).1
  refine ⟨queue, hvictim, ?_, ?_, { h with
    capacity := hcapacity.symm ▸ h.capacity
    queue := hwf
    inside := fun i hi => Option.some.inj hi ▸ hindex
    waiting := fun i => ?_
    pins := fun i frame hframe => by simpa using h.pins i frame hframe }⟩
  · rw [h.queue.count_eq, horder]
    rfl
  · rw [Array.getElem?_eq_getElem hindex]
    exact (h.pins index _ (Array.getElem?_eq_getElem hindex)).trans (if_neg nofun)
  · have hi := h.waiting i
    rw [horder, List.mem_cons] at hi
    rw [hrest]
    constructor
    · intro hmem
      exact ⟨(hi.1 (.inr hmem)).1, fun heq => (List.nodup_cons.1 hnodup).1 (Option.some.inj heq ▸ hmem)⟩
    · rintro ⟨hlt, hne⟩
      exact (hi.2 ⟨hlt, nofun⟩).resolve_left fun heq => hne (congrArg some heq.symm)

/-- The cache may have a frame more. -/
private theorem Idle.push (h : cache.Idle none 0) (hgrow : cache.frames.size < cache.maxFrames) :
    Idle { cache with frames := cache.frames.push (.blank cache.pageSize) } (some cache.frames.size) 0 := by
  refine { h with bounded := ?_, inside := ?_, waiting := fun i => ?_, table := fun page i hi => ?_, pins := ?_ }
  · rw [Array.size_push]
    exact hgrow
  · rintro _ ⟨⟩
    rw [Array.size_push]
    exact Nat.lt_succ_self _
  · rw [Array.size_push]
    refine (h.waiting i).trans ⟨fun ⟨hlt, _⟩ => ⟨Nat.lt_succ_of_lt hlt, fun heq => ?_⟩, fun ⟨hlt, hne⟩ => ⟨?_, nofun⟩⟩
    · exact Nat.ne_of_gt hlt (Option.some.inj heq)
    · exact Nat.lt_of_le_of_ne (Nat.le_of_lt_succ hlt) fun heq => hne (congrArg some heq.symm)
  · rw [Array.size_push]
    exact Nat.lt_succ_of_lt (h.table page i hi)
  · intro i frame hframe
    rw [Array.getElem?_push] at hframe
    have hpins : frame.pins = 0 := by
      split at hframe
      · rw [← Option.some.inj hframe]
        rfl
      · exact (h.pins i frame hframe).trans (if_neg nofun)
    rw [hpins, ite_self]

/-- A frame that waits is emptied, or goes on waiting because its page could not be written back. -/
private theorem evict_idle (h : cache.Idle none 0) {rest : List FrameIndex} (horder : cache.queue.order = index :: rest) :
    Leads (evict cache.queue.count) cache fun result after =>
      match result with
      | .ok index => after.Idle (some index) 0
      | .error e => after.Idle none 0 ∧ Spared (.error e : Except StorageError FrameIndex) := by
  obtain ⟨queue, hvictim, hcount, hpins, hout⟩ := h.exists_victim horder
  rw [hcount]
  unfold evict
  refine Leads.get_bind ?_
  rw [hvictim]
  refine Leads.step (Leads.setting ?_)
  dsimp only
  rw [if_neg (by omega)]
  refine Leads.step (Leads.catching ((writeBack_idle hout index).mono ?_))
  rintro (e | ⟨⟩) after ⟨hafter, hspared⟩
  · exact Leads.step (Leads.modifying (Leads.throw ⟨hafter.rejoin, hspared.of_error⟩))
  · refine Leads.step (Leads.modifying (Leads.pure ?_))
    refine hafter.turn (f := fun _ => .blank after.pageSize) (fun _ hi => (Option.some.inj hi).symm)
      (fun _ hi => ⟨(Option.some.inj hi).symm, hafter.inside index rfl⟩) (fun _ _ => (if_pos rfl).symm) hafter.queue rfl
      hafter.waiting fun page i hi => ?_
    -- the table has lost a page at most
    split at hi
    · rename_i held _
      by_cases hpage : held = page
      · rw [getElem?_erase_treeMap, if_pos hpage] at hi
        cases hi
      · rw [getElem?_erase_treeMap, if_neg hpage] at hi
        exact hafter.table page i hi
    · exact hafter.table page i hi

/-- Taking a frame fails only because a page could not be written back. -/
theorem acquireFrame_idle (h : cache.Idle none 0) : Leads acquireFrame cache fun result after =>
    match result with
    | .ok index => after.Idle (some index) 0
    | .error e => after.Idle none 0 ∧ Spared (.error e : Except StorageError FrameIndex) := by
  unfold acquireFrame
  refine Leads.get_bind ?_
  by_cases hgrow : cache.frames.size < cache.maxFrames
  · rw [if_pos hgrow]
    exact Leads.step (Leads.setting (Leads.pure (h.push hgrow)))
  · rw [if_neg hgrow]
    have hsize : 0 < cache.frames.size := Nat.lt_of_lt_of_le h.room (Nat.not_lt.1 hgrow)
    cases horder : cache.queue.order with
    | nil =>
      have hmem := (h.waiting 0).2 ⟨hsize, nofun⟩
      rw [horder] at hmem
      cases hmem
    | cons index rest => exact evict_idle h horder

/-- The frame that is out takes a page. -/
private theorem Idle.occupy (h : cache.Idle (some index) 0) (page : PageNumber) (data : ByteArray) (dirty : Bool) :
    (cache.occupy index page data dirty).Idle (some index) 1 := by
  refine h.leave (f := fun _ => { page := some page, data, pins := 1, dirty }) (fun _ hi => (Option.some.inj hi).symm)
    (h.inside index rfl) (fun _ _ => rfl) fun other i hi => ?_
  rw [getElem?_insert_treeMap] at hi
  split at hi
  · rw [← Option.some.inj hi]
    exact h.inside index rfl
  · exact h.table other i hi

private theorem spared_of_readPage {file : PageFile} {page : PageNumber} {size : Nat} {e : StorageError} {α : Type}
    (h : file.readPage page size = .error e) : Spared (.error e : Except StorageError α) := by
  unfold PageFile.readPage PageFile.checkBuffer at h
  split at h
  · change (if _ then _ else if _ then _ else _) = _ at h
    split_ifs at h <;> cases h <;> nofun
  · cases h
    nofun

/-- A page is pinned in some frame, or could not be read. -/
theorem pin_idle (h : cache.Idle none 0) (page : PageNumber) : Leads (pin page) cache fun result after =>
    match result with
    | .ok index => after.Idle (some index) 1
    | .error e => after.Idle none 0 ∧ Spared (.error e : Except StorageError FrameIndex) := by
  unfold pin
  refine Leads.get_bind ?_
  cases hresident : cache.table[page]? with
  | some index =>
    refine Leads.step (Leads.setting (Leads.pure ?_))
    refine h.leave (f := fun frame => { frame with pins := frame.pins + 1 }) nofun (h.table page index hresident)
      (fun frame hframe => ?_) h.table
    exact congrArg (· + 1) ((h.pins index frame hframe).trans (if_neg nofun))
  | none =>
    refine Leads.step ((acquireFrame_idle h).mono ?_)
    rintro (e | index) after hafter
    · exact hafter
    · refine Leads.get_bind ?_
      cases hread : after.file.readPage page after.pageSize with
      | ok data => exact Leads.step (Leads.setting (Leads.pure (hafter.occupy page data false)))
      | error e =>
        refine Leads.step (Leads.setting (Leads.throw ⟨?_, spared_of_readPage hread⟩))
        exact hafter.join (f := fun _ => .blank after.pageSize) fun _ _ => rfl

theorem appendPage_idle (h : cache.Idle none 0) : Leads appendPage cache fun result after =>
    match result with
    | .ok (_, index) => after.Idle (some index) 1
    | .error e => after.Idle none 0 ∧ Spared (.error e : Except StorageError (PageNumber × FrameIndex)) := by
  unfold appendPage
  refine Leads.step ((acquireFrame_idle h).mono ?_)
  rintro (e | index) after hafter
  · exact ⟨hafter.1, hafter.2.of_error⟩
  · refine Leads.get_bind (Leads.step (Leads.setting (Leads.pure ?_)))
    have hlonger : Idle { after with file := after.file.allocatePage.2 } (some index) 0 := { hafter with }
    exact hlonger.occupy _ _ true

/-- A frame is pinned no longer. -/
theorem Idle.unpin (h : cache.Idle (some index) 1) (written : Bool) : (cache.unpin index written).Idle none 0 := by
  have hindex := h.inside index rfl
  have hframe := Array.getElem?_eq_getElem hindex
  have hpins := (h.pins index _ hframe).trans (if_pos rfl)
  unfold PageCache.unpin
  rw [hframe]
  dsimp only
  rw [Option.any_some, decide_eq_true hpins, if_pos rfl]
  refine h.join (f := fun frame => { frame with pins := frame.pins - 1, dirty := frame.dirty || written })
    fun frame hframe' => ?_
  rw [hframe] at hframe'
  rw [← Option.some.inj hframe', hpins]

theorem flush_idle (h : cache.Idle none 0) : Leads flush cache fun result after =>
    after.Idle none 0 ∧ Spared result := by
  unfold flush
  refine Leads.get_bind ?_
  generalize List.range cache.frames.size = indices
  induction indices generalizing cache with
  | nil => exact Leads.pure ⟨h, nofun⟩
  | cons index rest ih =>
    unfold writeBackAll
    refine Leads.step ((writeBack_idle h index).mono ?_)
    rintro (e | ⟨⟩) after ⟨hafter, hspared⟩
    · exact ⟨hafter, hspared⟩
    · exact ih hafter

/-- A cache that was asked to have frames. -/
theorem idle_new (file : PageFile) {frames : Nat} (hframes : 0 < frames) : (new file frames frames).Idle none 0 where
  room := Nat.lt_of_lt_of_le hframes (Nat.le_max_left _ _)
  capacity := Nat.max_le.2 ⟨Nat.le_refl _, hframes⟩
  bounded := Nat.zero_le _
  queue := EvictionQueue.wellFormed_empty _
  inside := nofun
  waiting i := by simp [new]
  table page i hi := by simp [new] at hi
  pins i frame hframe := by simp [new] at hframe

end PageCache

namespace CachedFile

open PageCache

/-- Work on a file in which no page is pinned leaves no page pinned, and does not fail for want of a frame. -/
def Rests {α : Type} (act : M α) (file : CachedFile) : Prop :=
  Leads act file fun result after => after.cache.Idle none 0 ∧ Spared result

variable {file : CachedFile} {α β : Type}

theorem Rests.step {act : M α} {next : α → M β} (h : Leads act file fun result after =>
      match result with
      | .ok a => Rests (next a) after
      | .error e => after.cache.Idle none 0 ∧ Spared (.error e : Except StorageError α)) :
    Rests (act >>= next) file := by
  refine Leads.step (Leads.mono h ?_)
  rintro (e | a) after hafter
  · exact ⟨hafter.1, hafter.2.of_error⟩
  · exact hafter

theorem leads_onCache {act : CacheM α} {post : Except StorageError α → CachedFile → Prop}
    (h : Leads act file.cache fun result cache => post result { file with cache }) : Leads (onCache act) file post := h

theorem Rests.ensureOpen (h : file.cache.Idle none 0) {next : M α} (hnext : Rests next file) :
    Rests (do CachedFile.ensureOpen; next) file := by
  refine Rests.step ?_
  unfold CachedFile.ensureOpen
  refine Leads.get_bind ?_
  split
  · exact Leads.throw ⟨h, nofun⟩
  · exact Leads.pure hnext

theorem Rests.checkBounds (h : file.cache.Idle none 0) {next : M α} (hnext : Rests next file) (offset length : Nat) :
    Rests (do CachedFile.checkBounds offset length; next) file := by
  refine Rests.step ?_
  unfold CachedFile.checkBounds
  refine Leads.get_bind ?_
  dsimp only
  split
  · exact Leads.throw ⟨h, nofun⟩
  · exact Leads.pure hnext

private theorem readSpans_rests (h : file.cache.Idle none 0) (spans : List Span) (bytes : ByteArray) :
    Rests (readSpans spans bytes) file := by
  induction spans generalizing file bytes with
  | nil => exact Leads.pure ⟨h, nofun⟩
  | cons span rest ih =>
    refine Rests.step (leads_onCache ((pin_idle h span.page).mono ?_))
    rintro (e | index) cache hcache
    · exact ⟨hcache.1, hcache.2.of_error⟩
    · refine Leads.get_bind (Leads.step (Leads.modifying ?_))
      exact ih (hcache.unpin false) _

private theorem writeSpans_rests (h : file.cache.Idle none 0) (data : ByteArray) (spans : List Span) (done : Nat) :
    Rests (writeSpans data spans done) file := by
  induction spans generalizing file done with
  | nil => exact Leads.pure ⟨h, nofun⟩
  | cons span rest ih =>
    refine Rests.step (leads_onCache ((pin_idle h span.page).mono ?_))
    rintro (e | index) cache hcache
    · exact ⟨hcache.1, hcache.2.of_error⟩
    · refine Leads.step (Leads.modifying ?_)
      have hset := hcache.modifyFrame cache.file index (f := fun frame =>
        { frame with data := Bytes.splice frame.data span.start (data.extract done (done + span.length)) }) fun _ => rfl
      exact ih (hset.unpin true) _

private theorem growBy_rests (h : file.cache.Idle none 0) (target pages : Nat) : Rests (growBy target pages) file := by
  induction pages generalizing file with
  | zero => exact Leads.pure ⟨h, nofun⟩
  | succ pages ih =>
    unfold growBy
    refine Leads.get_bind ?_
    split
    · refine Rests.step (leads_onCache ((appendPage_idle h).mono ?_))
      rintro (e | ⟨page, index⟩) cache hcache
      · exact ⟨hcache.1, hcache.2.of_error⟩
      · exact Leads.step (Leads.modifying (ih (hcache.unpin true)))
    · exact Leads.pure ⟨h, nofun⟩

private theorem Rests.replying {act : M α} (h : Rests act file) (reply : α → FileReply) :
    (replying reply act file).2.cache.Idle none 0 ∧ Spared (replying reply act file).1 := by
  obtain ⟨hidle, hspared⟩ := h
  refine ⟨hidle, fun n heq => ?_⟩
  rcases hresult : (act file).1 with e | a
  · rw [hresult] at hspared
    have hreplied : (.error e : FileResult) = .error (.cacheFull n) := by
      rw [← heq]
      exact (congrArg (Except.map reply) hresult).symm
    exact hspared n (congrArg Except.error (Except.error.inj hreplied))
  · have hreplied : (.ok (reply a) : FileResult) = .error (.cacheFull n) := by
      rw [← heq]
      exact (congrArg (Except.map reply) hresult).symm
    cases hreplied

private theorem read_rests (h : file.cache.Idle none 0) (offset length : Nat) : Rests (read offset length) file := by
  refine Rests.ensureOpen h (Rests.checkBounds h ?_ _ _)
  refine Leads.get_bind ?_
  exact readSpans_rests h _ _

private theorem write_rests (h : file.cache.Idle none 0) (offset : Nat) (data : ByteArray) :
    Rests (write offset data) file := by
  refine Rests.ensureOpen h (Rests.checkBounds h ?_ _ _)
  refine Leads.get_bind ?_
  exact writeSpans_rests h _ _ _

private theorem size_rests (h : file.cache.Idle none 0) : Rests (PagedStorage.size : M Nat) file := by
  refine Rests.ensureOpen h ?_
  exact Leads.get_bind (Leads.pure ⟨h, nofun⟩)

private theorem grow_rests (h : file.cache.Idle none 0) (target : Nat) : Rests (grow target) file := by
  refine Rests.ensureOpen h ?_
  refine Leads.get_bind ?_
  exact growBy_rests h _ _

private theorem flush_rests (h : file.cache.Idle none 0) : Rests flush file :=
  Rests.ensureOpen h (leads_onCache (flush_idle h))

private theorem close_rests (h : file.cache.Idle none 0) : Rests close file := by
  unfold close
  refine Leads.get_bind ?_
  split
  · exact Leads.pure ⟨h, nofun⟩
  · exact Leads.step (Leads.modifying (leads_onCache (flush_idle (show file.cache.Idle none 0 from h))))

/-! ### Calls one after another -/

private theorem idle_behind {opening : Except StorageError PageFile} {frames : Nat} (hframes : 0 < frames)
    (h : (opening >>= fun file => Pure.pure (behind file frames)) = .ok file) : file.cache.Idle none 0 := by
  cases opening with
  | error e => cases h
  | ok opened =>
    obtain rfl : behind opened frames = file := Except.ok.inj h
    exact idle_new opened hframes

private theorem spared_of_openOrCreate (path : String) (entry : Entry) (pageSize frames : Nat) :
    Spared (openOrCreate path entry pageSize frames) := by
  have hcheck : Spared (checkPageSize pageSize) := by
    unfold checkPageSize
    split_ifs <;> nofun
  refine Spared.bind (hcheck.bind fun _ => ?_) fun _ => nofun
  cases entry with
  | blocked cause => nofun
  | missing => nofun
  | regular content =>
    change Spared (if _ then _ else if _ then _ else _)
    split_ifs <;> nofun

/-- One call, on a file that is opened with frames if it is opened. -/
private theorem answer_rests (path : String) (h : file.cache.Idle none 0) (call : FileCall) (frames : Nat)
    (hframes : call = .reopen → 0 < frames) :
    (answer path (call, frames) file).2.cache.Idle none 0 ∧ Spared (answer path (call, frames) file).1 := by
  cases call with
  | read offset length => exact (read_rests h offset length).replying _
  | write offset data => exact (write_rests h offset data).replying _
  | size => exact (size_rests h).replying _
  | grow target => exact (grow_rests h target).replying _
  | flush => exact (flush_rests h).replying _
  | close => exact (close_rests h).replying _
  | reopen =>
    have hclose : Rests (PagedStorage.close : M Unit) file := close_rests h
    unfold answer
    dsimp only
    rcases hrun : (PagedStorage.close : M Unit) file with ⟨e | ⟨⟩, after⟩
    · unfold Rests Leads at hclose
      rw [hrun] at hclose
      exact ⟨hclose.1, hclose.2.of_error⟩
    · unfold Rests Leads at hclose
      rw [hrun] at hclose
      dsimp only
      have hspared := spared_of_openOrCreate path (.regular after.onDisk) file.pageSize frames
      cases hopen : openOrCreate path (.regular after.onDisk) file.pageSize frames with
      | error e =>
        rw [hopen] at hspared
        exact ⟨hclose.1, hspared.of_error⟩
      | ok opened => exact ⟨idle_behind (hframes rfl) hopen, nofun⟩

/-- Whatever file is opened or created, of whatever length and with pages of whatever size: with one frame or more no
call fails for want of a frame, since no page stays pinned when a call has ended. -/
theorem cache_is_never_full (path : String) {entry : Entry} {pageSize frames : Nat} (hframes : 0 < frames)
    (hopen : openOrCreate path entry pageSize frames = .ok file ∨ create path entry pageSize frames = .ok file)
    {calls : List (FileCall × Nat)} (hcalls : ∀ frames, (.reopen, frames) ∈ calls → 0 < frames) :
    (∀ result ∈ (runAll (answer path) calls file).1, ∀ n, result ≠ .error (.cacheFull n)) ∧
      ∀ frame ∈ (runAll (answer path) calls file).2.cache.frames, frame.pins = 0 := by
  have hidle : file.cache.Idle none 0 := hopen.elim (idle_behind hframes) (idle_behind hframes)
  clear hopen
  induction calls generalizing file with
  | nil =>
    refine ⟨by simp [runAll], fun frame hframe => ?_⟩
    obtain ⟨index, hindex, rfl⟩ := Array.mem_iff_getElem.1 hframe
    exact (hidle.pins index _ (Array.getElem?_eq_getElem hindex)).trans (if_neg (by rintro ⟨⟩))
  | cons call rest ih =>
    obtain ⟨call, frames'⟩ := call
    obtain ⟨hafter, hspared⟩ := answer_rests path hidle call frames' fun hcall =>
      hcalls frames' (hcall ▸ List.mem_cons_self)
    obtain ⟨hresults, hpins⟩ := ih (fun frames hmem => hcalls frames (List.mem_cons_of_mem _ hmem)) hafter
    rw [runAll_cons]
    refine ⟨fun result hresult => ?_, hpins⟩
    rcases List.mem_cons.1 hresult with rfl | hresult
    · exact hspared
    · exact hresults result hresult

/-- Two pages for a file that has one frame. -/
theorem one_frame_is_enough : ∃ file, openOrCreate "file" .missing 256 1 = .ok file ∧
    ∀ result ∈ (runAll (answer "file") [(.grow 512, 0), (.write 200 ⟨Array.replicate 100 1⟩, 0)] file).1,
      ∀ n, result ≠ .error (.cacheFull n) := by
  obtain ⟨file, hopen⟩ : ∃ file, openOrCreate "file" .missing 256 1 = .ok file := ⟨_, rfl⟩
  exact ⟨file, hopen, (cache_is_never_full "file" (by decide) (.inl hopen) (by simp)).1⟩

/-- A cache that was asked to have no frames has one, but never takes it back. -/
theorem frameless_cache_is_full : ∃ file, openOrCreate "file" .missing 256 0 = .ok file ∧
    let run := runAll (answer "file") [(.grow 256, 0), (.grow 512, 0)] file
    run.1 = [.ok .done, .error (.cacheFull 1)] ∧ (run.2.cache.frames.map (·.pins)).toList = [0] := by
  refine ⟨_, rfl, ?_⟩
  decide +kernel

end CachedFile

end RecordStore
