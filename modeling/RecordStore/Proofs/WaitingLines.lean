import RecordStore.Proofs.EvictionOrder
import RecordStore.Proofs.Runs

/-!
# The eviction queue as a waiting line

To its user an eviction queue is a line of frames in which no frame stands twice and which has limited room
(`WaitingLine`).  Each call of the queue is that call of the line (`EvictionQueue.Models.answer`), and so is every run
of calls (`Models.run`).  A call puts a frame at the end of the line or takes frames out of it
(`WellFormed.order_answer`), so of two frames the one in front has waited longer (`exists_earlier`), and the victim
longest of all.
-/

namespace RecordStore

/-- What a cache asks of its eviction queue: that a frame may be evicted, that it may not, or for a frame to evict. -/
inductive QueueCall
  | join (frame : FrameIndex)
  | leave (frame : FrameIndex)
  | victim
deriving DecidableEq

/-- Frames in the order in which they came, none of them twice and no more than there is room for. -/
structure WaitingLine (room : Nat) where
  frames : List FrameIndex
  nodup : frames.Nodup
  fits : frames.length ≤ room

namespace WaitingLine

variable {room : Nat}

def empty (room : Nat) : WaitingLine room := { frames := [], nodup := .nil, fits := Nat.zero_le room }

/-- A frame that does not stand in the line goes to its end, as long as there is room for it. -/
def join (line : WaitingLine room) (frame : FrameIndex) : WaitingLine room :=
  if h : frame ∉ line.frames ∧ line.frames.length < room then
    { frames := line.frames ++ [frame]
      nodup := by simpa using line.nodup.concat h.1
      fits := by simpa using Nat.succ_le_of_lt h.2 }
  else line

/-- A frame goes away, wherever it stands. -/
def leave (line : WaitingLine room) (frame : FrameIndex) : WaitingLine room where
  frames := line.frames.erase frame
  nodup := line.nodup.erase frame
  fits := Nat.le_trans List.length_erase_le line.fits

/-- The line behind its first frame. -/
def advance (line : WaitingLine room) : WaitingLine room where
  frames := line.frames.tail
  nodup := line.nodup.sublist (List.tail_sublist _)
  fits := Nat.le_trans (List.tail_sublist _).length_le line.fits

def answer (call : QueueCall) (line : WaitingLine room) : Option FrameIndex × WaitingLine room :=
  match call with
  | .join frame => (none, line.join frame)
  | .leave frame => (none, line.leave frame)
  | .victim => (line.frames.head?, line.advance)

theorem frames_join (line : WaitingLine room) (frame : FrameIndex) : (line.join frame).frames =
    if frame ∈ line.frames ∨ room ≤ line.frames.length then line.frames else line.frames ++ [frame] := by
  unfold join
  by_cases h : frame ∉ line.frames ∧ line.frames.length < room
  · rw [dif_pos h, if_neg]
    rintro (hmem | hfull)
    · exact h.1 hmem
    · exact Nat.not_le.2 h.2 hfull
  · rw [dif_neg h, if_pos]
    by_cases hmem : frame ∈ line.frames
    · exact .inl hmem
    · exact .inr (Nat.not_lt.1 fun hroom => h ⟨hmem, hroom⟩)

end WaitingLine

namespace EvictionQueue

variable {queue : EvictionQueue} {frame other : FrameIndex}

def answer (call : QueueCall) (queue : EvictionQueue) : Option FrameIndex × EvictionQueue :=
  match call with
  | .join frame => (none, queue.join frame)
  | .leave frame => (none, queue.leave frame)
  | .victim =>
    match queue.victim? with
    | none => (none, queue)
    | some (frame, queue) => (some frame, queue)

/-! ### One call -/

/-- The victim is the frame in front, if there is one. -/
theorem WellFormed.answer_victim (h : queue.WellFormed) : ∃ queue', queue.answer .victim = (queue.order.head?, queue') ∧
    queue'.WellFormed ∧ queue'.order = queue.order.tail ∧ queue'.capacity = queue.capacity := by
  cases horder : queue.order with
  | nil =>
    have hnone : queue.victim? = none := by
      unfold order at horder
      unfold victim?
      rw [List.map_eq_nil_iff.1 horder]
    refine ⟨queue, ?_, h, horder, rfl⟩
    rw [answer, hnone]
    rfl
  | cons first rest =>
    obtain ⟨queue', hvictim, hwf, hrest, hcapacity⟩ := h.victim?_eq horder
    refine ⟨queue', ?_, hwf, hrest, hcapacity⟩
    rw [answer, hvictim]
    rfl

/-- The line that the queue stands for. -/
structure Models {room : Nat} (queue : EvictionQueue) (line : WaitingLine room) : Prop where
  wellFormed : queue.WellFormed
  capacity : queue.capacity = room
  order : queue.order = line.frames

theorem models_empty (room : Nat) : (empty room).Models (.empty room) :=
  ⟨wellFormed_empty room, rfl, order_empty room⟩

theorem Models.answer {room : Nat} {line : WaitingLine room} (h : queue.Models line) (call : QueueCall) :
    (queue.answer call).1 = (line.answer call).1 ∧ (queue.answer call).2.Models (line.answer call).2 := by
  obtain ⟨hwf, hcapacity, horder⟩ := h
  cases call with
  | join frame =>
    refine ⟨rfl, hwf.join, (capacity_join queue frame).trans hcapacity, ?_⟩
    exact (hwf.order_join.trans (by rw [horder, hcapacity])).trans (line.frames_join frame).symm
  | leave frame =>
    exact ⟨rfl, hwf.leave, (capacity_leave queue frame).trans hcapacity, hwf.order_leave.trans (by rw [horder]; rfl)⟩
  | victim =>
    obtain ⟨queue', hanswer, hwf', htail, hcapacity'⟩ := hwf.answer_victim
    rw [hanswer, horder]
    exact ⟨rfl, hwf', hcapacity'.trans hcapacity, htail.trans (by rw [horder]; rfl)⟩

/-- A call takes frames out of the line or puts one at its end. -/
theorem WellFormed.order_answer (h : queue.WellFormed) (call : QueueCall) :
    (queue.answer call).2.order.Sublist queue.order ∨
      ∃ last ∉ queue.order, (queue.answer call).2.order = queue.order ++ [last] := by
  cases call with
  | join frame =>
    change (queue.join frame).order.Sublist _ ∨ ∃ last ∉ _, (queue.join frame).order = _
    rw [h.order_join]
    by_cases hkept : frame ∈ queue.order ∨ queue.capacity ≤ queue.order.length
    · rw [if_pos hkept]
      exact .inl (List.Sublist.refl _)
    · rw [if_neg hkept]
      exact .inr ⟨frame, fun hmem => hkept (.inl hmem), rfl⟩
  | leave frame =>
    left
    change (queue.leave frame).order.Sublist _
    rw [h.order_leave]
    exact List.erase_sublist
  | victim =>
    left
    obtain ⟨queue', hanswer, -, htail, -⟩ := h.answer_victim
    rw [hanswer, htail]
    exact List.tail_sublist _

/-- Of two frames the one in front stood in front before the call, or it alone was there. -/
theorem WellFormed.ahead_of_answer (h : queue.WellFormed) {call : QueueCall}
    (hahead : [frame, other].Sublist (queue.answer call).2.order) :
    [frame, other].Sublist queue.order ∨ frame ∈ queue.order ∧ other ∉ queue.order := by
  rcases h.order_answer call with hsublist | ⟨last, hlast, horder⟩
  · exact .inl (hahead.trans hsublist)
  · rw [horder] at hahead
    obtain ⟨front, back, hsplit, hfront, hback⟩ := List.sublist_append_iff.1 hahead
    -- at most one of the two came with the call, and then it is the one behind
    rcases back with _ | ⟨x, _ | ⟨y, back⟩⟩
    · rw [List.append_nil] at hsplit
      exact .inl (hsplit ▸ hfront)
    · have hparts : [frame] ++ [other] = front ++ [x] := hsplit
      obtain ⟨rfl, hx⟩ := List.append_inj' hparts rfl
      obtain rfl : last = other := by simpa [← hx, eq_comm] using hback
      exact .inr ⟨hfront.subset List.mem_cons_self, hlast⟩
    · have hlength := hback.length_le
      simp at hlength

theorem nextTick_answer (call : QueueCall) (queue : EvictionQueue) :
    (queue.answer call).2.nextTick ≤ queue.nextTick + 1 := by
  cases call with
  | join frame =>
    change (queue.join frame).nextTick ≤ _
    unfold join
    split
    · exact Nat.le_succ _
    · exact Nat.le_refl _
  | leave frame =>
    change (queue.leave frame).nextTick ≤ _
    unfold leave
    split <;> exact Nat.le_succ _
  | victim =>
    unfold answer victim?
    cases queue.frameAt.toList <;> exact Nat.le_succ _

/-! ### Runs -/

theorem Models.run {room : Nat} {line : WaitingLine room} (h : queue.Models line) (calls : List QueueCall) :
    (runAll EvictionQueue.answer calls queue).1 = (runAll WaitingLine.answer calls line).1 ∧
      (runAll EvictionQueue.answer calls queue).2.Models (runAll WaitingLine.answer calls line).2 := by
  induction calls generalizing queue line with
  | nil => exact ⟨rfl, h⟩
  | cons call rest ih =>
    obtain ⟨hreply, hnext⟩ := h.answer call
    obtain ⟨hreplies, hlast⟩ := ih hnext
    rw [runAll_cons, runAll_cons, hreply, hreplies]
    exact ⟨rfl, hlast⟩

/-- Every call uses up one tick at most. -/
theorem nextTick_runAll (calls : List QueueCall) (queue : EvictionQueue) :
    (runAll answer calls queue).2.nextTick ≤ queue.nextTick + calls.length := by
  induction calls generalizing queue with
  | nil => exact Nat.le_refl _
  | cons call rest ih =>
    have hstep := nextTick_answer call queue
    have hrest := ih (queue.answer call).2
    rw [runAll_cons, List.length_cons]
    dsimp only
    omega

/-- The frame stands in the queue from before the first of the calls until after the last one. -/
def Waits (queue : EvictionQueue) (calls : List QueueCall) (frame : FrameIndex) : Prop :=
  ∀ done, done <+: calls → frame ∈ (runAll answer done queue).2.order

theorem waits_nil : queue.Waits [] frame ↔ frame ∈ queue.order := by
  unfold Waits
  simp [runAll]

theorem waits_concat {calls : List QueueCall} {call : QueueCall} : queue.Waits (calls ++ [call]) frame ↔
    queue.Waits calls frame ∧ frame ∈ (runAll answer (calls ++ [call]) queue).2.order := by
  unfold Waits
  simp only [List.prefix_concat_iff]
  constructor
  · exact fun h => ⟨fun done hdone => h done (.inr hdone), h _ (.inl rfl)⟩
  · rintro ⟨hbefore, hnow⟩ done (rfl | hdone)
    · exact hnow
    · exact hbefore done hdone

/-- The frame in front has waited longer: since some call it waits without a break, and the other one does not. -/
theorem exists_earlier {capacity : Nat} (calls : List QueueCall)
    (h : [frame, other].Sublist (runAll answer calls (empty capacity)).2.order) :
    ∃ before after, calls = before ++ after ∧ (runAll answer before (empty capacity)).2.Waits after frame ∧
      ¬(runAll answer before (empty capacity)).2.Waits after other := by
  induction calls using List.reverseRecOn with
  | nil =>
    change [frame, other].Sublist (empty capacity).order at h
    rw [order_empty] at h
    cases h
  | append_singleton calls call ih =>
    have hmem : frame ∈ (runAll answer (calls ++ [call]) (empty capacity)).2.order := h.subset List.mem_cons_self
    rw [runAll_append] at h
    -- the frame was ahead before the last call already, or the other one came with it
    rcases ((models_empty capacity).run calls).2.wellFormed.ahead_of_answer h with hahead | ⟨hthere, hnew⟩
    · obtain ⟨before, after, rfl, hframe, hother⟩ := ih hahead
      refine ⟨before, after ++ [call], List.append_assoc .., waits_concat.2 ⟨hframe, ?_⟩, fun hwaits => ?_⟩
      · rwa [List.append_assoc, runAll_append] at hmem
      · exact hother (waits_concat.1 hwaits).1
    · rw [runAll_append] at hmem
      have hwaits : (runAll answer calls (empty capacity)).2.Waits ([] ++ [call]) frame :=
        waits_concat.2 ⟨waits_nil.2 hthere, hmem⟩
      exact ⟨calls, [call], rfl, hwaits, fun hwaits => hnew (hwaits [] List.nil_prefix)⟩

/-- A queue that is used by less than 2^64 calls is a waiting line: it gives out the same frames, as many frames stand in
it, and in the same order.  Throughout, its two maps are inverse to each other and the ticks fit their words.  A frame
that it would give out next has waited longest: any other frame came later than it, or is not there. -/
theorem eviction_queue_is_waiting_line (capacity : Nat) (calls : List QueueCall) (hcalls : calls.length < 2 ^ 64) :
    let run := runAll answer calls (empty capacity)
    let line := runAll WaitingLine.answer calls (.empty capacity)
    run.1 = line.1 ∧ run.2.order = line.2.frames ∧ run.2.count = line.2.frames.length ∧
    (∀ (frame : FrameIndex) (tick : Nat), run.2.tickOf[frame]? = some tick ↔ run.2.frameAt[tick]? = some frame) ∧
    (∀ (tick : Nat) (frame : FrameIndex), run.2.frameAt[tick]? = some frame → tick < run.2.nextTick) ∧
    run.2.nextTick < 2 ^ 64 ∧
    ∀ frame, (run.2.answer .victim).1 = some frame → frame ∈ run.2.order ∧ ∀ other, other ≠ frame →
      ∃ before after, calls = before ++ after ∧ (runAll answer before (empty capacity)).2.Waits after frame ∧
        ¬(runAll answer before (empty capacity)).2.Waits after other := by
  intro run line
  obtain ⟨hreplies, hmodels⟩ := (models_empty capacity).run calls
  have hwf := hmodels.wellFormed
  have htick : run.2.nextTick ≤ 0 + calls.length := nextTick_runAll calls (empty capacity)
  refine ⟨hreplies, hmodels.order, hwf.count_eq.trans (congrArg _ hmodels.order), hwf.inverse, hwf.below, by omega,
    fun frame hvictim => ?_⟩
  have horder : ∃ rest, run.2.order = frame :: rest := by
    rw [(hmodels.answer .victim).1] at hvictim
    obtain ⟨rest, hrest⟩ := List.head?_eq_some_iff.1 hvictim
    exact ⟨rest, hmodels.order.trans hrest⟩
  obtain ⟨rest, horder⟩ := horder
  have hfront : frame ∈ run.2.order := by
    rw [horder]
    exact List.mem_cons_self
  refine ⟨hfront, fun other hother => ?_⟩
  by_cases hthere : other ∈ run.2.order
  · refine exists_earlier calls ?_
    change [frame, other].Sublist run.2.order
    rw [horder] at hthere ⊢
    exact List.cons_sublist_cons.2 (List.singleton_sublist.2 (List.mem_of_ne_of_mem hother hthere))
  · exact ⟨calls, [], (List.append_nil calls).symm, waits_nil.2 hfront, mt waits_nil.1 hthere⟩

/-- There is room for two of the three frames that come; the first one leaves and comes back, and the second is given
out. -/
theorem crowded_queue_is_waiting_line :
    let calls : List QueueCall := [.join 1, .join 2, .join 3, .join 1, .leave 1, .join 1, .victim]
    let run := runAll answer calls (empty 2)
    calls.length < 2 ^ 64 ∧ run.1 = [none, none, none, none, none, none, some 2] ∧ run.2.order = [1] ∧
      run.2.count = 1 := by
  intro calls run
  have hcalls : calls.length < 2 ^ 64 := by decide
  obtain ⟨hreplies, horder, hcount, -⟩ := eviction_queue_is_waiting_line 2 calls hcalls
  have hline : runAll WaitingLine.answer calls (.empty 2) =
      ([none, none, none, none, none, none, some 2], { frames := [1], nodup := by decide, fits := by decide }) := rfl
  rw [hline] at hreplies horder hcount
  exact ⟨hcalls, hreplies, horder, hcount⟩

end EvictionQueue

end RecordStore
