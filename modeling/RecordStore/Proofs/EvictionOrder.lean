import Mathlib.Data.List.Nodup
import Std.Data.TreeMap.Lemmas
import RecordStore.Cache.EvictionQueue

/-!
# The order of eviction

What the operations of the eviction queue do to the queue seen as a list.  The two maps are inverse to each other and
every tick lies below the next one (`EvictionQueue.WellFormed`), so a frame that joins stands last (`order_join`), one
that leaves is erased (`order_leave`), and the victim is the head (`victim?_eq`).
-/

namespace RecordStore

theorem getElem?_insert_treeMap (map : Std.TreeMap Nat Nat) (key value other : Nat) :
    (map.insert key value)[other]? = if key = other then some value else map[other]? := by
  rw [Std.TreeMap.getElem?_insert]
  simp only [Nat.compare_eq_eq]

theorem getElem?_erase_treeMap (map : Std.TreeMap Nat Nat) (key other : Nat) :
    (map.erase key)[other]? = if key = other then none else map[other]? := by
  rw [Std.TreeMap.getElem?_erase]
  simp only [Nat.compare_eq_eq]

namespace EvictionQueue

variable {queue : EvictionQueue} {frame : FrameIndex}

structure WellFormed (queue : EvictionQueue) : Prop where
  inverse : ∀ (frame : FrameIndex) (tick : Nat), queue.tickOf[frame]? = some tick ↔ queue.frameAt[tick]? = some frame
  below : ∀ (tick : Nat) (frame : FrameIndex), queue.frameAt[tick]? = some frame → tick < queue.nextTick

theorem wellFormed_empty (capacity : Nat) : (empty capacity).WellFormed := ⟨by simp [empty], by simp [empty]⟩

@[simp] theorem order_empty (capacity : Nat) : (empty capacity).order = [] := by
  have hnil : (∅ : Std.TreeMap Nat FrameIndex).toList = [] := rfl
  unfold order empty
  rw [hnil, List.map_nil]

@[simp] theorem capacity_join (queue : EvictionQueue) (frame : FrameIndex) :
    (queue.join frame).capacity = queue.capacity := by
  unfold join
  split <;> rfl

@[simp] theorem capacity_leave (queue : EvictionQueue) (frame : FrameIndex) :
    (queue.leave frame).capacity = queue.capacity := by
  unfold leave
  split <;> rfl

/-! ### Maps by ticks -/

private def Before (a b : Nat × FrameIndex) : Prop := a.1 < b.1

private theorem toList_sorted (frameAt : Std.TreeMap Nat FrameIndex) : frameAt.toList.Pairwise Before :=
  frameAt.ordered_keys_toList.imp fun h => Nat.compare_eq_lt.1 h

/-- A map is read off in one way only. -/
private theorem toList_eq {frameAt : Std.TreeMap Nat FrameIndex} {entries : List (Nat × FrameIndex)}
    (hsorted : entries.Pairwise Before) (hmem : ∀ tick frame, (tick, frame) ∈ entries ↔ frameAt[tick]? = some frame) :
    frameAt.toList = entries := by
  have hnodup : ∀ {entries : List (Nat × FrameIndex)}, entries.Pairwise Before → entries.Nodup := by
    intro entries h
    apply h.imp
    rintro a _ hlt rfl
    exact Nat.lt_irrefl _ hlt
  have hperm : frameAt.toList.Perm entries := by
    apply (List.perm_ext_iff_of_nodup (hnodup (toList_sorted frameAt)) (hnodup hsorted)).2
    rintro ⟨tick, frame⟩
    rw [hmem, Std.TreeMap.mem_toList_iff_getElem?_eq_some]
  exact hperm.eq_of_pairwise (fun a b _ _ hab hba => absurd hab (Nat.lt_asymm hba)) (toList_sorted frameAt) hsorted

private theorem toList_insert {frameAt : Std.TreeMap Nat FrameIndex} {tick : Nat}
    (h : ∀ earlier frame, frameAt[earlier]? = some frame → earlier < tick) (frame : FrameIndex) :
    (frameAt.insert tick frame).toList = frameAt.toList ++ [(tick, frame)] := by
  have hlast : ∀ entry ∈ frameAt.toList, entry.1 < tick := fun entry hentry =>
    h entry.1 entry.2 (Std.TreeMap.mem_toList_iff_getElem?_eq_some.1 hentry)
  apply toList_eq
  · apply List.pairwise_append.2
    refine ⟨toList_sorted frameAt, List.pairwise_singleton .., fun a ha b hb => ?_⟩
    rw [List.mem_singleton.1 hb]
    exact hlast a ha
  · intro other waiting
    rw [getElem?_insert_treeMap, List.mem_append, List.mem_singleton, Std.TreeMap.mem_toList_iff_getElem?_eq_some]
    by_cases htick : tick = other
    · subst htick
      have hnone : frameAt[tick]? ≠ some waiting := fun hsome => Nat.lt_irrefl _ (h _ _ hsome)
      simp [hnone, eq_comm]
    · simp [htick, Ne.symm htick]

private theorem toList_erase (frameAt : Std.TreeMap Nat FrameIndex) (tick : Nat) :
    (frameAt.erase tick).toList = frameAt.toList.filter (·.1 ≠ tick) := by
  apply toList_eq
  · exact (toList_sorted frameAt).filter _
  · intro other waiting
    rw [getElem?_erase_treeMap, List.mem_filter, Std.TreeMap.mem_toList_iff_getElem?_eq_some]
    by_cases htick : tick = other
    · simp [htick]
    · simp [htick, Ne.symm htick]

/-! ### The queue as a list -/

namespace WellFormed

variable (h : queue.WellFormed)

include h

theorem mem_order : frame ∈ queue.order ↔ ∃ tick, queue.tickOf[frame]? = some tick := by
  unfold order
  rw [List.mem_map]
  constructor
  · rintro ⟨⟨tick, waiting⟩, hmem, rfl⟩
    exact ⟨tick, (h.inverse _ _).2 (Std.TreeMap.mem_toList_iff_getElem?_eq_some.1 hmem)⟩
  · rintro ⟨tick, htick⟩
    exact ⟨(tick, frame), Std.TreeMap.mem_toList_iff_getElem?_eq_some.2 ((h.inverse _ _).1 htick), rfl⟩

theorem contains_iff : queue.tickOf.contains frame ↔ frame ∈ queue.order := by
  rw [h.mem_order, Std.TreeMap.contains_eq_isSome_getElem?, Option.isSome_iff_exists]

theorem nodup_order : queue.order.Nodup := by
  unfold order
  apply (List.pairwise_map).2
  apply (toList_sorted queue.frameAt).imp_of_mem
  rintro ⟨tick, waiting⟩ ⟨tick', waiting'⟩ hmem hmem' hlt heq
  have htick := (h.inverse _ _).2 (Std.TreeMap.mem_toList_iff_getElem?_eq_some.1 hmem)
  have htick' := (h.inverse _ _).2 (Std.TreeMap.mem_toList_iff_getElem?_eq_some.1 hmem')
  have hsame : waiting = waiting' := heq
  rw [hsame, htick'] at htick
  exact absurd (Option.some.inj htick) (Nat.ne_of_gt hlt)

theorem count_eq : queue.count = queue.order.length := by
  have hperm : queue.tickOf.keys.Perm queue.order := by
    apply (List.perm_ext_iff_of_nodup Std.TreeMap.nodup_keys h.nodup_order).2
    intro frame
    rw [Std.TreeMap.mem_keys, Std.TreeMap.mem_iff_isSome_getElem?, h.mem_order, Option.isSome_iff_exists]
  unfold count
  rw [← Std.TreeMap.length_keys, hperm.length_eq]

/-- A frame that joins stands last. -/
theorem order_join : (queue.join frame).order =
    if frame ∈ queue.order ∨ queue.capacity ≤ queue.order.length then queue.order else queue.order ++ [frame] := by
  unfold join
  simp only [Bool.or_eq_true, h.contains_iff, decide_eq_true_iff, h.count_eq]
  by_cases hkept : frame ∈ queue.order ∨ queue.capacity ≤ queue.order.length
  · rw [if_pos hkept, if_pos hkept]
  · rw [if_neg hkept, if_neg hkept]
    unfold order
    dsimp only
    rw [toList_insert h.below, List.map_append]
    rfl

/-- A queue for as many frames as there are has a place for each of them. -/
theorem mem_order_join {count : Nat} (hinside : ∀ other ∈ queue.order, other < count)
    (hroom : count ≤ queue.capacity) (hframe : frame < count) (other : FrameIndex) :
    other ∈ (queue.join frame).order ↔ other = frame ∨ other ∈ queue.order := by
  rw [h.order_join]
  by_cases hmem : frame ∈ queue.order
  · rw [if_pos (.inl hmem)]
    refine ⟨.inr, ?_⟩
    rintro (rfl | hother)
    · exact hmem
    · exact hother
  · -- the frame and those that wait differ, so there is a place for one more
    have hsubset : frame :: queue.order ⊆ List.range count := by
      intro other hother
      rcases List.mem_cons.1 hother with rfl | hother
      · exact List.mem_range.2 hframe
      · exact List.mem_range.2 (hinside other hother)
    have hle := (List.nodup_cons.2 ⟨hmem, h.nodup_order⟩).length_le_of_subset hsubset
    rw [List.length_cons, List.length_range] at hle
    have hlength : queue.order.length < queue.capacity := Nat.lt_of_lt_of_le hle hroom
    rw [if_neg (by simp [hmem, hlength]), List.mem_append, List.mem_singleton, or_comm]

theorem join : (queue.join frame).WellFormed := by
  unfold EvictionQueue.join
  by_cases hkept : queue.tickOf.contains frame || decide (queue.capacity ≤ queue.count)
  · rw [if_pos hkept]
    exact h
  · rw [if_neg hkept]
    have hnew : queue.tickOf[frame]? = none := by
      simp only [Bool.or_eq_true, not_or, Std.TreeMap.contains_eq_isSome_getElem?] at hkept
      exact Option.not_isSome_iff_eq_none.1 hkept.1
    constructor
    · intro other tick
      rw [getElem?_insert_treeMap, getElem?_insert_treeMap]
      have hfresh : queue.frameAt[queue.nextTick]? ≠ some other :=
        fun hsome => Nat.lt_irrefl _ (h.below _ _ hsome)
      by_cases hother : frame = other
      · subst hother
        have hnone : queue.frameAt[tick]? ≠ some frame := fun hsome => by
          rw [← h.inverse, hnew] at hsome
          cases hsome
        by_cases htick : queue.nextTick = tick <;> simp [htick, hnone]
      · by_cases htick : queue.nextTick = tick
        · subst htick
          have hnone : queue.tickOf[other]? ≠ some queue.nextTick := fun hsome => hfresh ((h.inverse _ _).1 hsome)
          simp [hother, hnone]
        · simpa [hother, htick] using h.inverse other tick
    · intro tick other hsome
      rw [getElem?_insert_treeMap] at hsome
      by_cases htick : queue.nextTick = tick
      · exact htick ▸ Nat.lt_succ_self _
      · rw [if_neg htick] at hsome
        exact Nat.lt_succ_of_lt (h.below _ _ hsome)

/-- Taking out the frame under a tick. -/
private theorem erase {tick : Nat} (htick : queue.tickOf[frame]? = some tick) :
    WellFormed { queue with frameAt := queue.frameAt.erase tick, tickOf := queue.tickOf.erase frame } ∧
      order { queue with frameAt := queue.frameAt.erase tick, tickOf := queue.tickOf.erase frame } =
        queue.order.erase frame := by
  have hframe := (h.inverse _ _).1 htick
  -- the two maps are inverse, so one entry goes with the other
  have hiff : ∀ {other waiting}, queue.frameAt[other]? = some waiting → (other = tick ↔ waiting = frame) := by
    intro other waiting hsome
    constructor
    · rintro rfl
      rw [hframe] at hsome
      exact (Option.some.inj hsome).symm
    · rintro rfl
      rw [← h.inverse, htick] at hsome
      exact (Option.some.inj hsome).symm
  constructor
  · constructor
    · intro other place
      dsimp only
      rw [getElem?_erase_treeMap, getElem?_erase_treeMap]
      by_cases hsome : queue.frameAt[place]? = some other
      · have hsame := hiff hsome
        have hplace := (h.inverse _ _).2 hsome
        by_cases hother : frame = other
        · simp [hother, hsame.2 hother.symm]
        · have hne : tick ≠ place := fun heq => hother (hsame.1 heq.symm).symm
          simp [hother, hne, hsome, hplace]
      · have hplace : queue.tickOf[other]? ≠ some place := fun hsome' => hsome ((h.inverse _ _).1 hsome')
        simp [hsome, hplace]
    · intro other waiting hsome
      dsimp only at hsome
      rw [getElem?_erase_treeMap] at hsome
      split at hsome
      · cases hsome
      · exact h.below _ _ hsome
  · rw [h.nodup_order.erase_eq_filter]
    unfold order
    dsimp only
    rw [toList_erase, List.filter_map]
    congr 1
    apply List.filter_congr
    intro entry hentry
    have hsame := hiff (Std.TreeMap.mem_toList_iff_getElem?_eq_some.1 hentry)
    by_cases hframe : entry.2 = frame
    · simp [hframe, hsame.2 hframe]
    · simp [hframe, mt hsame.1 hframe]

/-- A frame that leaves is gone, and the others keep their places. -/
theorem order_leave : (queue.leave frame).order = queue.order.erase frame := by
  unfold leave
  cases htick : queue.tickOf[frame]? with
  | none =>
    have hmem : frame ∉ queue.order := by
      rw [h.mem_order, htick]
      simp
    rw [List.erase_of_not_mem hmem]
  | some tick => exact (h.erase htick).2

theorem leave : (queue.leave frame).WellFormed := by
  unfold EvictionQueue.leave
  cases htick : queue.tickOf[frame]? with
  | none => exact h
  | some tick => exact (h.erase htick).1

/-- The victim is the head of the queue. -/
theorem victim?_eq {rest : List FrameIndex} (horder : queue.order = frame :: rest) :
    ∃ queue', queue.victim? = some (frame, queue') ∧ queue'.WellFormed ∧ queue'.order = rest ∧
      queue'.capacity = queue.capacity := by
  unfold order at horder
  unfold victim?
  cases hentries : queue.frameAt.toList with
  | nil =>
    rw [hentries] at horder
    cases horder
  | cons entry entries =>
    obtain ⟨tick, waiting⟩ := entry
    rw [hentries, List.map_cons] at horder
    obtain ⟨rfl, hrest⟩ := List.cons.inj horder
    have htick : queue.tickOf[waiting]? = some tick := by
      apply (h.inverse _ _).2
      apply Std.TreeMap.mem_toList_iff_getElem?_eq_some.1
      rw [hentries]
      exact List.mem_cons_self
    obtain ⟨hwf, herase⟩ := h.erase htick
    refine ⟨_, rfl, hwf, ?_, rfl⟩
    rw [herase]
    unfold order
    rw [hentries, List.map_cons, List.erase_cons_head, hrest]

end WellFormed

end EvictionQueue

end RecordStore
