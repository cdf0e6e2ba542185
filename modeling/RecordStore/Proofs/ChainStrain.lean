import RecordStore.Proofs.RecordChanges

/-!
# Chains under strain

How much longer the chains of a record get when redirects cannot be rewritten after a move.  In a record that has been
through `n` such moves, two more than `n` hops are enough (`Layout.Stretched`): a move in which no call fails does not
lengthen a chain that was that long, and any other lengthens it by one hop (`Turns.stretched`).
-/

namespace RecordStore.Layout

variable {fallible whole : Prop} {layout layout' committed : Layout} {store : Store} {record record' : StoredRecord}
  {id : RecordId} {n m lift capacity : Nat} {payload : ByteArray} {rank : RecordId → Nat} {through : RecordId → Prop}

/-- A rank that falls along the redirects of the record.  Slots whose chains go `through` the first slot rank two higher
than others may. -/
structure Spans (layout : Layout) (record : StoredRecord) (n : Nat) (rank : RecordId → Nat)
    (through : RecordId → Prop) : Prop where
  falls : ∀ id ∈ record.former, ∀ capacity target, layout.header id = .moved capacity target →
    target ∈ record.ids ∧ rank target < rank id ∧ (through id → id ≠ record.first → through target)
  first : through record.first
  latest : record.first ≠ record.latest → ¬through record.latest
  first_le : ∀ id ∈ record.ids, through id → rank record.first ≤ rank id
  through_le : ∀ id ∈ record.ids, through id → rank id ≤ n + 2
  aside_le : ∀ id ∈ record.ids, ¬through id → rank id ≤ n

/-- The chains of the record are at most two hops longer than `n`, and only if they go through its first slot are they
longer than `n` at all. -/
def Stretched (layout : Layout) (record : StoredRecord) (n : Nat) : Prop :=
  ∃ rank through, layout.Spans record n rank through

namespace Spans

/-- A record with a single slot. -/
theorem single (hformer : record.former = []) : layout.Spans record n (fun _ => 0) fun _ => True where
  falls := by simp [hformer]
  first := trivial
  latest := by simp [StoredRecord.first, hformer]
  first_le := fun _ _ _ => Nat.le_refl 0
  through_le := fun _ _ _ => Nat.zero_le _
  aside_le := fun _ _ _ => Nat.zero_le _

/-- Where the redirects are some of those that there were. -/
theorem of_redirects (h : layout.Spans record n rank through)
    (hmoved : ∀ id ∈ record.former, ∀ capacity target, layout'.header id = .moved capacity target →
      layout.header id = .moved capacity target) : layout'.Spans record n rank through where
  falls := fun id hid capacity target hheader => h.falls id hid capacity target (hmoved id hid capacity target hheader)
  first := h.first
  latest := h.latest
  first_le := h.first_le
  through_le := h.through_le
  aside_le := h.aside_le

theorem mono (h : layout.Spans record n rank through) (hle : n ≤ m) : layout.Spans record m rank through where
  falls := h.falls
  first := h.first
  latest := h.latest
  first_le := h.first_le
  through_le := fun id hid hthrough => Nat.le_trans (h.through_le id hid hthrough) (Nat.add_le_add_right hle 2)
  aside_le := fun id hid haside => Nat.le_trans (h.aside_le id hid haside) hle

/-- The first move of a record. -/
theorem first_moved (hformer : record.former = []) (hid : id ∉ record.ids)
    (hprevious : ∃ capacity, layout'.header record.latest = .moved capacity id) :
    layout'.Spans (record.moved id capacity payload) n (fun other => if other = id then 0 else 1) (· ≠ id) := by
  have hids : record.ids = [record.latest] := by rw [StoredRecord.ids, hformer]
  have hfirst : (record.moved id capacity payload).first = record.latest := by
    rw [record.first_moved, StoredRecord.first, hformer]
    rfl
  have hne : record.latest ≠ id := fun heq => hid (heq ▸ List.mem_cons_self)
  refine ⟨fun other hother c target hmoved => ?_, ?_, ?_, ?_, ?_, ?_⟩
  · obtain rfl : other = record.latest := by simpa [StoredRecord.moved, hids] using hother
    obtain ⟨c', hheader⟩ := hprevious
    rw [hheader] at hmoved
    cases hmoved
    refine ⟨List.mem_cons_self, ?_, fun _ hnot => absurd hfirst.symm hnot⟩
    rw [if_pos rfl, if_neg hne]
    exact Nat.zero_lt_one
  · rw [hfirst]
    exact hne
  · exact fun _ hnot => hnot rfl
  · intro other _ hother
    rw [hfirst, if_neg hne, if_neg hother]
  · intro other _ hother
    rw [if_neg hother]
    omega
  · intro other _ hother
    rw [if_pos (not_not.1 hother)]
    exact Nat.zero_le n

/-- A move after which the first slot was not rewritten. -/
theorem kept (h : layout.Spans record n rank through) (hfirst : record.first ≠ record.latest) (hid : id ∉ record.ids)
    (hprevious : ∃ capacity, layout'.header record.latest = .moved capacity id)
    (hformer : ∀ other ∈ record.former, layout'.header other = layout.header other) :
    layout'.Spans (record.moved id capacity payload) (n + 1) (fun other => if other = id then 0 else rank other + 1)
      fun other => other ≠ id ∧ through other := by
  have hne : ∀ other ∈ record.ids, other ≠ id := by
    rintro other hother rfl
    exact hid hother
  have hrank : ∀ other ∈ record.ids, (if other = id then 0 else rank other + 1) = rank other + 1 :=
    fun other hother => if_neg (hne other hother)
  have hmem : ∀ other ∈ (record.moved id capacity payload).ids, other = id ∨ other ∈ record.ids :=
    fun other hother => List.mem_cons.1 hother
  refine ⟨fun other hother c target hmoved => ?_, ?_, fun _ hthrough => hthrough.1 rfl, fun other hother hthrough => ?_,
    fun other hother hthrough => ?_, fun other hother haside => ?_⟩
  · rw [record.first_moved]
    rcases List.mem_cons.1 hother with rfl | hother'
    · -- the slot before the new one is not reached through the first one
      obtain ⟨c', hheader⟩ := hprevious
      rw [hheader] at hmoved
      cases hmoved
      refine ⟨List.mem_cons_self, ?_, fun hthrough => absurd hthrough.2 (h.latest hfirst)⟩
      rw [if_pos rfl, hrank _ List.mem_cons_self]
      exact Nat.succ_pos _
    · rw [hformer other hother'] at hmoved
      obtain ⟨htarget, hlt, hthrough⟩ := h.falls other hother' c target hmoved
      refine ⟨List.mem_cons_of_mem _ htarget, ?_, fun hother hnot => ⟨hne target htarget, hthrough hother.2 hnot⟩⟩
      rw [hrank target htarget, hrank other (List.mem_cons_of_mem _ hother')]
      exact Nat.succ_lt_succ hlt
  · rw [record.first_moved]
    exact ⟨hne _ record.first_mem, h.first⟩
  · have hother' := (hmem other hother).resolve_left hthrough.1
    rw [record.first_moved, hrank _ record.first_mem, hrank other hother']
    exact Nat.succ_le_succ (h.first_le other hother' hthrough.2)
  · have hother' := (hmem other hother).resolve_left hthrough.1
    have hle := h.through_le other hother' hthrough.2
    rw [hrank other hother']
    omega
  · rcases hmem other hother with rfl | hother'
    · rw [if_pos rfl]
      exact Nat.zero_le _
    · have hle := h.aside_le other hother' fun hthrough => haside ⟨hne other hother', hthrough⟩
      rw [hrank other hother']
      omega

/-- Where a slot of a record that was moved to `id` leads after its chain was shortened: the first one to `id`, and any
other to the first one, to `id` if it was the latest and is not rewritten (unless the chain is shortened `whole`), or to
where it led before. -/
def Leading (layout : Layout) (record : StoredRecord) (id : RecordId) (whole : Prop)
    (other target : RecordId) (capacity : Nat) : Prop :=
  (other = record.first ∧ target = id) ∨ other ≠ record.first ∧
    ((target = record.first ∧ (other = record.latest → whole)) ∨ (other = record.latest ∧ ¬whole ∧ target = id) ∨
      other ∈ record.former ∧ layout.header other = .moved capacity target)

open Classical in
/-- Ranks after a move to `id` at which the first slot is pointed: chains through the first slot go on with one hop from
there, and all others rank `lift` higher. -/
noncomputable def liftedRank (record : StoredRecord) (rank : RecordId → Nat) (through : RecordId → Prop) (lift : Nat)
    (id other : RecordId) : Nat :=
  if other = id then 0 else if through other then rank other - rank record.first + 1 else rank other + lift

section

variable {other : RecordId}

theorem liftedRank_self : liftedRank record rank through lift id id = 0 := if_pos rfl

theorem liftedRank_through (hne : other ≠ id) (hthrough : through other) :
    liftedRank record rank through lift id other = rank other - rank record.first + 1 := by
  unfold liftedRank
  rw [if_neg hne, if_pos hthrough]

theorem liftedRank_aside (hne : other ≠ id) (haside : ¬through other) :
    liftedRank record rank through lift id other = rank other + lift := by
  unfold liftedRank
  rw [if_neg hne, if_neg haside]

theorem liftedRank_first (h : layout.Spans record n rank through) (hne : record.first ≠ id) :
    liftedRank record rank through lift id record.first = 1 := by
  rw [liftedRank_through hne h.first, Nat.sub_self]

theorem liftedRank_pos (hne : other ≠ id) (hlift : 0 < lift) : 0 < liftedRank record rank through lift id other := by
  by_cases hthrough : through other
  · rw [liftedRank_through hne hthrough]
    exact Nat.succ_pos _
  · rw [liftedRank_aside hne hthrough]
    omega

end

/-- A slot that leads on ranks above the first one, if its chain goes through there, and above none otherwise. -/
theorem rank_former (h : layout.Spans record n rank through)
    (hredirects : ∀ other ∈ record.former, ∃ capacity target, layout.header other = .moved capacity target)
    {other : RecordId} (hother : other ∈ record.former) :
    0 < rank other ∧ (through other → other ≠ record.first → rank record.first < rank other) := by
  obtain ⟨c, target, hmoved⟩ := hredirects other hother
  obtain ⟨htarget, hlt, hthrough⟩ := h.falls other hother c target hmoved
  refine ⟨Nat.zero_lt_of_lt hlt, fun hother' hnot => ?_⟩
  exact Nat.lt_of_le_of_lt (h.first_le target htarget (hthrough hother' hnot)) hlt

/-- A slot pointed at the first one ranks above it: its chain went there anyway, or it is aside and was lifted. -/
private theorem one_lt_liftedRank (h : layout.Spans record n rank through) (hfirst : record.first ≠ record.latest)
    (hredirects : ∀ other ∈ record.former, ∃ capacity target, layout.header other = .moved capacity target)
    {other : RecordId} (hother : other ∈ record.ids) (hne : other ≠ id) (hnot : other ≠ record.first)
    (hlift : 0 < lift) (hlatest : other = record.latest → 1 < lift) :
    1 < liftedRank record rank through lift id other := by
  by_cases hthrough : through other
  · have hformer : other ≠ record.latest := by
      rintro rfl
      exact h.latest hfirst hthrough
    have hlt := (h.rank_former hredirects ((List.mem_cons.1 hother).resolve_left hformer)).2 hthrough hnot
    rw [liftedRank_through hne hthrough]
    omega
  · rw [liftedRank_aside hne hthrough]
    by_cases hlast : other = record.latest
    · have hlift' := hlatest hlast
      omega
    · have hpos := (h.rank_former hredirects ((List.mem_cons.1 hother).resolve_left hlast)).1
      omega

/-- Along a redirect that is left as it was the ranks still fall. -/
private theorem liftedRank_lt (h : layout.Spans record n rank through) {other target : RecordId}
    (hne : other ≠ id) (htarget_ne : target ≠ id) (htarget : target ∈ record.ids) (hlt : rank target < rank other)
    (hthrough : through other → through target) (hlift : 0 < lift) :
    liftedRank record rank through lift id target < liftedRank record rank through lift id other := by
  by_cases hother : through other
  · have hle := h.first_le target htarget (hthrough hother)
    rw [liftedRank_through hne hother, liftedRank_through htarget_ne (hthrough hother)]
    omega
  · rw [liftedRank_aside hne hother]
    by_cases hnext : through target
    · rw [liftedRank_through htarget_ne hnext]
      omega
    · rw [liftedRank_aside htarget_ne hnext]
      omega

/-- The lifted ranks fall along the redirects of a record whose chain was shortened. -/
private theorem shortened_falls (h : layout.Spans record n rank through) (hfirst : record.first ≠ record.latest)
    (hid : id ∉ record.ids)
    (hredirects : ∀ other ∈ record.former, ∃ capacity target, layout.header other = .moved capacity target)
    (hlift : 0 < lift) (hwhole : whole → 1 < lift) {other target : RecordId} (hother : other ∈ record.ids)
    (hleading : Leading layout record id whole other target capacity) :
    target ∈ (record.moved id m payload).ids ∧
      liftedRank record rank through lift id target < liftedRank record rank through lift id other ∧
      (other ≠ id ∧ (whole ∨ through other) → other ≠ record.first → target ≠ id ∧ (whole ∨ through target)) := by
  have hne : ∀ other ∈ record.ids, other ≠ id := by
    rintro other hother rfl
    exact hid hother
  rcases hleading with ⟨rfl, rfl⟩ | ⟨hnot, ⟨rfl, hlatest⟩ | ⟨rfl, hpart, rfl⟩ | ⟨hformer, hheader⟩⟩
  · refine ⟨List.mem_cons_self, ?_, fun _ hnot => absurd rfl hnot⟩
    rw [liftedRank_self]
    exact liftedRank_pos (hne _ hother) hlift
  · refine ⟨List.mem_cons_of_mem _ record.first_mem, ?_, fun _ _ => ⟨hne _ record.first_mem, .inr h.first⟩⟩
    rw [h.liftedRank_first (hne _ record.first_mem)]
    exact h.one_lt_liftedRank hfirst hredirects hother (hne other hother) hnot hlift fun heq => hwhole (hlatest heq)
  · have haside := not_or.2 ⟨hpart, h.latest hfirst⟩
    refine ⟨List.mem_cons_self, ?_, fun hthrough => absurd hthrough.2 haside⟩
    rw [liftedRank_self]
    exact liftedRank_pos (hne _ hother) hlift
  · obtain ⟨htarget, hlt, hthrough⟩ := h.falls other hformer capacity target hheader
    have hnext : through other → through target := fun hother => hthrough hother hnot
    refine ⟨List.mem_cons_of_mem _ htarget, ?_, fun hother => ?_⟩
    · exact h.liftedRank_lt (hne other hother) (hne target htarget) htarget hlt hnext hlift
    · exact fun _ => ⟨hne target htarget, hother.2.imp_right hnext⟩

/-- A move after which the first slot leads to the new one.  Chains through the first slot get no longer; any other gets
one hop longer, or two if its end was pointed at the first slot as well. -/
theorem shortened (h : layout.Spans record n rank through) (hfirst : record.first ≠ record.latest)
    (hid : id ∉ record.ids)
    (hredirects : ∀ other ∈ record.former, ∃ capacity target, layout.header other = .moved capacity target)
    (hleading : ∀ other ∈ record.ids, ∀ capacity target, layout'.header other = .moved capacity target →
      Leading layout record id whole other target capacity)
    (hlift : whole ∧ lift = 2 ∧ n ≤ m ∨ ¬whole ∧ lift = 1 ∧ n + 1 ≤ m) :
    layout'.Spans (record.moved id capacity payload) m (liftedRank record rank through lift id)
      fun other => other ≠ id ∧ (whole ∨ through other) := by
  have hne : ∀ other ∈ record.ids, other ≠ id := by
    rintro other hother rfl
    exact hid hother
  have hmem : ∀ other ∈ (record.moved id capacity payload).ids, other = id ∨ other ∈ record.ids :=
    fun other hother => List.mem_cons.1 hother
  have hlift_pos : 0 < lift := by omega
  have hfirst_pos := (h.rank_former hredirects (record.first_mem_former hfirst)).1
  refine ⟨fun other hother c target hmoved => ?_, ?_, fun _ hthrough => hthrough.1 rfl, fun other hother hthrough => ?_,
    fun other hother hthrough => ?_, fun other hother haside => ?_⟩
  · have hother' : other ∈ record.ids := hother
    rw [record.first_moved]
    refine h.shortened_falls hfirst hid hredirects hlift_pos (fun hwhole => ?_) hother'
      (hleading other hother' c target hmoved)
    rcases hlift with ⟨-, hlift, -⟩ | ⟨hpart, -⟩
    · omega
    · exact absurd hwhole hpart
  · rw [record.first_moved]
    exact ⟨hne _ record.first_mem, .inr h.first⟩
  · rw [record.first_moved, h.liftedRank_first (hne _ record.first_mem)]
    exact liftedRank_pos hthrough.1 hlift_pos
  · have hother' := (hmem other hother).resolve_left hthrough.1
    by_cases hold : through other
    · have hle := h.through_le other hother' hold
      rw [liftedRank_through hthrough.1 hold]
      omega
    · have hle := h.aside_le other hother' hold
      rw [liftedRank_aside hthrough.1 hold]
      omega
  · rcases hmem other hother with rfl | hother'
    · rw [liftedRank_self]
      exact Nat.zero_le m
    · have hboth : ¬(whole ∨ through other) := fun hthrough => haside ⟨hne other hother', hthrough⟩
      have hle := h.aside_le other hother' (not_or.1 hboth).2
      rw [liftedRank_aside (hne other hother') (not_or.1 hboth).2]
      rcases hlift with ⟨hwhole, -⟩ | ⟨-, rfl, hm⟩
      · exact absurd (.inl hwhole) hboth
      · omega

end Spans

namespace Stretched

/-- Two more hops than the record is stretched lead from any of its slots to the latest one. -/
theorem near (h : layout.Stretched record n) (hstores : layout.Stores record) (hid : id ∈ record.ids) :
    layout.Near id (n + 2) := by
  obtain ⟨rank, through, hspans⟩ := h
  have hfalls : ∀ other ∈ record.ids, ∀ capacity target, layout.header other = .moved capacity target →
      target ∈ record.ids ∧ rank target < rank other := by
    intro other hother capacity target hmoved
    obtain ⟨htarget, hlt, -⟩ := hspans.falls other (hstores.mem_former hother hmoved) capacity target hmoved
    exact ⟨htarget, hlt⟩
  obtain ⟨passed, last, hleads, hlength, -, -⟩ := leads_of_rank hfalls hid
  have hrank : rank id ≤ n + 2 := by
    by_cases hthrough : through id
    · exact hspans.through_le id hid hthrough
    · have hle := hspans.aside_le id hid hthrough
      omega
  intro passed' last' hleads'
  obtain ⟨rfl, -⟩ := hleads.unique hleads'
  exact Nat.le_trans hlength hrank

/-- Where the redirects of a record lead once its first slot leads to the new one and some of them to the first. -/
private theorem leading_overwrite (hprevious : committed.header record.latest = .moved record.capacity id)
    (hformer : ∀ other ∈ record.former, committed.slot other = layout.slot other) {capacity : Nat}
    {done : List Redirect} (hdone : ∀ redirect ∈ done, redirect.id ≠ record.first) {other : RecordId}
    (hother : other ∈ record.ids) {c : Nat} {target : RecordId}
    (hmoved : ((committed.set record.first (.bare (.moved capacity id))).overwrite
      (fun redirect => .moved redirect.capacity record.first) done).header other = .moved c target) :
    Spans.Leading layout record id (record.latest ∈ done.map (·.id)) other target c := by
  by_cases hmem : other ∈ done.map (·.id)
  · -- a redirect that was pointed at the first slot
    obtain ⟨redirect, hredirect, rfl, hslot⟩ := @slot_overwrite_of_mem
      (committed.set record.first (.bare (.moved _ id))) (fun redirect => .moved redirect.capacity record.first) _ _
      hmem
    rw [header, hslot] at hmoved
    cases hmoved
    exact .inr ⟨hdone redirect hredirect, .inl ⟨rfl, fun hlatest => hlatest ▸ hmem⟩⟩
  · rw [header, slot_overwrite_of_notMem hmem] at hmoved
    by_cases heq : other = record.first
    · rw [heq, slot_set_self] at hmoved
      cases hmoved
      exact .inl ⟨heq, rfl⟩
    · rw [slot_set_of_ne _ _ heq] at hmoved
      right
      refine ⟨heq, .inr ?_⟩
      rcases List.mem_cons.1 hother with rfl | hother'
      · change committed.header record.latest = _ at hmoved
        rw [hprevious] at hmoved
        cases hmoved
        exact .inl ⟨rfl, hmem, rfl⟩
      · rw [hformer other hother'] at hmoved
        exact .inr ⟨hother', hmoved⟩

/-- A record that was moved, as far as its chain was shortened. -/
theorem moved (h : layout.Stretched record n) (hstores : layout.Stores record) {old : ByteArray}
    (hlive : record.payload = some old) (hid : id ∉ record.ids)
    (hprevious : committed.header record.latest = .moved record.capacity id)
    (hformer : ∀ other ∈ record.former, committed.slot other = layout.slot other)
    (hshortened : Shortened fallible layout record id committed layout') (hm : n ≤ m) (hraised : fallible → n + 1 ≤ m) :
    layout'.Stretched (record.moved id capacity payload) m := by
  obtain ⟨rank, through, hspans⟩ := h
  have hheader : ∀ other ∈ record.former, committed.header other = layout.header other := by
    intro other hother
    rw [header, hformer other hother, header]
  cases hshortened with
  | unmoved hfirst =>
    have hnone : record.former = [] := by
      by_contra hsome
      have hlast := List.getLast?_eq_getLast_of_ne_nil hsome
      have hmem : record.first ∈ record.former := by
        rw [StoredRecord.first, hlast]
        exact List.getLast_mem hsome
      exact hstores.latest_ne hmem hfirst.symm
    exact ⟨_, _, .first_moved hnone hid ⟨_, hprevious⟩⟩
  | kept hfirst hfallible =>
    exact ⟨_, _, (hspans.kept hfirst hid ⟨_, hprevious⟩ hheader).mono (hraised hfallible)⟩
  | @shortened _ done hfirst hcapacity hdone hall =>
    -- unless the slot before the new one leads to the first slot, chains may be longer by a hop
    have hlift : ∃ lift, record.latest ∈ done.map (·.id) ∧ lift = 2 ∧ n ≤ m ∨
        record.latest ∉ done.map (·.id) ∧ lift = 1 ∧ n + 1 ≤ m := by
      by_cases hwhole : record.latest ∈ done.map (·.id)
      · exact ⟨2, .inl ⟨hwhole, rfl, hm⟩⟩
      · exact ⟨1, .inr ⟨hwhole, rfl, hraised (not_not.1 fun hreliable => hwhole (hall hreliable))⟩⟩
    obtain ⟨lift, hlift⟩ := hlift
    refine ⟨_, _, hspans.shortened hfirst hid (fun other hother => ?_) (fun other hother c target hmoved => ?_) hlift⟩
    · rcases hstores.former other hother with hmoved | ⟨hdead, -⟩
      · exact hmoved
      · rw [hdead] at hlive
        cases hlive
    · exact leading_overwrite hprevious hformer (fun redirect hredirect => (hdone redirect hredirect).2.1) hother hmoved

end Stretched

/-- The same with another payload, or none, where the redirects are some of those that there were. -/
theorem Stretched.of_redirects (h : layout.Stretched record n) (hle : n ≤ m) (hlatest : record'.latest = record.latest)
    (hformer : record'.former = record.former)
    (hmoved : ∀ id ∈ record.former, ∀ capacity target, layout'.header id = .moved capacity target →
      layout.header id = .moved capacity target) : layout'.Stretched record' m := by
  obtain ⟨rank, through, hspans⟩ := h
  have hspans' := (hspans.of_redirects hmoved).mono hle
  have hids : record'.ids = record.ids := by rw [StoredRecord.ids, hlatest, hformer, StoredRecord.ids]
  have hfirst : record'.first = record.first := by rw [StoredRecord.first, hlatest, hformer, StoredRecord.first]
  refine ⟨rank, through, ?_, ?_, ?_, ?_, ?_, ?_⟩
  · rw [hformer, hids, hfirst]
    exact hspans'.falls
  · rw [hfirst]
    exact hspans'.first
  · rw [hfirst, hlatest]
    exact hspans'.latest
  · rw [hids, hfirst]
    exact hspans'.first_le
  · rw [hids]
    exact hspans'.through_le
  · rw [hids]
    exact hspans'.aside_le

/-- An operation stretches the chains of a record only if it moves it and a call fails. -/
theorem Turns.stretched (h : Turns fallible layout store layout' record') {strain strain' : RecordId → Nat}
    (hstores : ∀ record ∈ store.records, layout.Stores record)
    (hstretched : ∀ record ∈ store.records, layout.Stretched record (strain record.first))
    (hstrain : ∀ id, strain id ≤ strain' id)
    (hraised : fallible → ∀ record ∈ store.records, record'.former = record.ids →
      strain record.first + 1 ≤ strain' record.first) : layout'.Stretched record' (strain' record'.first) := by
  have hsame : ∀ {record : StoredRecord}, (∀ id ∈ record.former, layout'.slot id = layout.slot id) →
      ∀ id ∈ record.former, ∀ capacity target, layout'.header id = .moved capacity target →
        layout.header id = .moved capacity target := by
    intro record hslots id hid capacity target hmoved
    rwa [header, hslots id hid] at hmoved
  cases h with
  | kept hrecord hslots =>
    exact (hstretched _ hrecord).of_redirects (hstrain _) rfl rfl
      (hsame fun id hid => hslots id (List.mem_cons_of_mem _ hid))
  | inserted hformer => exact ⟨_, _, .single hformer⟩
  | overwritten hrecord hlive hslots => exact (hstretched _ hrecord).of_redirects (hstrain _) rfl rfl (hsame hslots)
  | @moved record id capacity payload old committed hrecord hlive hid hprevious hformer hshortened =>
    rw [record.first_moved]
    exact (hstretched record hrecord).moved (hstores record hrecord) hlive hid hprevious hformer hshortened (hstrain _)
      fun hfallible => hraised hfallible record hrecord rfl
  | deleted hrecord hlive hformer => exact (hstretched _ hrecord).of_redirects (hstrain _) rfl rfl hformer

end RecordStore.Layout
