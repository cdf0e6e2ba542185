import RecordStore.Proofs.Representation

/-!
# How long chains get

As long as no write fails the first slot of a record leads to its latest one and all others lead to the first
(`Layout.Tidy`), so that two hops suffice.  A move that is cut off leaves the redirects of its record in a little less
order (`Layout.Loose`): one hop more.  Other operations leave tidy redirects tidy even if their writes fail.
-/

namespace RecordStore

namespace StoredRecord

theorem first_mem (record : StoredRecord) : record.first ∈ record.ids := by
  unfold first ids
  cases h : record.former.getLast? with
  | none => simp
  | some id => exact List.mem_cons_of_mem _ (List.mem_of_getLast? h)

theorem first_mem_former (record : StoredRecord) (h : record.first ≠ record.latest) : record.first ∈ record.former := by
  rcases List.mem_cons.1 record.first_mem with heq | hmem
  · exact absurd heq h
  · exact hmem

theorem first_moved (record : StoredRecord) (id : RecordId) (capacity : Nat) (payload : ByteArray) :
    (record.moved id capacity payload).first = record.first := by
  unfold first moved ids
  rw [List.getLast?_cons]
  rfl

end StoredRecord

namespace Layout

variable {layout layout' : Layout} {record : StoredRecord} {id target : RecordId} {n m capacity : Nat}

/-- The slot `id` leads on in at most `n` hops. -/
def Near (layout : Layout) (id : RecordId) (n : Nat) : Prop :=
  ∀ passed last, layout.Leads id passed last → passed.length ≤ n

theorem near_of_redirect?_none (h : (layout.header id).redirect? = none) : layout.Near id n := by
  intro passed last hleads
  have hnil := (hleads.unique (.here h)).1
  rw [← hnil]
  exact Nat.zero_le _

theorem Near.mono (h : layout.Near id n) (hle : n ≤ m) : layout.Near id m :=
  fun passed last hleads => Nat.le_trans (h passed last hleads) hle

theorem Near.hop (h : layout.Near target n) (hmoved : layout.header id = .moved capacity target) :
    layout.Near id (n + 1) := by
  intro passed last hleads
  cases hleads with
  | here hnone => simp [hmoved, SlotHeader.redirect?] at hnone
  | hop hmoved' hrest =>
    rw [hmoved] at hmoved'
    cases hmoved'
    exact Nat.succ_le_succ (h _ _ hrest)

namespace Stores

theorem near_latest (h : layout.Stores record) : layout.Near record.latest n :=
  near_of_redirect?_none h.redirect?_latest

/-- A slot leads no further than where its redirect points, one hop more. -/
theorem near_of_former (h : layout.Stores record) (hid : id ∈ record.former)
    (htarget : ∀ capacity target, layout.header id = .moved capacity target → layout.Near target n) :
    layout.Near id (n + 1) := by
  rcases h.former id hid with ⟨capacity, target, hmoved⟩ | ⟨-, capacity, length, hdead⟩
  · exact (htarget capacity target hmoved).hop hmoved
  · refine near_of_redirect?_none ?_
    rw [hdead]
    rfl

/-- Where a redirect at the first slot leads on in `n` hops, and the others to the first slot or the latest one, two hops
more are enough. -/
theorem near_of_first (h : layout.Stores record)
    (hfirst : ∀ capacity target, layout.header record.first = .moved capacity target → layout.Near target n)
    (hothers : ∀ other ∈ record.former, other ≠ record.first → ∀ capacity target,
      layout.header other = .moved capacity target → target = record.latest ∨ target = record.first)
    (hid : id ∈ record.ids) : layout.Near id (n + 2) := by
  have hnear : layout.Near record.first (n + 1) := by
    rcases List.mem_cons.1 record.first_mem with heq | hformer
    · exact heq ▸ h.near_latest
    · exact h.near_of_former hformer hfirst
  by_cases heq : id = record.first
  · exact heq ▸ hnear.mono (by omega)
  · rcases List.mem_cons.1 hid with rfl | hformer
    · exact h.near_latest
    · refine h.near_of_former hformer fun capacity target hmoved => ?_
      rcases hothers id hformer heq capacity target hmoved with rfl | rfl
      · exact h.near_latest
      · exact hnear

end Stores

/-- The first slot of the record leads to the latest one, and every other redirect leads to the first. -/
def Tidy (layout : Layout) (record : StoredRecord) : Prop :=
  ∀ id ∈ record.former, ∀ capacity target, layout.header id = .moved capacity target →
    target = if id = record.first then record.latest else record.first

/-- The first slot of the record leads to the latest one, perhaps by way of one slot in between, and every other
redirect leads to the latest slot or the first. -/
def Loose (layout : Layout) (record : StoredRecord) : Prop :=
  ∀ id ∈ record.former, ∀ capacity target, layout.header id = .moved capacity target →
    target = record.latest ∨ (id ≠ record.first ∧ target = record.first) ∨
      id = record.first ∧ ∃ capacity', layout.header target = .moved capacity' record.latest

namespace Tidy

theorem loose (h : layout.Tidy record) : layout.Loose record := by
  intro id hid capacity target hmoved
  have htarget := h id hid capacity target hmoved
  by_cases hfirst : id = record.first
  · rw [if_pos hfirst] at htarget
    exact .inl htarget
  · rw [if_neg hfirst] at htarget
    exact .inr (.inl ⟨hfirst, htarget⟩)

/-- Two hops are enough for tidy redirects. -/
theorem near (h : layout.Tidy record) (hstores : layout.Stores record) (hid : id ∈ record.ids) : layout.Near id 2 := by
  refine hstores.near_of_first (n := 0) (fun capacity target hmoved => ?_)
    (fun other hformer hne capacity target hmoved => ?_) hid
  · rw [h _ (hstores.mem_former record.first_mem hmoved) capacity target hmoved, if_pos rfl]
    exact hstores.near_latest
  · exact .inr ((h other hformer capacity target hmoved).trans (if_neg hne))

theorem congr (h : layout.Tidy record) (hheader : ∀ id ∈ record.former, layout'.header id = layout.header id) :
    layout'.Tidy record := by
  intro id hid capacity target hmoved
  rw [hheader id hid] at hmoved
  exact h id hid capacity target hmoved

/-- Burying redirects leaves the others as they are. -/
theorem set (h : layout.Tidy record) {slot : Slot} (hslot : slot.header.redirect? = none) :
    (layout.set id slot).Tidy record := by
  intro other hother capacity target hmoved
  by_cases hne : other = id
  · rw [hne, header_set_self] at hmoved
    rw [hmoved] at hslot
    cases hslot
  · rw [header_set_of_ne _ _ hne] at hmoved
    exact h other hother capacity target hmoved

/-- A move that was seen through. -/
theorem moved (h : layout.Tidy record) {payload : ByteArray}
    (hfirst : ∀ capacity target, layout'.header record.first = .moved capacity target → target = id)
    (hrest : ∀ other ∈ record.ids, other ≠ record.first →
      (∃ capacity, layout'.header other = .moved capacity record.first) ∨
        other ∈ record.former ∧ layout'.header other = layout.header other) :
    layout'.Tidy (record.moved id capacity payload) := by
  intro other hother c target hmoved
  rw [record.first_moved]
  by_cases heq : other = record.first
  · rw [if_pos heq]
    rw [heq] at hmoved
    exact hfirst c target hmoved
  · rw [if_neg heq]
    rcases hrest other hother heq with ⟨c', hheader⟩ | ⟨hformer, hheader⟩
    · rw [hheader] at hmoved
      cases hmoved
      rfl
    · rw [hheader] at hmoved
      have htarget := h other hformer c target hmoved
      rwa [if_neg heq] at htarget

end Tidy

namespace Loose

/-- Three hops are enough for loose redirects. -/
theorem near (h : layout.Loose record) (hstores : layout.Stores record) (hid : id ∈ record.ids) : layout.Near id 3 := by
  refine hstores.near_of_first (n := 1) (fun capacity target hmoved => ?_)
    (fun other hformer hne capacity target hmoved => ?_) hid
  · have hformer := hstores.mem_former record.first_mem hmoved
    rcases h _ hformer capacity target hmoved with rfl | ⟨hne, -⟩ | ⟨-, c, hlast⟩
    · exact hstores.near_latest
    · exact absurd rfl hne
    · exact (hstores.near_latest (n := 0)).hop hlast
  · rcases h other hformer capacity target hmoved with hlatest | ⟨-, hfirst⟩ | ⟨heq, -⟩
    · exact .inl hlatest
    · exact .inr hfirst
    · exact absurd heq hne

theorem congr (h : layout.Loose record) (hstores : layout.Stores record)
    (hheader : ∀ id ∈ record.ids, layout'.header id = layout.header id) : layout'.Loose record := by
  intro id hid capacity target hmoved
  have hmem := List.mem_cons_of_mem record.latest hid
  rw [hheader id hmem] at hmoved
  rw [hheader target (hstores.target_mem hmem hmoved)]
  exact h id hid capacity target hmoved

/-- The commit of a move of a record with tidy redirects. -/
theorem moved (h : layout.Tidy record) {payload : ByteArray} {oldCapacity : Nat}
    (hprevious : layout'.header record.latest = .moved oldCapacity id)
    (hrest : ∀ other ∈ record.former, layout'.header other = layout.header other) :
    layout'.Loose (record.moved id capacity payload) := by
  intro other hother c target hmoved
  rw [record.first_moved]
  rcases List.mem_cons.1 hother with rfl | hformer
  · rw [hprevious] at hmoved
    cases hmoved
    exact .inl rfl
  · rw [hrest other hformer] at hmoved
    have htarget := h other hformer c target hmoved
    by_cases heq : other = record.first
    · rw [if_pos heq] at htarget
      exact .inr (.inr ⟨heq, _, htarget ▸ hprevious⟩)
    · rw [if_neg heq] at htarget
      exact .inr (.inl ⟨heq, htarget⟩)

/-- Pointing a redirect at the latest slot, or at the first one if that leads there directly. -/
theorem redirected (h : layout.Loose record)
    (htarget : target = record.latest ∨
      id ≠ record.first ∧ target = record.first ∧ ∃ c, layout.header record.first = .moved c record.latest) :
    (layout.set id (.bare (.moved capacity target))).Loose record := by
  intro other hother c t hmoved
  by_cases hne : other = id
  · rw [hne, header_set_self] at hmoved
    cases hmoved
    rcases htarget with rfl | ⟨hfirst, rfl, -⟩
    · exact .inl rfl
    · exact .inr (.inl ⟨hne ▸ hfirst, rfl⟩)
  · rw [header_set_of_ne _ _ hne] at hmoved
    rcases h other hother c t hmoved with ht | ht | ⟨rfl, c', hlast⟩
    · exact .inl ht
    · exact .inr (.inl ht)
    · by_cases hid : t = id
      · rcases htarget with rfl | ⟨-, -, c'', hfirst⟩
        · refine .inr (.inr ⟨rfl, capacity, ?_⟩)
          rw [hid, header_set_self]
          rfl
        · rw [hfirst] at hmoved
          cases hmoved
          exact .inl rfl
      · refine .inr (.inr ⟨rfl, c', ?_⟩)
        rw [header_set_of_ne _ _ hid]
        exact hlast

end Loose

end Layout

end RecordStore
