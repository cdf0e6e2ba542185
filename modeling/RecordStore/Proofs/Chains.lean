import RecordStore.Proofs.Reading

/-!
# Chains of redirects

`Layout.Leads` says where the redirects of a layout lead from a slot and which of them are passed.  Resolution answers
just that, or that the chain is longer than the limit (`resolve_answers`).  A chain ends wherever some rank falls from
every redirect to its target (`leads_of_rank`), in at most as many hops as the rank says, and never passes a slot twice
(`Leads.nodup`).
-/

namespace RecordStore

open StorageView

namespace Layout

/-- From the slot `id` the redirects `passed` lead to the slot `last`, which is none. -/
inductive Leads (layout : Layout) : RecordId → List Redirect → RecordId → Prop
  | here {id : RecordId} (h : (layout.header id).redirect? = none) : Leads layout id [] id
  | hop {id target last : RecordId} {capacity : Nat} {passed : List Redirect}
      (h : layout.header id = .moved capacity target) (hrest : Leads layout target passed last) :
      Leads layout id ({ id, capacity } :: passed) last

namespace Leads

variable {layout : Layout} {id last : RecordId} {passed : List Redirect}

theorem unique (h : layout.Leads id passed last) {passed' : List Redirect} {last' : RecordId}
    (h' : layout.Leads id passed' last') : passed' = passed ∧ last' = last := by
  induction h generalizing passed' with
  | here hnone =>
    cases h' with
    | here => exact ⟨rfl, rfl⟩
    | hop hmoved => simp [hmoved, SlotHeader.redirect?] at hnone
  | hop hmoved _ ih =>
    cases h' with
    | here hnone => simp [hmoved, SlotHeader.redirect?] at hnone
    | hop hmoved' hrest' =>
      rw [hmoved] at hmoved'
      cases hmoved'
      obtain ⟨rfl, rfl⟩ := ih hrest'
      exact ⟨rfl, rfl⟩

theorem redirect?_last (h : layout.Leads id passed last) : (layout.header last).redirect? = none := by
  induction h with
  | here hnone => exact hnone
  | hop _ _ ih => exact ih

/-- What is passed are redirects, with the capacities of their slots. -/
theorem header_passed (h : layout.Leads id passed last) {redirect : Redirect} (hmem : redirect ∈ passed) :
    ∃ target, layout.header redirect.id = .moved redirect.capacity target := by
  induction h with
  | here => simp at hmem
  | hop hmoved _ ih =>
    rcases List.mem_cons.1 hmem with rfl | hmem
    · exact ⟨_, hmoved⟩
    · exact ih hmem

/-- From everything that is passed the same slot is reached, in no more hops. -/
theorem from_passed (h : layout.Leads id passed last) {redirect : Redirect} (hmem : redirect ∈ passed) :
    ∃ passed', layout.Leads redirect.id passed' last ∧ passed'.length ≤ passed.length := by
  induction h with
  | here => simp at hmem
  | hop hmoved hrest ih =>
    rcases List.mem_cons.1 hmem with rfl | hmem
    · exact ⟨_, .hop hmoved hrest, Nat.le_refl _⟩
    · obtain ⟨passed', hleads, hlength⟩ := ih hmem
      exact ⟨passed', hleads, Nat.le_succ_of_le hlength⟩

/-- No slot is passed twice, and the last one not at all. -/
theorem nodup (h : layout.Leads id passed last) : (passed.map (·.id) ++ [last]).Nodup := by
  induction h with
  | here => simp
  | @hop id target last capacity passed hmoved hrest ih =>
    refine List.nodup_cons.2 ⟨?_, ih⟩
    intro hmem
    rcases List.mem_append.1 hmem with hmem | hmem
    · obtain ⟨redirect, hredirect, hid⟩ := List.mem_map.1 hmem
      obtain ⟨passed', hleads, hlength⟩ := hrest.from_passed hredirect
      rw [hid] at hleads
      have heq := (hleads.unique (.hop hmoved hrest)).1
      rw [← heq, List.length_cons] at hlength
      omega
    · have hnone := hrest.redirect?_last
      rw [← List.mem_singleton.1 hmem, hmoved] at hnone
      simp [SlotHeader.redirect?] at hnone

end Leads

/-- Redirects along which a rank falls lead somewhere, in at most as many hops as the rank says. -/
theorem leads_of_rank {layout : Layout} {ids : List RecordId} {rank : RecordId → Nat}
    (h : ∀ id ∈ ids, ∀ capacity target, layout.header id = .moved capacity target →
      target ∈ ids ∧ rank target < rank id)
    {id : RecordId} (hid : id ∈ ids) :
    ∃ passed last, layout.Leads id passed last ∧ passed.length ≤ rank id ∧ last ∈ ids ∧ ∀ r ∈ passed, r.id ∈ ids := by
  induction hrank : rank id using Nat.strongRecOn generalizing id with
  | ind n ih =>
    subst hrank
    rcases hheader : layout.header id with ⟨c, l, o⟩ | ⟨capacity, target⟩ | ⟨c, l, r⟩ | c
    · exact ⟨[], id, .here (by rw [hheader]; rfl), Nat.zero_le _, hid, by simp⟩
    · obtain ⟨htarget, hlt⟩ := h id hid capacity target hheader
      obtain ⟨passed, last, hleads, hlength, hlast, hpassed⟩ := ih _ hlt htarget rfl
      refine ⟨{ id, capacity } :: passed, last, .hop hheader hleads, ?_, hlast, ?_⟩
      · rw [List.length_cons]
        omega
      · intro r hr
        rcases List.mem_cons.1 hr with rfl | hr
        · exact hid
        · exact hpassed r hr
    · exact ⟨[], id, .here (by rw [hheader]; rfl), Nat.zero_le _, hid, by simp⟩
    · exact ⟨[], id, .here (by rw [hheader]; rfl), Nat.zero_le _, hid, by simp⟩

end Layout

namespace Region

variable {σ : Type} [PagedStorage σ] {contract : StorageContract σ} {layout : Layout} {img : Image} {stop : Nat}

theorem follow_answers (hwf : img.WellFormed) (h : layout.Tracks img stop) (maxHops : Nat) (id : RecordId)
    {current last : RecordId} {rest : List Redirect} (hleads : layout.Leads current rest last)
    (hrest : ∀ r ∈ rest, r.id ∈ layout.ids) (hlast : last ∈ layout.ids)
    (hstate : (layout.header last).state ≠ .padding) {passed : List Redirect} (hpassed : passed.length ≤ maxHops)
    (hnodup : (passed.map (·.id) ++ (rest.map (·.id) ++ [last])).Nodup) :
    contract.Answers (follow { pageSize := img.pageSize, stop } maxHops id current (layout.header current) passed) img
      (if passed.length + rest.length ≤ maxHops
        then .ok { id := last, header := layout.header last, passed := passed ++ rest }
        else .error (.corruption id.offset (.tooManyHops id maxHops))) := by
  induction hleads generalizing passed with
  | @here current hnone =>
    rw [if_pos (by simpa using hpassed), List.append_nil]
    rcases hheader : layout.header current with ⟨c, l, o⟩ | ⟨capacity, target⟩ | ⟨c, l, r⟩ | c
    · rw [follow]
      exact Answers.pure _
    · simp [hheader, SlotHeader.redirect?] at hnone
    · rw [follow]
      exact Answers.pure _
    · simp [hheader, SlotHeader.state] at hstate
  | @hop current target last capacity rest hmoved hleads ih =>
    have htarget : target ∈ layout.ids := by
      cases hleads with
      | here => exact hlast
      | hop => exact hrest _ (List.mem_cons_of_mem _ List.mem_cons_self)
    -- the target lies ahead, so it is none of the slots passed
    have hahead : target ∈ rest.map (·.id) ++ [last] := by
      cases hleads <;> simp
    have hnodup' :
        ((passed ++ [(⟨current, capacity⟩ : Redirect)]).map (·.id) ++ (rest.map (·.id) ++ [last])).Nodup := by
      simpa using hnodup
    have hcycle : ¬(passed ++ [(⟨current, capacity⟩ : Redirect)]).any (·.id = target) := by
      intro hany
      obtain ⟨redirect, hmem, hid⟩ := List.any_eq_true.1 hany
      have hbehind : target ∈ (passed ++ [(⟨current, capacity⟩ : Redirect)]).map (·.id) :=
        List.mem_map.2 ⟨redirect, hmem, of_decide_eq_true hid⟩
      exact (List.nodup_append.1 hnodup').2.2 target hbehind target hahead rfl
    rw [hmoved, follow, if_neg hcycle, List.length_cons]
    rcases Nat.lt_or_ge passed.length maxHops with hlt | hge
    · rw [if_pos hlt]
      refine (isSlot_answers h target).bind ?_
      rw [decide_eq_true htarget, if_pos rfl]
      refine (slotAt_answers hwf h htarget rfl (h.tiles.end_le htarget)).bind ?_
      have hnext := ih (fun r hr => hrest r (List.mem_cons_of_mem _ hr)) hlast hstate
        (by rw [List.length_append, List.length_singleton]; exact hlt) hnodup'
      rw [List.length_append, List.length_singleton, List.append_assoc, Nat.add_assoc, Nat.add_comm 1] at hnext
      exact hnext
    · rw [if_neg (by omega), if_neg (by omega)]
      exact Answers.throw _

/-- Resolution follows the redirects to their end, as far as the limit allows. -/
theorem resolve_answers (hwf : img.WellFormed) (h : layout.Tracks img stop) (maxHops : Nat) {id last : RecordId}
    {passed : List Redirect} (hleads : layout.Leads id passed last) (hpassed : ∀ r ∈ passed, r.id ∈ layout.ids)
    (hlast : last ∈ layout.ids) (hstate : (layout.header last).state ≠ .padding) :
    contract.Answers (resolve { pageSize := img.pageSize, stop } maxHops id) img
      (if passed.length ≤ maxHops then .ok { id := last, header := layout.header last, passed }
        else .error (.corruption id.offset (.tooManyHops id maxHops))) := by
  have hid : id ∈ layout.ids := by
    cases hleads with
    | here => exact hlast
    | hop => exact hpassed _ List.mem_cons_self
  unfold resolve
  refine (isSlot_answers h id).bind ?_
  rw [decide_eq_true hid, if_pos rfl]
  refine (slotAt_answers hwf h hid rfl (h.tiles.end_le hid)).bind ?_
  have hfollow : contract.Answers (follow { pageSize := img.pageSize, stop } maxHops id id (layout.header id) [])
      img _ :=
    follow_answers hwf h maxHops id hleads hpassed hlast hstate (Nat.zero_le _) hleads.nodup
  simpa using hfollow

/-- An identifier that names no slot, or padding, is not found. -/
theorem resolve_answers_notFound (hwf : img.WellFormed) (h : layout.Tracks img stop) (maxHops : Nat) {id : RecordId}
    (hid : id ∈ layout.ids → (layout.header id).state = .padding) :
    contract.Answers (resolve { pageSize := img.pageSize, stop } maxHops id) img (.error (.notFound id)) := by
  unfold resolve
  refine (isSlot_answers h id).bind ?_
  by_cases hmem : id ∈ layout.ids
  · rw [decide_eq_true hmem, if_pos rfl]
    refine (slotAt_answers hwf h hmem rfl (h.tiles.end_le hmem)).bind ?_
    have hstate := hid hmem
    rcases hheader : layout.header id with ⟨c, l, o⟩ | ⟨capacity, target⟩ | ⟨c, l, r⟩ | c
    · simp [hheader, SlotHeader.state] at hstate
    · simp [hheader, SlotHeader.state] at hstate
    · simp [hheader, SlotHeader.state] at hstate
    · rw [follow]
      exact Answers.throw _
  · rw [decide_eq_false hmem, if_neg (by decide)]
    exact Answers.throw _

end Region

end RecordStore
