import RecordStore.Proofs.Salvage

/-!
# What resolution finds

Slots that make up no store may lead anywhere: redirects may run in a circle, and the origin of a record may be any
number.  Resolution looks before it goes on, so what it finds is a slot of the layout all the same, and so are the
redirects on the way (`Layout.Finds`).  The origin alone is used as it stands there: where it is the start of a slot,
only a redirect is taken for one (`Region.redirectCapacity_runs`).
-/

namespace RecordStore

open StorageView

/-- The resolution ends in a slot of the layout that is a record or a tombstone, and its redirects lead there. -/
structure Layout.Finds (layout : Layout) (id : RecordId) (found : Resolution) : Prop where
  mem : found.id ∈ layout.ids
  header : found.header = layout.header found.id
  leads : layout.Leads id found.passed found.id
  passed : ∀ redirect ∈ found.passed, redirect.id ∈ layout.ids

namespace Layout.Finds

variable {layout : Layout} {id : RecordId} {found : Resolution}

theorem header_eq (h : layout.Finds id found) {capacity length : Nat} {origin : Option RecordId}
    (hlive : found.header = .live capacity length origin) :
    layout.header found.id = .live capacity length origin := h.header.symm.trans hlive

theorem hasRedirect (h : layout.Finds id found) :
    ∀ redirect ∈ found.passed, Session.HasRedirect layout redirect :=
  fun redirect hredirect => ⟨h.passed redirect hredirect, h.leads.header_passed hredirect⟩

end Layout.Finds

namespace Region

variable {σ : Type} [PagedStorage σ] {contract : StorageContract σ} {layout : Layout} {img : Image} {stop : Nat}

/-- The step to the target of a redirect, if it is a slot. -/
private theorem stepTo_runs {α : Type} (hwf : img.WellFormed) (h : layout.Tracks img stop) (id : RecordId)
    {next : SlotHeader → SlotM σ α} {other : SlotM σ α} {post : Except StoreError α → Image → Prop}
    (hnext : id ∈ layout.ids → contract.Runs (next (layout.header id)) img post)
    (hother : contract.Runs other img post) (hio : ∀ cause, post (.error (.io cause)) img) :
    contract.Runs (do
      if ← isSlot { pageSize := img.pageSize, stop } id then
        let header ← slotAt { pageSize := img.pageSize, stop } id.offset
        next header
      else other) img post := by
  refine (isSlot_answers h id).bind_runs ?_ fun _ => hio
  by_cases hid : id ∈ layout.ids
  · rw [decide_eq_true hid, if_pos rfl]
    exact (slotAt_answers hwf h hid rfl (h.tiles.end_le hid)).bind_runs (hnext hid) fun _ => hio
  · rw [decide_eq_false hid, if_neg (by decide)]
    exact hother

/-- Following redirects that have led to `current` so far. -/
private theorem follow_runs (hwf : img.WellFormed) (h : layout.Tracks img stop) (maxHops : Nat) (id : RecordId)
    {current : RecordId} (hcurrent : current ∈ layout.ids) {passed : List Redirect}
    (hleads : ∀ rest last, layout.Leads current rest last → layout.Leads id (passed ++ rest) last)
    (hpassed : ∀ redirect ∈ passed, redirect.id ∈ layout.ids) :
    contract.Runs (follow { pageSize := img.pageSize, stop } maxHops id current (layout.header current) passed) img
      fun result after => after = img ∧ ∀ found, result = .ok found → layout.Finds id found := by
  -- each redirect uses up a hop
  induction hleft : maxHops - passed.length using Nat.strongRecOn generalizing current passed with
  | ind left ih =>
    have hstay : (layout.header current).redirect? = none →
        layout.Finds id { id := current, header := layout.header current, passed } := by
      intro hnone
      have hhere := hleads [] current (.here hnone)
      rw [List.append_nil] at hhere
      exact ⟨hcurrent, rfl, hhere, hpassed⟩
    rw [follow.eq_def]
    cases hheader : layout.header current with
    | live capacity length origin =>
      rw [hheader] at hstay
      refine Runs.pure ⟨rfl, fun found hfound => ?_⟩
      cases hfound
      exact hstay rfl
    | deleted capacity length relocated =>
      rw [hheader] at hstay
      refine Runs.pure ⟨rfl, fun found hfound => ?_⟩
      cases hfound
      exact hstay rfl
    | padding capacity =>
      dsimp only
      cases passed.getLast? with
      | none => exact Runs.throw ⟨rfl, nofun⟩
      | some redirect => exact Runs.throw ⟨rfl, nofun⟩
    | moved capacity target =>
      dsimp only
      by_cases hcycle : (passed ++ [(⟨current, capacity⟩ : Redirect)]).any (·.id = target)
      · rw [if_pos hcycle]
        exact Runs.throw ⟨rfl, nofun⟩
      · rw [if_neg hcycle]
        by_cases hlt : passed.length < maxHops
        · rw [if_pos hlt]
          refine stepTo_runs hwf h target (fun htarget => ?_) (Runs.throw ⟨rfl, nofun⟩) fun cause => ⟨rfl, nofun⟩
          refine ih _ ?_ htarget (fun rest last hrest => ?_) (fun redirect hredirect => ?_) rfl
          · simp only [List.length_append, List.length_singleton]
            omega
          · have hhop := hleads _ last (.hop hheader hrest)
            simpa using hhop
          · rcases List.mem_append.1 hredirect with hredirect | hredirect
            · exact hpassed redirect hredirect
            · rw [List.mem_singleton.1 hredirect]
              exact hcurrent
        · rw [if_neg hlt]
          exact Runs.throw ⟨rfl, nofun⟩

theorem resolve_runs (hwf : img.WellFormed) (h : layout.Tracks img stop) (maxHops : Nat) (id : RecordId) :
    contract.Runs (resolve { pageSize := img.pageSize, stop } maxHops id) img
      fun result after => after = img ∧ ∀ found, result = .ok found → layout.Finds id found := by
  unfold resolve
  refine stepTo_runs hwf h id (fun hid => ?_) (Runs.throw ⟨rfl, nofun⟩) fun cause => ⟨rfl, nofun⟩
  exact follow_runs hwf h maxHops id hid (fun rest last hrest => hrest) (by simp)

/-- A capacity is read off a redirect only. -/
theorem redirectCapacity_runs (hwf : img.WellFormed) (h : layout.Tracks img stop) {id : RecordId}
    (hid : id ∈ layout.ids) :
    contract.Runs (redirectCapacity { pageSize := img.pageSize, stop } id) img fun result after => after = img ∧
      ∀ capacity, result = .ok capacity → Session.HasRedirect layout { id, capacity } := by
  unfold redirectCapacity
  refine (slotAt_answers hwf h hid rfl (h.tiles.end_le hid)).bind_runs ?_ fun _ cause => ⟨rfl, nofun⟩
  cases hheader : layout.header id with
  | moved capacity target =>
    refine Runs.pure ⟨rfl, fun capacity' hcapacity => ?_⟩
    cases hcapacity
    exact ⟨hid, target, hheader⟩
  | live capacity length origin => exact Runs.throw ⟨rfl, nofun⟩
  | deleted capacity length relocated => exact Runs.throw ⟨rfl, nofun⟩
  | padding capacity => exact Runs.throw ⟨rfl, nofun⟩

end Region

namespace Session

variable {σ : Type} [PagedStorage σ] {contract : StorageContract σ} {img : Image} {layout : Layout} {stop : Nat}

/-- A header in place of that of a record. -/
theorem replaces_live (h : layout.Tracks img stop) {id : RecordId} (hid : id ∈ layout.ids) {capacity length : Nat}
    {origin : Option RecordId} (hlive : layout.header id = .live capacity length origin) {header : SlotHeader}
    (hvalid : capacity < 2 ^ 32 → length ≤ capacity → header.Valid id.offset) (hlength : header.payloadLength = 0)
    (hsize : header.slotSize = SlotHeader.sizeFor SlotHeader.fullSize capacity) :
    Replaces layout { id, capacity } header := by
  have hheader : (layout.header id).Valid id.offset := (h.valid id hid).header
  rw [hlive] at hheader
  refine ⟨hid, hvalid hheader.1 hheader.2.1, hlength, ?_⟩
  rw [hsize, Layout.size, hlive]
  rfl

theorem Replaces.writeHeader_runs {redirect : Redirect} {header : SlotHeader} (hreplaces : Replaces layout redirect header)
    (h : layout.Tracks img stop) {post : Except StoreError Unit → Image → Prop}
    (hok : ∀ after, (layout.set redirect.id (.bare header)).Tracks after stop →
      img.ChangedWithin after FileHeader.size stop → post (.ok ()) after)
    (hio : contract.fallible → ∀ cause, post (.error (.io cause)) img) :
    contract.Runs (Region.writeHeader redirect.id.offset header) img post :=
  Region.setHeader_runs h hreplaces.mem hreplaces.valid hreplaces.payloadLength_eq hreplaces.slotSize_eq hok hio

/-- What is a redirect after a slot was overwritten by something else was one before. -/
theorem HasRedirect.of_set {id : RecordId} {slot : Slot} {redirect : Redirect}
    (h : HasRedirect (layout.set id slot) redirect) (hslot : slot.header.state ≠ .moved) :
    HasRedirect layout redirect := by
  obtain ⟨hmem, target, hmoved⟩ := h
  by_cases hid : redirect.id = id
  · rw [hid, Layout.header_set_self] at hmoved
    rw [hmoved] at hslot
    exact absurd rfl hslot
  · rw [Layout.header_set_of_ne _ _ hid] at hmoved
    exact ⟨hmem, target, hmoved⟩

theorem HasRedirect.ne_of_live {redirect : Redirect} (h : HasRedirect layout redirect) {id : RecordId}
    {capacity length : Nat} {origin : Option RecordId} (hlive : layout.header id = .live capacity length origin) :
    redirect.id ≠ id := by
  rintro rfl
  obtain ⟨-, target, hmoved⟩ := h
  rw [hmoved] at hlive
  cases hlive

/-- What is buried with a record are redirects that were passed, and its origin if that is one. -/
theorem redirectsToBury_finds (hwf : img.WellFormed) (h : layout.Tracks img stop) {origin : Option RecordId}
    (horigin : ∀ id ∈ origin, id ∈ layout.ids) {passed : List Redirect} :
    contract.Runs (redirectsToBury { pageSize := img.pageSize, stop } origin passed) img fun result after =>
      after = img ∧ ∃ redirects, result = .ok redirects ∧
        ∀ redirect ∈ redirects, redirect ∈ passed ∨ redirect.id ∈ origin ∧ HasRedirect layout redirect := by
  have hpassed : ∀ redirect ∈ passed, redirect ∈ passed ∨ redirect.id ∈ origin ∧ HasRedirect layout redirect :=
    fun _ hredirect => .inl hredirect
  unfold redirectsToBury
  cases hfilter : origin.filter fun origin => !passed.any (·.id = origin) with
  | none => exact Runs.pure ⟨rfl, passed, rfl, hpassed⟩
  | some id =>
    have hid : id ∈ origin := (Option.filter_eq_some_iff.1 hfilter).1
    refine Runs.step (Runs.attempt ((Region.redirectCapacity_runs hwf h (horigin id hid)).mono ?_))
    rintro (e | capacity) after ⟨rfl, hcapacity⟩
    · exact Runs.pure ⟨rfl, passed, rfl, hpassed⟩
    · refine Runs.pure ⟨rfl, _, rfl, fun redirect hredirect => ?_⟩
      rcases List.mem_append.1 hredirect with hredirect | hredirect
      · exact .inl hredirect
      · rw [List.mem_singleton.1 hredirect]
        exact .inr ⟨hid, hcapacity capacity rfl⟩

end Session

namespace Session.Walks

variable {σ : Type} [PagedStorage σ] {contract : StorageContract σ} {session : Session Image} {layout : Layout}

theorem resolveSlot_performs (h : session.Walks layout) (id : RecordId) :
    Performs contract.toStorageView (resolveSlot id) session fun result session' => session' = session ∧
      ∀ found, result = .ok found → layout.Finds id found := by
  refine contract.performs_of_wellFormed fun hwf => ?_
  unfold resolveSlot
  refine Performs.get_bind fun actual hactual => Performs.onSlots ?_
  rw [h.region_seen hactual]
  have hruns : contract.Runs _ session.storage _ := Region.resolve_runs hwf h.tracks actual.maxHops id
  refine hruns.mono ?_
  rintro result _ ⟨rfl, hfound⟩
  exact ⟨rfl, hfound⟩

end Session.Walks

end RecordStore
