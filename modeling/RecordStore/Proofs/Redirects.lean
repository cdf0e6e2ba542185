import RecordStore.Proofs.Writing
import RecordStore.Session.Records

/-!
# Overwriting redirects

Redirects are overwritten one by one, as far as that succeeds (`overwriteRedirects_runs`).  What the layout becomes is
the layout with some of them overwritten (`Layout.overwrite`), with all of them if no call fails.  On this rest what a
move makes of the chain of its record (`shortenChain_runs`) and what a deletion buries.
-/

namespace RecordStore

open StorageView

namespace Layout

/-- The layout with the headers of redirects overwritten one after another. -/
def overwrite (header : Redirect → SlotHeader) (layout : Layout) (redirects : List Redirect) : Layout :=
  redirects.foldl (fun layout redirect => layout.set redirect.id (.bare (header redirect))) layout

variable {layout : Layout} {header : Redirect → SlotHeader} {redirects : List Redirect}

@[simp] theorem ids_overwrite : (layout.overwrite header redirects).ids = layout.ids := by
  unfold overwrite
  induction redirects generalizing layout with
  | nil => rfl
  | cons redirect rest ih => exact ih

theorem slot_overwrite_of_notMem {id : RecordId} (hid : id ∉ redirects.map (·.id)) :
    (layout.overwrite header redirects).slot id = layout.slot id := by
  unfold overwrite
  induction redirects generalizing layout with
  | nil => rfl
  | cons redirect rest ih =>
    rw [List.map_cons, List.mem_cons, not_or] at hid
    rw [List.foldl_cons, ih hid.2, slot_set_of_ne _ _ hid.1]

theorem slot_overwrite_of_mem {id : RecordId} (hid : id ∈ redirects.map (·.id)) :
    ∃ redirect ∈ redirects, redirect.id = id ∧
      (layout.overwrite header redirects).slot id = .bare (header redirect) := by
  induction redirects generalizing layout with
  | nil => simp at hid
  | cons redirect rest ih =>
    by_cases hrest : id ∈ rest.map (·.id)
    · obtain ⟨redirect', hmem, hid', hslot⟩ := ih hrest
      exact ⟨redirect', List.mem_cons_of_mem _ hmem, hid', hslot⟩
    · have heq : redirect.id = id := by simpa [hrest, eq_comm] using hid
      refine ⟨redirect, List.mem_cons_self, heq, ?_⟩
      change ((layout.set redirect.id (.bare (header redirect))).overwrite header rest).slot id = _
      rw [slot_overwrite_of_notMem hrest, ← heq, slot_set_self]

/-- What every single overwriting keeps, all of them together keep. -/
theorem overwrite_induction {holds : Layout → Prop} (h : holds layout)
    (hstep : ∀ layout, holds layout → ∀ redirect ∈ redirects,
      holds (layout.set redirect.id (.bare (header redirect)))) :
    holds (layout.overwrite header redirects) := by
  induction redirects generalizing layout with
  | nil => exact h
  | cons redirect rest ih =>
    exact ih (hstep layout h redirect List.mem_cons_self)
      fun layout hlayout other hother => hstep layout hlayout other (List.mem_cons_of_mem _ hother)

end Layout

namespace Session

variable {σ : Type} [PagedStorage σ] {contract : StorageContract σ} {layout : Layout} {img : Image} {stop : Nat}

/-- The layout has this redirect. -/
def HasRedirect (layout : Layout) (redirect : Redirect) : Prop :=
  redirect.id ∈ layout.ids ∧ ∃ target, layout.header redirect.id = .moved redirect.capacity target

/-- A header that can take the place of a redirect. -/
structure Replaces (layout : Layout) (redirect : Redirect) (header : SlotHeader) : Prop where
  mem : redirect.id ∈ layout.ids
  valid : header.Valid redirect.id.offset
  payloadLength_eq : header.payloadLength = 0
  slotSize_eq : header.slotSize = layout.size redirect.id

theorem overwriteRedirects_runs (h : layout.Tracks img stop) {header : Redirect → SlotHeader}
    {redirects : List Redirect} (hreplaces : ∀ redirect ∈ redirects, Replaces layout redirect (header redirect))
    {post : Except StoreError Unit → Image → Prop}
    (hok : ∀ done after, done.Sublist redirects → (¬contract.fallible → done = redirects) →
      (layout.overwrite header done).Tracks after stop → img.ChangedWithin after FileHeader.size stop →
      post (.ok ()) after) : contract.Runs (overwriteRedirects header redirects) img post := by
  -- a redirect that could not be written is left out, and the others are tried
  induction redirects generalizing layout img with
  | nil => exact Runs.pure (hok [] img (List.Sublist.refl _) (fun _ => rfl) h (.refl ..))
  | cons redirect rest ih =>
    have hhead := hreplaces redirect List.mem_cons_self
    have hrest : ∀ other ∈ rest, Replaces layout other (header other) :=
      fun other hother => hreplaces other (List.mem_cons_of_mem _ hother)
    have hkeep : (Slot.bare (header redirect)).header.slotSize = layout.size redirect.id := hhead.slotSize_eq
    rw [overwriteRedirects]
    refine Runs.step (Runs.attempt (Region.setHeader_runs h hhead.mem hhead.valid hhead.payloadLength_eq
      hhead.slotSize_eq (fun after htracks hchanged => ?_) fun hfallible cause => ?_))
    · show contract.Runs (overwriteRedirects header rest) after post
      refine ih htracks (fun other hother => ?_) fun done after' hdone hall htracks' hchanged' => ?_
      · obtain ⟨hmem, hvalid, hlength, hsize⟩ := hrest other hother
        exact ⟨hmem, hvalid, hlength, hsize.trans (layout.size_set hkeep other.id).symm⟩
      · exact hok (redirect :: done) after' (hdone.cons_cons _) (fun hreliable => by rw [hall hreliable]) htracks'
          (hchanged.trans hchanged')
    · show contract.Runs (overwriteRedirects header rest) img post
      refine ih h hrest fun done after' hdone hall htracks' hchanged' => ?_
      exact hok done after' (hdone.cons _) (fun hreliable => absurd hfallible hreliable) htracks' hchanged'

/-! ### The chain of a record -/

namespace HasRedirect

variable {redirect : Redirect}

theorem mono {layout' : Layout} (h : HasRedirect layout redirect) (hmem : redirect.id ∈ layout'.ids)
    (hheader : layout'.header redirect.id = layout.header redirect.id) : HasRedirect layout' redirect := by
  obtain ⟨-, target, hmoved⟩ := h
  exact ⟨hmem, target, hheader.trans hmoved⟩

theorem replaces (h : HasRedirect layout redirect) (htracks : layout.Tracks img stop) {header : SlotHeader}
    (hvalid : redirect.capacity < 2 ^ 32 → header.Valid redirect.id.offset) (hlength : header.payloadLength = 0)
    (hsize : header.slotSize = SlotHeader.sizeFor SlotHeader.fullSize redirect.capacity) :
    Replaces layout redirect header := by
  obtain ⟨hmem, target, hmoved⟩ := h
  have hcapacity := (htracks.valid _ hmem).header.capacity_lt
  change (layout.header redirect.id).capacity < 2 ^ 32 at hcapacity
  rw [hmoved] at hcapacity
  refine ⟨hmem, hvalid hcapacity, hlength, ?_⟩
  rw [hsize, Layout.size, hmoved]
  rfl

theorem replaces_moved (h : HasRedirect layout redirect) (htracks : layout.Tracks img stop) (target : RecordId) :
    Replaces layout redirect (.moved redirect.capacity target) := h.replaces htracks id rfl rfl

theorem replaces_deleted (h : HasRedirect layout redirect) (htracks : layout.Tracks img stop) :
    Replaces layout redirect (.deleted redirect.capacity 0 true) :=
  h.replaces htracks (fun hcapacity => ⟨hcapacity, Nat.zero_le _⟩) rfl rfl

end HasRedirect

theorem redirectCapacity_answers (hwf : img.WellFormed) (h : layout.Tracks img stop) {redirect : Redirect}
    (hredirect : HasRedirect layout redirect) :
    contract.Answers (Region.redirectCapacity { pageSize := img.pageSize, stop } redirect.id) img
      (.ok redirect.capacity) := by
  obtain ⟨hmem, target, hmoved⟩ := hredirect
  unfold Region.redirectCapacity
  refine (Region.slotAt_answers hwf h hmem rfl (h.tiles.end_le hmem)).bind ?_
  rw [hmoved]
  exact Answers.pure _

private theorem pointOrigin_runs (hwf : img.WellFormed) (h : layout.Tracks img stop) {origin : Redirect}
    {target : RecordId} {passed : List Redirect} (horigin : HasRedirect layout origin)
    (hpassed : ∀ redirect ∈ passed, HasRedirect layout redirect)
    {post : Except StoreError Unit → Image → Prop}
    (hok : ∀ after, (layout.set origin.id (.bare (.moved origin.capacity target))).Tracks after stop →
      img.ChangedWithin after FileHeader.size stop → post (.ok ()) after)
    (hio : contract.fallible → ∀ cause, post (.error (.io cause)) img) :
    contract.Runs (do
      let capacity ← match passed.find? (·.id = origin.id) with
        | some redirect => pure redirect.capacity
        | none => Region.redirectCapacity { pageSize := img.pageSize, stop } origin.id
      Region.writeHeader origin.id.offset (.moved capacity target)) img post := by
  have hreplaces := horigin.replaces_moved h target
  have hwrite : contract.Runs (Region.writeHeader origin.id.offset (.moved origin.capacity target)) img post :=
    Region.setHeader_runs h hreplaces.mem hreplaces.valid hreplaces.payloadLength_eq hreplaces.slotSize_eq hok hio
  cases hfind : passed.find? (·.id = origin.id) with
  | none => exact (redirectCapacity_answers hwf h horigin).bind_runs hwrite hio
  | some redirect =>
    obtain ⟨-, t, hmoved⟩ := hpassed redirect (List.mem_of_find?_eq_some hfind)
    obtain ⟨-, t', hmoved'⟩ := horigin
    have hid : redirect.id = origin.id := by simpa using List.find?_some hfind
    rw [hid, hmoved', SlotHeader.moved.injEq] at hmoved
    refine (Answers.pure redirect.capacity).bind_runs ?_ hio
    rw [← hmoved.1]
    exact hwrite

/-- The origin is pointed at `target` first, and only if that succeeds the other redirects are pointed at the origin. -/
theorem shortenChain_runs (hwf : img.WellFormed) (h : layout.Tracks img stop) {origin previous : Redirect}
    {target : RecordId} {passed : List Redirect} (horigin : HasRedirect layout origin)
    (hprevious : HasRedirect layout previous) (hpassed : ∀ redirect ∈ passed, HasRedirect layout redirect)
    {post : Except StoreError Unit → Image → Prop} (hkept : contract.fallible → post (.ok ()) img)
    (hok : ∀ done after, done.Sublist (passed.filter (·.id ≠ origin.id) ++ [previous]) →
      (¬contract.fallible → done = passed.filter (·.id ≠ origin.id) ++ [previous]) →
      ((layout.set origin.id (.bare (.moved origin.capacity target))).overwrite
        (fun redirect => .moved redirect.capacity origin.id) done).Tracks after stop →
      img.ChangedWithin after FileHeader.size stop → post (.ok ()) after) :
    contract.Runs (shortenChain { pageSize := img.pageSize, stop } origin.id previous target passed) img post := by
  have hkeep : (Slot.bare (.moved origin.capacity target)).header.slotSize = layout.size origin.id :=
    (horigin.replaces_moved h target).slotSize_eq
  unfold shortenChain
  refine Runs.step (Runs.attempt (pointOrigin_runs hwf h horigin hpassed (fun after htracks hchanged => ?_)
    fun hfallible cause => Runs.pure (hkept hfallible)))
  refine overwriteRedirects_runs htracks (fun redirect hredirect => ?_) fun done after' hdone hall htracks' hchanged' =>
    hok done after' hdone hall htracks' (hchanged.trans hchanged')
  have hhas : HasRedirect layout redirect := by
    rcases List.mem_append.1 hredirect with hmem | hmem
    · exact hpassed redirect (List.mem_filter.1 hmem).1
    · rw [List.mem_singleton.1 hmem]
      exact hprevious
  obtain ⟨hmem, hvalid, hlength, hsize⟩ := hhas.replaces_moved h origin.id
  exact ⟨hmem, hvalid, hlength, hsize.trans (layout.size_set hkeep redirect.id).symm⟩

/-- What is buried with a record are redirects that were passed and perhaps its origin. -/
theorem redirectsToBury_runs (hwf : img.WellFormed) (h : layout.Tracks img stop) {origin : Option RecordId}
    {passed : List Redirect} (horigin : ∀ id ∈ origin, ∃ capacity, HasRedirect layout { id, capacity })
    (hpassed : ∀ redirect ∈ passed, HasRedirect layout redirect)
    {post : Except StoreError (List Redirect) → Image → Prop}
    (hok : ∀ redirects, (∀ redirect ∈ redirects, HasRedirect layout redirect ∧
      (redirect ∈ passed ∨ redirect.id ∈ origin)) →
      (¬contract.fallible → ∀ id ∈ origin, id ∈ redirects.map (·.id)) → post (.ok redirects) img) :
    contract.Runs (redirectsToBury { pageSize := img.pageSize, stop } origin passed) img post := by
  have hplain : (¬contract.fallible → ∀ id ∈ origin, id ∈ passed.map (·.id)) → post (.ok passed) img :=
    hok passed fun redirect hredirect => ⟨hpassed redirect hredirect, .inl hredirect⟩
  unfold redirectsToBury
  cases hfilter : origin.filter fun origin => !passed.any (·.id = origin) with
  | none =>
    refine Runs.pure (hplain fun _ id hid => ?_)
    have hany := Option.filter_eq_none_iff.1 hfilter id hid
    simpa using hany
  | some id =>
    have hid : id ∈ origin := (Option.filter_eq_some_iff.1 hfilter).1
    obtain ⟨capacity, hredirect⟩ := horigin id hid
    refine Runs.step (Runs.attempt ((redirectCapacity_answers hwf h hredirect).mono ?_))
    rintro result after ⟨rfl, rfl | ⟨hfallible, cause, rfl⟩⟩
    · refine Runs.pure (hok _ (fun redirect hmem => ?_) fun _ other hother => ?_)
      · rcases List.mem_append.1 hmem with hmem | hmem
        · exact ⟨hpassed redirect hmem, .inl hmem⟩
        · rw [List.mem_singleton.1 hmem]
          exact ⟨hredirect, .inr hid⟩
      · obtain rfl : id = other := Option.some.inj (hid.symm.trans hother)
        simp
    · exact Runs.pure (hplain fun hreliable => absurd hfallible hreliable)

end Session

end RecordStore
