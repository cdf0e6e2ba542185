import RecordStore.Proofs.Finding
import RecordStore.Proofs.SessionsInUse

/-!
# Files from elsewhere

Nothing is asked of a file here but that its slots make up a layout and that its counters are those of a scan
(`Session.Tallies`); it need be no store.  Redirects may lead anywhere, and the origin of a record may be any number.  A
request changes the slot of the record that it is about, turns slots that records have left into others of this kind
(`Layout.Recasts`) and appends slots behind the others, so that all other records stay as they are and the counters stay
those of a scan (`Tallies.perform_revises`), as long as the origin of that record is a slot.
-/

namespace RecordStore

open Bytes StorageView

namespace SlotHeader

/-- The headers of slots that a record has left: redirects, and those that were buried with it. -/
inductive Former : SlotHeader → Prop
  | moved (capacity : Nat) (target : RecordId) : Former (.moved capacity target)
  | buried (capacity length : Nat) : Former (.deleted capacity length true)

theorem Former.share_eq {header : SlotHeader} (h : header.Former) :
    header.share = { Counters.zero with allocated := 1, relocated := 1 } := by
  cases h <;> rfl

theorem Former.state_ne {header : SlotHeader} (h : header.Former) : header.state ≠ .live := by
  cases h <;> simp [state]

end SlotHeader

namespace Layout

variable {layout layout' layout'' base : Layout} {img img' : Image} {id : RecordId} {stop stop' : Nat}
  {mine : RecordId → Prop}

/-! ### Slots that records have left -/

/-- Slots that records have left may have become others of this kind; all other slots are as before. -/
structure Recasts (layout layout' : Layout) : Prop where
  ids : layout'.ids = layout.ids
  slot : ∀ id, layout'.slot id = layout.slot id ∨ (layout.header id).Former ∧ (layout'.header id).Former

namespace Recasts

theorem refl (layout : Layout) : layout.Recasts layout := ⟨rfl, fun _ => .inl rfl⟩

theorem former (h : layout.Recasts layout') (hformer : (layout.header id).Former) : (layout'.header id).Former := by
  rcases h.slot id with hsame | ⟨-, hformer'⟩
  · rw [header, hsame]
    exact hformer
  · exact hformer'

theorem trans (h : layout.Recasts layout') (h' : layout'.Recasts layout'') : layout.Recasts layout'' where
  ids := h'.ids.trans h.ids
  slot id := by
    rcases h.slot id with hsame | ⟨hformer, hformer'⟩
    · rcases h'.slot id with hsame' | ⟨hformer', hformer''⟩
      · exact .inl (hsame'.trans hsame)
      · rw [header, hsame] at hformer'
        exact .inr ⟨hformer', hformer''⟩
    · exact .inr ⟨hformer, h'.former hformer'⟩

theorem totals_eq (h : layout.Recasts layout') : layout'.totals layout'.ids = layout.totals layout.ids := by
  rw [h.ids]
  refine totals_congr fun id _ => ?_
  rcases h.slot id with hsame | ⟨hformer, hformer'⟩
  · rw [header, hsame, header]
  · rw [hformer.share_eq, hformer'.share_eq]

end Recasts

theorem recasts_set {header : SlotHeader} (hid : (layout.header id).Former) (hheader : header.Former) :
    layout.Recasts (layout.set id (.bare header)) := by
  refine ⟨rfl, fun other => ?_⟩
  by_cases hne : other = id
  · subst hne
    rw [header_set_self]
    exact .inr ⟨hid, hheader⟩
  · exact .inl (slot_set_of_ne _ _ hne)

theorem recasts_overwrite {header : Redirect → SlotHeader} {redirects : List Redirect}
    (hheader : ∀ redirect, (header redirect).Former)
    (hformer : ∀ redirect ∈ redirects, (layout.header redirect.id).Former) :
    layout.Recasts (layout.overwrite header redirects) :=
  overwrite_induction (.refl layout) fun _ hmid redirect hredirect =>
    hmid.trans (recasts_set (hmid.former (hformer redirect hredirect)) (hheader redirect))

/-! ### Slots of one record -/

/-- Slots have been appended from `stop` on, and of the records in front of it those that are `mine` may have changed. -/
structure Revises (layout layout' : Layout) (stop : Nat) (mine : RecordId → Prop) : Prop where
  ids : ∃ fresh, layout'.ids = layout.ids ++ fresh ∧ ∀ id ∈ fresh, stop ≤ id.offset
  slot : ∀ id ∈ layout.ids, (layout.header id).state = .live → ¬mine id → layout'.slot id = layout.slot id

theorem Revises.trans (h : layout.Revises layout' stop mine) (h' : layout'.Revises layout'' stop mine) :
    layout.Revises layout'' stop mine := by
  obtain ⟨fresh, hids, hfresh⟩ := h.ids
  obtain ⟨fresh', hids', hfresh'⟩ := h'.ids
  refine ⟨⟨fresh ++ fresh', by rw [hids', hids, List.append_assoc], fun id hid => ?_⟩, fun id hid hlive hmine => ?_⟩
  · rcases List.mem_append.1 hid with hid | hid
    · exact hfresh id hid
    · exact hfresh' id hid
  · have hsame := h.slot id hid hlive hmine
    refine (h'.slot id ?_ ?_ hmine).trans hsame
    · rw [hids]
      exact List.mem_append_left _ hid
    · rw [header, hsame]
      exact hlive

theorem Recasts.revises (h : layout.Recasts layout') : layout.Revises layout' stop mine where
  ids := ⟨[], by rw [h.ids, List.append_nil], by simp⟩
  slot id _ hlive _ := (h.slot id).resolve_right fun hformer => hformer.1.state_ne hlive

theorem revises_set (hmine : mine id) (slot : Slot) : layout.Revises (layout.set id slot) stop mine where
  ids := ⟨[], (List.append_nil _).symm, by simp⟩
  slot other _ _ hother := slot_set_of_ne _ _ fun heq => hother (heq ▸ hmine)

namespace Padded

theorem exists_fresh (h : layout.Padded stop base stop') :
    ∃ fresh, base.ids = layout.ids ++ fresh ∧ ∀ id ∈ fresh, id.offset = stop := by
  cases h with
  | whole => exact ⟨[], (List.append_nil _).symm, by simp⟩
  | gap hgap => exact ⟨_, rfl, by simpa using hgap⟩

theorem revises_push (h : layout.Padded stop base id.offset) (htracks : layout.Tracks img stop) (slot : Slot) :
    layout.Revises (base.push id slot) stop mine where
  ids := by
    have hle := h.stop_le
    obtain ⟨fresh, hids, hfresh⟩ := h.exists_fresh
    refine ⟨fresh ++ [id], by rw [ids_push, hids, List.append_assoc], fun other hother => ?_⟩
    rcases List.mem_append.1 hother with hother | hother
    · exact Nat.le_of_eq (hfresh other hother).symm
    · rw [List.mem_singleton.1 hother]
      exact hle
  slot other hother _ _ := h.slot_push_eq htracks h.stop_le hother

/-- Padding has no share in the counters. -/
theorem totals_push (h : layout.Padded stop base stop') (htracks : layout.Tracks img stop) {slot : Slot} {last : Nat}
    (hpush : (base.push id slot).Tracks img' last) :
    (base.push id slot).totals (base.push id slot).ids = layout.totals layout.ids + slot.header.share := by
  have hid : id ∉ base.ids := by
    have hnodup := hpush.nodup
    rw [ids_push, List.nodup_append] at hnodup
    exact fun hid => hnodup.2.2 id hid id List.mem_cons_self rfl
  have hbase : base.totals base.ids = layout.totals layout.ids := by
    cases h with
    | whole => rfl
    | @gap gap capacity hgap =>
      have hgap' : gap ∉ layout.ids := fun hmem => absurd (htracks.offset_lt hmem) (by omega)
      rw [Layout.totals_push hgap', Slot.bare, SlotHeader.share_padding, add_zero]
  rw [Layout.totals_push hid, hbase]

end Padded

end Layout

/-- The origin of the record that `id` leads to, if there is one, is a slot. -/
def Layout.KnowsOriginOf (layout : Layout) (id : RecordId) : Prop :=
  ∀ found, layout.Finds id found → ∀ capacity length first,
    found.header = .live capacity length (some first) → first ∈ layout.ids

/-- The record that a request changes. -/
def Request.record? : Request → Option RecordId
  | .update id _ => some id
  | .delete id => some id
  | _ => none

namespace Session

variable {σ : Type} [PagedStorage σ] {contract : StorageContract σ} {img : Image} {layout : Layout} {stop : Nat}

theorem HasRedirect.former {redirect : Redirect} (h : HasRedirect layout redirect) :
    (layout.header redirect.id).Former := by
  obtain ⟨-, target, hmoved⟩ := h
  rw [hmoved]
  exact .moved _ _

/-- Shortening a chain turns redirects into others, and the origin too if it is one. -/
theorem shortenChain_recasts (hwf : img.WellFormed) (h : layout.Tracks img stop) {origin target : RecordId}
    (horigin : origin ∈ layout.ids) {previous : Redirect} {passed : List Redirect}
    (hprevious : HasRedirect layout previous) (hpassed : ∀ redirect ∈ passed, HasRedirect layout redirect) :
    contract.Runs (shortenChain { pageSize := img.pageSize, stop } origin previous target passed) img fun _ after =>
      ∃ layout', layout.Recasts layout' ∧ layout'.Tracks after stop ∧ img.ChangedWithin after FileHeader.size stop := by
  have hkept : ∃ layout', layout.Recasts layout' ∧ layout'.Tracks img stop ∧
      img.ChangedWithin img FileHeader.size stop := ⟨layout, .refl layout, h, .refl ..⟩
  by_cases hredirect : ∃ capacity, HasRedirect layout { id := origin, capacity }
  · obtain ⟨capacity, hredirect⟩ := hredirect
    refine shortenChain_runs hwf h hredirect hprevious hpassed (fun _ => hkept)
      fun done after hdone _ htracks hchanged => ⟨_, ?_, htracks, hchanged⟩
    have hset := Layout.recasts_set hredirect.former (.moved capacity target)
    refine hset.trans (Layout.recasts_overwrite (fun _ => .moved _ _) fun redirect hmem => hset.former ?_)
    rcases List.mem_append.1 (hdone.subset hmem) with hmem | hmem
    · exact (hpassed redirect (List.mem_filter.1 hmem).1).former
    · rw [List.mem_singleton.1 hmem]
      exact hprevious.former
  · -- the capacity of no redirect can be had, so nothing is written
    have hfind : passed.find? (·.id = origin) = none := by
      refine List.find?_eq_none.2 fun redirect hmem hid => hredirect ⟨redirect.capacity, ?_⟩
      rw [← of_decide_eq_true hid]
      exact hpassed redirect hmem
    unfold shortenChain
    rw [hfind]
    refine Runs.step (Runs.attempt (Runs.step ((Region.redirectCapacity_runs hwf h horigin).mono ?_)))
    rintro (e | capacity) _ ⟨rfl, hcapacity⟩
    · exact Runs.pure hkept
    · exact absurd ⟨capacity, hcapacity capacity rfl⟩ hredirect

/-- Burying the redirects of a record turns them into tombstones, and the origin too if it is one. -/
theorem buryRedirects_recasts (hwf : img.WellFormed) (h : layout.Tracks img stop) {origin : Option RecordId}
    (horigin : ∀ id ∈ origin, id ∈ layout.ids) {passed : List Redirect}
    (hpassed : ∀ redirect ∈ passed, HasRedirect layout redirect) :
    contract.Runs (do
      let redirects ← redirectsToBury { pageSize := img.pageSize, stop } origin passed
      overwriteRedirects (fun redirect => .deleted redirect.capacity 0 true) redirects) img fun _ after =>
      ∃ layout', layout.Recasts layout' ∧ layout'.Tracks after stop ∧ img.ChangedWithin after FileHeader.size stop := by
  refine Runs.step ((redirectsToBury_finds hwf h horigin).mono ?_)
  rintro _ _ ⟨rfl, redirects, rfl, hredirects⟩
  have hall : ∀ redirect ∈ redirects, HasRedirect layout redirect := by
    intro redirect hmem
    rcases hredirects redirect hmem with hmem | ⟨-, hredirect⟩
    · exact hpassed redirect hmem
    · exact hredirect
  refine overwriteRedirects_runs h (fun redirect hmem => (hall redirect hmem).replaces_deleted h)
    fun done after hdone _ htracks hchanged => ⟨_, ?_, htracks, hchanged⟩
  exact Layout.recasts_overwrite (fun _ => .buried _ _) fun redirect hmem => (hall redirect (hdone.subset hmem)).former

/-! ### Operations -/

/-- The session walks the layout, and its counters are those of a scan. -/
structure Tallies (session : Session Image) (layout : Layout) : Prop extends session.Walks layout where
  counters_eq : session.counters = { layout.totals layout.ids with size := session.counters.size }

/-- What has become of a session: its layout was revised, its counters are those of a scan again, and the file header
was not touched. -/
def Revised (before : Session Image) (layout : Layout) (mine : RecordId → Prop) (after : Session Image) : Prop :=
  ∃ layout', after.Tallies layout' ∧ layout.Revises layout' before.counters.size mine ∧
    before.storage.AgreeOn after.storage 0 FileHeader.size

variable {session : Session Image} {mine : RecordId → Prop} {id : RecordId} {found : Resolution}

namespace Tallies

/-- What the slots gain and lose is what the counters have to gain and lose. -/
theorem revised (h : session.Tallies layout) {layout' : Layout}
    (hrevises : layout.Revises layout' session.counters.size mine) {counters lost gained : Counters}
    (htracks : layout'.Tracks img counters.size) (hchanged : session.storage.ChangedWithin img FileHeader.size stop)
    (htotals : layout'.totals layout'.ids + lost = layout.totals layout.ids + gained)
    (hcounters : counters + lost = { session.counters + gained with size := counters.size + lost.size }) :
    session.Revised layout mine { session with storage := img, header := { session.header with counters } } := by
  -- the slots and the counters were as many before, and have gained and lost the same
  have hcounters_eq : counters = { layout'.totals layout'.ids with size := counters.size } := by
    have heq := h.counters_eq
    simp only [Counters.ext_fields_iff, Counters.allocated_add, Counters.deleted_add, Counters.relocated_add,
      Counters.payload_add, Counters.capacity_add, Counters.size_add, and_true] at heq htotals hcounters ⊢
    omega
  exact ⟨layout', ⟨h.on hchanged htracks, hcounters_eq⟩, hrevises, hchanged.agreeOn (Nat.le_refl _)⟩

omit [PagedStorage σ] in
private theorem counters_seen {view : StorageView σ} {actual : Session σ} (hactual : actual.seen view = session) :
    actual.counters = session.counters := by
  rw [← hactual]
  rfl

theorem insert_revises (h : session.Tallies layout) (payload : ByteArray) :
    Performs contract.toStorageView (insert payload) session fun result after =>
      ∀ id, result = .ok id → session.Revised layout mine after := by
  unfold insert
  refine Performs.step (Performs.ensureOpen h.opened ?_)
  refine Performs.get_bind fun actual hactual => Performs.step (Performs.ofExcept ?_)
  cases hcapacity : actual.capacityFor payload.size (actual.policy.initial payload.size) with
  | error e => rintro id ⟨⟩
  | ok capacity =>
    refine Performs.step (Performs.onSlots (h.append_runs hactual hcapacity (by simp)
      (fun id base after hpadded hpush hchanged => ?_) ?_))
    · refine Performs.step (Performs.setCounters (Performs.pure fun _ _ => ?_))
      have htotals := hpadded.totals_push h.tracks hpush
      rw [← add_zero ((base.push id _).totals _)] at htotals
      refine h.revised (hpadded.revises_push h.tracks _) hpush
        (hchanged.mono h.tracks.size_le_stop (Nat.le_refl _)) htotals ?_
      rw [counters_seen hactual]
      ext <;> simp [SlotHeader.share, Counters.account, Counters.zero]
    · rintro e after - - id ⟨⟩

private theorem adjust_add {offset counter added removed value : Nat}
    (h : adjust offset counter added removed = .ok value) : value + removed = counter + added := by
  unfold adjust at h
  split at h
  · cases h
    omega
  · cases h

section Found

variable (h : session.Tallies layout) (hfound : layout.Finds id found) {capacity length : Nat}
  {origin : Option RecordId} (hlive : found.header = .live capacity length origin) (hmine : mine found.id)

include h hfound hlive hmine

/-- A record that is overwritten keeps its slot. -/
theorem overwrite_revises {payload : ByteArray} (hfits : payload.size ≤ capacity) :
    Performs contract.toStorageView (do
      let counters := (← get).counters
      let livePayload ← liftExcept (adjust found.id.offset counters.payload payload.size length)
      onSlots (Region.writeSlot found.id.offset (.live capacity payload.size origin) payload)
      setCounters { counters with payload := livePayload }
      return found.id) session fun result after => ∀ id, result = .ok id → session.Revised layout mine after := by
  have hheader := hfound.header_eq hlive
  obtain ⟨hcapacity, -, horigin⟩ : (SlotHeader.live capacity length origin).Valid found.id.offset :=
    hheader ▸ (h.tracks.valid _ hfound.mem).header
  refine Performs.get_bind fun actual hactual => Performs.step (Performs.ofExcept ?_)
  rw [counters_seen hactual]
  cases hadjust : adjust found.id.offset session.counters.payload payload.size length with
  | error e => rintro id ⟨⟩
  | ok livePayload =>
    let slot : Slot := { header := .live capacity payload.size origin, payload }
    have hsize : slot.header.slotSize = layout.size found.id := by
      rw [Layout.size, hheader]
      rfl
    have hvalid : slot.Valid found.id.offset := ⟨⟨hcapacity, hfits, horigin⟩, rfl⟩
    refine Performs.step (Performs.onSlots (Region.setSlot_runs h.tracks hfound.mem hvalid hsize
      (fun img htracks hchanged => ?_) ?_))
    · refine Performs.step (Performs.setCounters (Performs.pure fun _ _ => ?_))
      have htotals := layout.totals_set hfound.mem h.tracks.nodup slot
      rw [hheader] at htotals
      refine h.revised (Layout.revises_set hmine slot) htracks hchanged htotals ?_
      have hpayload := adjust_add hadjust
      ext <;> simp [slot, SlotHeader.share, Counters.account, Counters.zero, hpayload]
    · rintro - cause id ⟨⟩

/-- A record was moved to `copy`, and a redirect put in its slot; whatever has become of the redirects since. -/
private theorem revised_of_move {next : RecordId} {base layout' : Layout} {copy : Slot} {img' : Image}
    {counters : Counters} {last : Nat}
    (hpadded : layout.Padded session.counters.size base next.offset) (hpush : (base.push next copy).Tracks img last)
    (hrecasts : ((base.push next copy).set found.id (.bare (.moved capacity next))).Recasts layout')
    (htracks : layout'.Tracks img' counters.size)
    (hchanged : session.storage.ChangedWithin img' FileHeader.size stop)
    (hcounters : counters + (SlotHeader.live capacity length origin).share =
      { session.counters + (copy.header.share + (SlotHeader.moved capacity next).share) with size := counters.size }) :
    session.Revised layout mine { session with storage := img', header := { session.header with counters } } := by
  have hextends : layout.Extends (base.push next copy) := hpadded.extends_push h.tracks
  have hmem := hextends.ids hfound.mem
  have htotals := (base.push next copy).totals_set hmem hpush.nodup (.bare (.moved capacity next))
  rw [hextends.header hfound.mem, hfound.header_eq hlive, hpadded.totals_push h.tracks hpush, add_assoc,
    ← hrecasts.totals_eq] at htotals
  have hrevises := (hpadded.revises_push h.tracks copy).trans
    (Layout.revises_set hmine (.bare (.moved capacity next)))
  exact h.revised (hrevises.trans hrecasts.revises) htracks hchanged htotals hcounters

/-- From the redirect on, which makes the copy count, whatever becomes of the other redirects. -/
private theorem commit_revises {next : RecordId} {base : Layout} {copy : Slot}
    {fresh size livePayload liveCapacity : Nat} {first : Option RecordId} (hcopy : copy.header = .live fresh size first)
    (hpadded : layout.Padded session.counters.size base next.offset) (hpush : (base.push next copy).Tracks img stop)
    (hchanged : session.storage.ChangedWithin img FileHeader.size stop)
    (hfirst : origin.getD found.id ∈ layout.ids)
    (hpayload : livePayload + length = session.counters.payload + size)
    (hcapacity : liveCapacity + capacity = session.counters.capacity + fresh) :
    Performs contract.toStorageView (do
      onSlots (Region.writeHeader found.id.offset (.moved capacity next))
      setCounters {
        allocated := session.counters.allocated + 1
        deleted := session.counters.deleted
        relocated := session.counters.relocated + 1
        payload := livePayload
        capacity := liveCapacity
        size := stop }
      if origin.getD found.id ≠ found.id then
        onSlots (shortenChain { pageSize := img.pageSize, stop } (origin.getD found.id) { id := found.id, capacity }
          next found.passed)
      return next) { session with storage := img } fun result after =>
        ∀ id, result = .ok id → session.Revised layout mine after := by
  have hheader := hfound.header_eq hlive
  let redirected : Layout := (base.push next copy).set found.id (.bare (.moved capacity next))
  have hextends : layout.Extends (base.push next copy) := hpadded.extends_push h.tracks
  have hreplaces : Replaces (base.push next copy) { id := found.id, capacity } (.moved capacity next) :=
    replaces_live hpush (hextends.ids hfound.mem) ((hextends.header hfound.mem).trans hheader) (fun hlt _ => hlt) rfl rfl
  refine Performs.step (Performs.onSlots (hreplaces.writeHeader_runs hpush (fun img' hmoved hchanged' => ?_) ?_))
  · -- however far the chain is shortened, the counters are those of the move
    have hdone : ∀ {layout' img''}, redirected.Recasts layout' → layout'.Tracks img'' stop →
        img'.ChangedWithin img'' FileHeader.size stop → session.Revised layout mine { session with
          storage := img''
          header.counters := {
            allocated := session.counters.allocated + 1
            deleted := session.counters.deleted
            relocated := session.counters.relocated + 1
            payload := livePayload
            capacity := liveCapacity
            size := stop } } := by
      intro layout' img'' hrecasts htracks hchanged''
      refine h.revised_of_move hfound hlive hmine hpadded hpush hrecasts htracks
        ((hchanged.trans hchanged').trans hchanged'') ?_
      rw [hcopy]
      ext <;> simp [SlotHeader.share, Counters.account, Counters.zero, hpayload, hcapacity]
    refine Performs.step (Performs.setCounters ?_)
    by_cases hne : origin.getD found.id ≠ found.id
    · rw [if_pos hne, ← hchanged'.pageSize]
      have hprevious : HasRedirect redirected { id := found.id, capacity } :=
        ⟨hextends.ids hfound.mem, next, Layout.header_set_self _ _ _⟩
      have hpassed : ∀ redirect ∈ found.passed, HasRedirect redirected redirect := by
        intro redirect hredirect
        have hbefore := hfound.hasRedirect redirect hredirect
        exact hbefore.mono (hextends.ids hbefore.1)
          ((Layout.header_set_of_ne _ _ (hbefore.ne_of_live hheader)).trans (hextends.header hbefore.1))
      refine Performs.step (Performs.onSlots (contract.runs_of_wellFormed fun hwf =>
        (shortenChain_recasts hwf hmoved (hextends.ids hfirst) hprevious hpassed).mono ?_))
      rintro (e | ⟨⟩) img'' ⟨layout', hrecasts, htracks, hchanged''⟩
      · rintro id ⟨⟩
      · exact Performs.pure fun _ _ => hdone hrecasts htracks hchanged''
    · rw [if_neg hne]
      exact Performs.pure fun _ _ => hdone (.refl _) hmoved (.refl ..)
  · rintro - cause id ⟨⟩

/-- A record that is moved leaves a redirect in its slot. -/
theorem relocate_revises (horigin : ∀ first ∈ origin, first ∈ layout.ids) (payload : ByteArray) :
    Performs contract.toStorageView (relocate found capacity length origin payload) session fun result after =>
      ∀ id, result = .ok id → session.Revised layout mine after := by
  have hfirst : origin.getD found.id ∈ layout.ids := by
    cases origin with
    | none => exact hfound.mem
    | some first => exact horigin first rfl
  unfold relocate
  refine Performs.get_bind fun actual hactual => Performs.step (Performs.ofExcept ?_)
  cases hfresh : actual.capacityFor payload.size (actual.policy.relocated payload.size capacity) with
  | error e => rintro id ⟨⟩
  | ok fresh =>
    refine Performs.step (Performs.ofExcept ?_)
    rw [counters_seen hactual]
    cases hpayload : adjust found.id.offset session.counters.payload payload.size length with
    | error e => rintro id ⟨⟩
    | ok livePayload =>
      refine Performs.step (Performs.ofExcept ?_)
      cases hcapacity : adjust found.id.offset session.counters.capacity fresh capacity with
      | error e => rintro id ⟨⟩
      | ok liveCapacity =>
        refine Performs.step (Performs.onSlots (h.append_runs hactual hfresh ?_
          (fun next base img hpadded hpush hchanged => ?_) ?_))
        · rintro _ ⟨⟩
          exact hfirst
        · rw [h.region_seen hactual]
          dsimp only
          rw [← hchanged.pageSize]
          exact h.commit_revises hfound hlive hmine rfl hpadded hpush
            (hchanged.mono h.tracks.size_le_stop (Nat.le_refl _)) hfirst (adjust_add hpayload) (adjust_add hcapacity)
        · rintro e after - - id ⟨⟩

/-- A record that is deleted leaves a tombstone in its slot. -/
theorem bury_revises (horigin : ∀ first ∈ origin, first ∈ layout.ids) :
    Performs contract.toStorageView (do
      let session ← get
      let counters := session.counters
      let livePayload ← liftExcept (adjust found.id.offset counters.payload 0 length)
      let liveCapacity ← liftExcept (adjust found.id.offset counters.capacity 0 capacity)
      onSlots (Region.writeHeader found.id.offset (.deleted capacity length false))
      setCounters { counters with
        deleted := counters.deleted + 1
        payload := livePayload
        capacity := liveCapacity }
      onSlots do
        let redirects ← redirectsToBury session.region origin found.passed
        overwriteRedirects (fun redirect => .deleted redirect.capacity 0 true) redirects) session fun result after =>
          ∀ done, result = .ok done → session.Revised layout mine after := by
  have hheader := hfound.header_eq hlive
  refine Performs.get_bind fun actual hactual => Performs.step (Performs.ofExcept ?_)
  rw [counters_seen hactual]
  cases hpayload : adjust found.id.offset session.counters.payload 0 length with
  | error e => rintro done ⟨⟩
  | ok livePayload =>
    refine Performs.step (Performs.ofExcept ?_)
    cases hcapacity : adjust found.id.offset session.counters.capacity 0 capacity with
    | error e => rintro done ⟨⟩
    | ok liveCapacity =>
      have hreplaces : Replaces layout { id := found.id, capacity } (.deleted capacity length false) :=
        replaces_live h.tracks hfound.mem hheader (fun hlt hle => ⟨hlt, hle⟩) rfl rfl
      refine Performs.step (Performs.onSlots (hreplaces.writeHeader_runs h.tracks
        (fun img hdeleted hchanged => ?_) ?_))
      · -- the redirects on the way are not the slot that is deleted
        have hpassed : ∀ redirect ∈ found.passed, HasRedirect
            (layout.set found.id (.bare (.deleted capacity length false))) redirect := by
          intro redirect hredirect
          have hbefore := hfound.hasRedirect redirect hredirect
          exact hbefore.mono hbefore.1 (Layout.header_set_of_ne _ _ (hbefore.ne_of_live hheader))
        refine Performs.step (Performs.setCounters (Performs.onSlots (contract.runs_of_wellFormed fun hwf => ?_)))
        rw [h.region_seen hactual, ← hchanged.pageSize]
        refine (buryRedirects_recasts hwf hdeleted horigin hpassed).mono ?_
        rintro _ img' ⟨layout', hrecasts, htracks, hchanged'⟩ _ -
        have htotals := layout.totals_set hfound.mem h.tracks.nodup (.bare (.deleted capacity length false))
        rw [hheader, ← hrecasts.totals_eq] at htotals
        refine h.revised ((Layout.revises_set hmine _).trans hrecasts.revises) htracks (hchanged.trans hchanged')
          htotals ?_
        have hpayload := adjust_add hpayload
        have hcapacity := adjust_add hcapacity
        ext <;> simp [SlotHeader.share, Counters.account, Counters.zero, Slot.bare, hpayload, hcapacity]
      · rintro - cause done ⟨⟩

end Found

theorem unchanged (h : session.Tallies layout) : session.Revised layout mine session :=
  ⟨layout, h, (Layout.Recasts.refl layout).revises, fun _ _ _ => rfl⟩

/-- Looking for a record first. -/
private theorem resolveSlot_bind_revises {α : Type} (h : session.Tallies layout) {next : Resolution → SessionM σ α}
    (hnext : ∀ found, layout.Finds id found → Performs contract.toStorageView (next found) session fun result after =>
      ∀ a, result = .ok a → session.Revised layout mine after) :
    Performs contract.toStorageView (do ensureOpen; let found ← resolveSlot id; next found) session fun result after =>
      ∀ a, result = .ok a → session.Revised layout mine after := by
  refine Performs.step (Performs.ensureOpen h.opened (Performs.step ((h.resolveSlot_performs id).mono ?_)))
  rintro (e | found) _ ⟨rfl, hfound⟩
  · rintro a ⟨⟩
  · exact hnext found (hfound found rfl)

theorem update_revises (h : session.Tallies layout) (horigin : layout.KnowsOriginOf id)
    (hmine : ∀ found, layout.Finds id found → mine found.id) (payload : ByteArray) :
    Performs contract.toStorageView (update id payload) session fun result after =>
      ∀ id, result = .ok id → session.Revised layout mine after := by
  unfold update
  refine h.resolveSlot_bind_revises fun found hfound => ?_
  cases hlive : found.header with
  | moved capacity target => exact Performs.throw (by rintro id ⟨⟩)
  | deleted capacity length relocated => exact Performs.throw (by rintro id ⟨⟩)
  | padding capacity => exact Performs.throw (by rintro id ⟨⟩)
  | live capacity length origin =>
    have hfoundMine := hmine _ hfound
    dsimp only
    by_cases hfits : payload.size ≤ capacity
    · rw [if_pos hfits]
      exact h.overwrite_revises hfound hlive hfoundMine hfits
    · rw [if_neg hfits]
      refine h.relocate_revises hfound hlive hfoundMine ?_ payload
      rintro first ⟨⟩
      exact horigin _ hfound _ _ _ hlive

theorem delete_revises (h : session.Tallies layout) (horigin : layout.KnowsOriginOf id)
    (hmine : ∀ found, layout.Finds id found → mine found.id) :
    Performs contract.toStorageView (delete id) session fun result after =>
      ∀ done, result = .ok done → session.Revised layout mine after := by
  unfold delete
  refine h.resolveSlot_bind_revises fun found hfound => ?_
  cases hlive : found.header with
  | moved capacity target => exact Performs.throw (by rintro id ⟨⟩)
  | deleted capacity length relocated => exact Performs.throw (by rintro id ⟨⟩)
  | padding capacity => exact Performs.throw (by rintro id ⟨⟩)
  | live capacity length origin =>
    refine h.bury_revises hfound hlive (hmine _ hfound) ?_
    rintro first ⟨⟩
    exact horigin _ hfound _ _ _ hlive

theorem resolve_revises (h : session.Tallies layout) (id : RecordId) :
    Performs contract.toStorageView (resolve id) session fun result after =>
      ∀ last, result = .ok last → session.Revised layout mine after := by
  unfold resolve
  refine h.resolveSlot_bind_revises fun found _ => ?_
  cases found.header with
  | live capacity length origin => exact Performs.pure fun _ _ => h.unchanged
  | moved capacity target => exact Performs.throw (by rintro id ⟨⟩)
  | deleted capacity length relocated => exact Performs.throw (by rintro id ⟨⟩)
  | padding capacity => exact Performs.throw (by rintro id ⟨⟩)

theorem read_revises (h : session.Tallies layout) (id : RecordId) :
    Performs contract.toStorageView (read id) session fun result after =>
      ∀ payload, result = .ok payload → session.Revised layout mine after := by
  unfold read
  refine h.resolveSlot_bind_revises fun found hfound => ?_
  cases hlive : found.header with
  | live capacity length origin =>
    have hslot := h.tracks.hasSlot hfound.mem
    have hheader : (layout.slot found.id).header = .live capacity length origin := hfound.header_eq hlive
    have hvalid : (SlotHeader.live capacity length origin).Valid found.id.offset := hheader ▸ hslot.valid.header
    have hlength := hvalid.payload_le
    have hbound := hslot.bound
    rw [hheader] at hbound
    refine Performs.onSlots ((contract.read_answers (by omega)).mono ?_)
    rintro result _ ⟨rfl, -⟩ payload -
    exact h.unchanged
  | moved capacity target => exact Performs.throw (by rintro id ⟨⟩)
  | deleted capacity length relocated => exact Performs.throw (by rintro id ⟨⟩)
  | padding capacity => exact Performs.throw (by rintro id ⟨⟩)

theorem perform_revises (h : session.Tallies layout) {request : Request} (hflush : request ≠ .flush)
    (horigin : ∀ id ∈ request.record?, layout.KnowsOriginOf id) :
    Performs contract.toStorageView (perform request) session fun result after =>
      ∀ reply, result = .ok reply → session.Revised layout
        (fun last => ∃ id ∈ request.record?, ∃ found, layout.Finds id found ∧ found.id = last) after := by
  have hanswer : ∀ {α : Type} {act : SessionM σ α} (f : α → Reply) {mine : RecordId → Prop},
      Performs contract.toStorageView act session (fun result after =>
        ∀ a, result = .ok a → session.Revised layout mine after) →
      Performs contract.toStorageView (act >>= fun a => pure (f a)) session fun result after =>
        ∀ reply, result = .ok reply → session.Revised layout mine after := fun f _ hact =>
    .answering f (hact.mono fun result _ hrevised reply hreply => by
      cases result with
      | error e => cases hreply
      | ok a => exact hrevised a rfl)
  cases request with
  | insert payload => exact hanswer Reply.id (h.insert_revises payload)
  | update id payload =>
    exact hanswer Reply.id (h.update_revises (horigin id rfl) (fun found hfound => ⟨id, rfl, found, hfound, rfl⟩) payload)
  | delete id =>
    exact hanswer (fun _ => Reply.done) (h.delete_revises (horigin id rfl) fun found hfound => ⟨id, rfl, found, hfound, rfl⟩)
  | read id => exact hanswer Reply.payload (h.read_revises id)
  | resolve id => exact hanswer Reply.id (h.resolve_revises id)
  | flush => exact absurd rfl hflush

end Tallies

end Session

end RecordStore
