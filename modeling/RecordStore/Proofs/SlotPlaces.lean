import RecordStore.Proofs.Recounts

/-!
# Where slots stand

A slot stays where it is and keeps its room.  Operations put new slots behind the others and change what the old ones
hold (`Transition.growsTo`), and padding always goes on to the end of its page (`Transition.filled`).  So identifiers are
never given out again, and every new one is greater than all before it (`slots_stay_in_place`).
-/

namespace RecordStore

namespace Layout

variable {layout later last base : Layout} {img : Image} {id : RecordId} {slot : Slot}
  {pageSize stop stop' : Nat}

/-- The layout at some later time: its slots have kept their room, and all others stand behind them. -/
structure GrowsTo (layout later : Layout) : Prop where
  ids : layout.ids <+: later.ids
  capacity : ∀ id ∈ layout.ids, (later.header id).capacity = (layout.header id).capacity
  padding : ∀ id ∈ layout.ids, (later.header id).state = .padding ↔ (layout.header id).state = .padding

/-- Padding goes on to the end of its page. -/
def Filled (layout : Layout) (pageSize : Nat) : Prop :=
  ∀ id ∈ layout.ids, (layout.header id).state = .padding →
    id.offset + layout.size id = endOfPage pageSize id.offset

/-- The slots of the layout go from the file header to `stop`, each inside one page, and padding to the end of it. -/
structure Paved (layout : Layout) (img : Image) (stop : Nat) : Prop where
  tracks : layout.Tracks img stop
  aligned : ∀ id ∈ layout.ids, id.offset % 8 = 0 ∧ id.offset < 2 ^ 35
  page : ∀ id ∈ layout.ids, id.offset + layout.size id ≤ endOfPage img.pageSize id.offset
  padding : ∀ id ∈ layout.ids, (layout.header id).state = .padding →
    id.offset + layout.size id = endOfPage img.pageSize id.offset

theorem slotSize_congr {header header' : SlotHeader} (hcapacity : header'.capacity = header.capacity)
    (hpadding : header'.state = .padding ↔ header.state = .padding) : header'.slotSize = header.slotSize := by
  have hheader : header'.headerSize = header.headerSize := by
    cases header <;> cases header' <;> simp_all [SlotHeader.state, SlotHeader.headerSize]
  rw [SlotHeader.slotSize, SlotHeader.slotSize, hheader, hcapacity]

namespace GrowsTo

theorem refl (layout : Layout) : layout.GrowsTo layout := by
  constructor
  · exact List.prefix_refl _
  · intro id _
    rfl
  · intro id _
    rfl

theorem trans (h : layout.GrowsTo later) (h' : later.GrowsTo last) : layout.GrowsTo last := by
  have hsubset := h.ids.subset
  constructor
  · exact h.ids.trans h'.ids
  · intro id hid
    rw [h'.capacity id (hsubset hid), h.capacity id hid]
  · intro id hid
    rw [h'.padding id (hsubset hid), h.padding id hid]

theorem size (h : layout.GrowsTo later) (hid : id ∈ layout.ids) : later.size id = layout.size id :=
  slotSize_congr (h.capacity id hid) (h.padding id hid)

/-- A slot that is overwritten keeps its room. -/
theorem set (h : layout.GrowsTo later) (hcapacity : id ∈ layout.ids → slot.header.capacity = (layout.header id).capacity)
    (hpadding : id ∈ layout.ids → (slot.header.state = .padding ↔ (layout.header id).state = .padding)) :
    layout.GrowsTo (later.set id slot) := by
  refine ⟨h.ids, fun other hother => ?_, fun other hother => ?_⟩
  all_goals
    by_cases hne : other = id
    · subst hne
      rw [header_set_self]
      first | exact hcapacity hother | exact hpadding hother
    · rw [header_set_of_ne _ _ hne]
      first | exact h.capacity other hother | exact h.padding other hother

theorem push (h : layout.GrowsTo later) (hid : id ∉ layout.ids) : layout.GrowsTo (later.push id slot) := by
  have hheader : ∀ other ∈ layout.ids, (later.push id slot).header other = later.header other := by
    intro other hother
    refine header_push_of_ne _ _ ?_
    rintro rfl
    exact hid hother
  refine ⟨h.ids.trans (List.prefix_append _ _), fun other hother => ?_, fun other hother => ?_⟩
  · rw [hheader other hother]
    exact h.capacity other hother
  · rw [hheader other hother]
    exact h.padding other hother

/-- Overwriting redirects keeps their room. -/
theorem overwrite (h : layout.GrowsTo later) {header : Redirect → SlotHeader} {done : List Redirect}
    (hdone : ∀ redirect ∈ done, (header redirect).capacity = (layout.header redirect.id).capacity ∧
      (header redirect).state ≠ .padding ∧ (layout.header redirect.id).state ≠ .padding) :
    layout.GrowsTo (later.overwrite header done) := by
  refine overwrite_induction h fun mid hmid redirect hredirect => ?_
  obtain ⟨hcapacity, hstate, hstate'⟩ := hdone redirect hredirect
  exact hmid.set (fun _ => hcapacity) fun _ => iff_of_false hstate hstate'

/-- The slots of a layout are those that start in front of its end at any later time. -/
theorem mem_iff (h : layout.GrowsTo later) (htracks : layout.Tracks img stop) {img' : Image}
    (hpageSize : img'.pageSize = img.pageSize) (htracks' : later.Tracks img' stop') (id : RecordId) :
    id ∈ layout.ids ↔ id ∈ later.ids ∧ id.offset < stop := by
  constructor
  · intro hid
    exact ⟨h.ids.subset hid, htracks.offset_lt hid⟩
  · rintro ⟨hid, hlt⟩
    obtain ⟨fresh, hfresh⟩ := h.ids
    have htiles := htracks'.tiles
    rw [← hfresh, hpageSize] at htiles
    obtain ⟨mid, hold, hnew⟩ := Tiles.append_iff.1 htiles
    have hmid : mid = stop :=
      Tiles.stop_unique (hold.congr fun other hother => (h.size hother).symm) htracks.tiles
    rw [← hfresh, List.mem_append] at hid
    rcases hid with hid | hid
    · exact hid
    · have hle := hnew.start_le hid
      omega

end GrowsTo

namespace Filled

theorem set (h : layout.Filled pageSize) (hstate : slot.header.state ≠ .padding) :
    (layout.set id slot).Filled pageSize := by
  intro other hother hpadding
  by_cases hne : other = id
  · rw [hne, header_set_self] at hpadding
    exact absurd hpadding hstate
  · rw [header_set_of_ne _ _ hne] at hpadding
    rw [Layout.size, header_set_of_ne _ _ hne]
    exact h other hother hpadding

theorem push (h : layout.Filled pageSize)
    (hslot : slot.header.state = .padding → id.offset + slot.header.slotSize = endOfPage pageSize id.offset) :
    (layout.push id slot).Filled pageSize := by
  intro other hother hpadding
  by_cases hne : other = id
  · subst hne
    rw [header_push_self] at hpadding
    rw [Layout.size, header_push_self]
    exact hslot hpadding
  · rw [header_push_of_ne _ _ hne] at hpadding
    rw [Layout.size, header_push_of_ne _ _ hne]
    have hmem : other ∈ layout.ids := by simpa [hne] using hother
    exact h other hmem hpadding

theorem overwrite (h : layout.Filled pageSize) {header : Redirect → SlotHeader} {done : List Redirect}
    (hstate : ∀ redirect, (header redirect).state ≠ .padding) : (layout.overwrite header done).Filled pageSize := by
  refine @overwrite_induction layout header done (fun mid => mid.Filled pageSize) h ?_
  intro mid hmid redirect _
  exact hmid.set (hstate redirect)

end Filled

namespace Padded

theorem growsTo (h : layout.Padded stop base stop') (htracks : layout.Tracks img stop) : layout.GrowsTo base := by
  -- slots are appended or replaced by slots of the same capacity
  cases h with
  | whole => exact .refl layout
  | gap hid =>
    refine (GrowsTo.refl layout).push fun hmem => ?_
    have hlt := htracks.offset_lt hmem
    omega

/-- A gap is filled up to the next page if it is the next page where the slot behind it goes. -/
theorem filled (h : layout.Padded stop base stop') (hfilled : layout.Filled pageSize)
    (hplace : stop' = stop ∨ stop' = endOfPage pageSize stop) : base.Filled pageSize := by
  cases h with
  | whole => exact hfilled
  | @gap gap capacity hid =>
    refine hfilled.push fun _ => ?_
    have hpos := (SlotHeader.padding capacity).slotSize_pos
    rw [hid]
    rcases hplace with hplace | hplace
    · omega
    · exact hplace

end Padded

end Layout

namespace Store

variable {store : Store} {capacity stop : Nat} {id : RecordId}

/-- A new slot starts where the last one ends, or on the next page. -/
theorem newSlot_place (h : store.newSlot capacity = .ok (id, stop)) :
    id.offset = store.stop ∨ id.offset = endOfPage store.pageSize store.stop := by
  rw [(newSlot_eq_ok_iff.1 h).1]
  unfold place
  dsimp only
  split
  · exact .inl rfl
  · exact .inr rfl

end Store

namespace Layout

variable {fallible : Prop} {layout layout' committed : Layout} {store store' : Store} {record : StoredRecord}
  {id : RecordId} {img : Image} {status : FileStatus} {pageSize : Nat}

namespace Shortened

theorem growsTo (h : Shortened fallible layout record id committed layout') (hstores : layout.Stores record)
    (hcommitted : layout.GrowsTo committed) : layout.GrowsTo layout' := by
  cases h with
  | unmoved => exact hcommitted
  | kept => exact hcommitted
  | shortened hfirst hcapacity hdone hall =>
    apply GrowsTo.overwrite
    · apply hcommitted.set
      · intro _
        exact hcapacity.symm
      · intro _
        exact iff_of_false nofun (hstores.state_ne_padding record.first_mem)
    · intro redirect hredirect
      obtain ⟨hmem, -, hcapacity'⟩ := hdone redirect hredirect
      exact ⟨hcapacity'.symm, nofun, hstores.state_ne_padding hmem⟩

theorem filled (h : Shortened fallible layout record id committed layout') (hcommitted : committed.Filled pageSize) :
    layout'.Filled pageSize := by
  cases h with
  | unmoved => exact hcommitted
  | kept => exact hcommitted
  | shortened =>
    apply Filled.overwrite
    · apply hcommitted.set
      simp [Slot.bare, SlotHeader.state]
    · simp [SlotHeader.state]

end Shortened

namespace Transition

theorem pageSize_eq (h : layout.Transition fallible store layout' store') : store'.pageSize = store.pageSize := by
  cases h <;> rfl

/-- What an operation makes of a layout is grown from it. -/
theorem growsTo (h : layout.Transition fallible store layout' store') (hkeeps : img.Keeps layout store status) :
    layout.GrowsTo layout' := by
  have htracks := hkeeps.tracks
  have hfresh : ∀ {base : Layout} {id : RecordId}, layout.Padded store.stop base id.offset → id ∉ layout.ids := by
    intro base id hpadded hmem
    have hlt := htracks.offset_lt hmem
    have hle := hpadded.stop_le
    omega
  have hsplit : ∀ {before after : List StoredRecord} {record : StoredRecord},
      store.records = before ++ record :: after → layout.Stores record := by
    intro before after record hrecords
    exact hkeeps.represents.stores record (by simp [hrecords])
  cases h with
  | same => exact .refl layout
  | inserted hpadded hnew => exact (hpadded.growsTo htracks).push (hfresh hpadded)
  | overwritten hrecords hlive =>
    have hheader := (hsplit hrecords).header_latest hlive
    apply (GrowsTo.refl layout).set
    · simp [hheader, SlotHeader.capacity]
    · simp [hheader, SlotHeader.state]
  | moved hrecords hlive hpadded hnew hshortened =>
    have hstores := hsplit hrecords
    apply hshortened.growsTo hstores
    apply ((hpadded.growsTo htracks).push (hfresh hpadded)).set
    · simp [hstores.header_latest hlive, Slot.bare, SlotHeader.capacity]
    · simp [hstores.header_latest hlive, Slot.bare, SlotHeader.state]
  | deleted hrecords hlive hdone hall =>
    have hstores := hsplit hrecords
    apply GrowsTo.overwrite
    · apply (GrowsTo.refl layout).set
      · simp [hstores.header_latest hlive, Slot.bare, SlotHeader.capacity]
      · simp [hstores.header_latest hlive, Slot.bare, SlotHeader.state]
    · intro redirect hredirect
      obtain ⟨hformer, hcapacity⟩ := hdone redirect hredirect
      have hdeleted : (SlotHeader.deleted redirect.capacity 0 true).state ≠ .padding := by simp [SlotHeader.state]
      exact ⟨hcapacity.symm, hdeleted, hstores.state_ne_padding (List.mem_cons_of_mem _ hformer)⟩

/-- Padding goes on to the end of its page, whatever is done. -/
theorem filled (h : layout.Transition fallible store layout' store') (hfilled : layout.Filled store.pageSize) :
    layout'.Filled store.pageSize := by
  cases h with
  | same => exact hfilled
  | inserted hpadded hnew =>
    apply (hpadded.filled hfilled (Store.newSlot_place hnew)).push
    simp [SlotHeader.state]
  | overwritten =>
    apply hfilled.set
    simp [SlotHeader.state]
  | moved hrecords hlive hpadded hnew hshortened =>
    apply hshortened.filled
    apply Filled.set
    · apply (hpadded.filled hfilled (Store.newSlot_place hnew)).push
      simp [SlotHeader.state]
    · simp [Slot.bare, SlotHeader.state]
  | deleted =>
    apply Filled.overwrite
    · apply hfilled.set
      simp [Slot.bare, SlotHeader.state]
    · simp [SlotHeader.state]

end Transition

end Layout

/-- Only writes answer identifiers of records. -/
theorem Event.written_eq_some {event : Event} {result : Except StoreError Reply} {id : RecordId}
    (h : event.written result = some id) : result = .ok (.id id) ∧
      ((∃ payload, event = .request (.insert payload)) ∨
        ∃ target payload, event = .request (.update target payload)) := by
  unfold written at h
  split at h
  · cases h
    exact ⟨rfl, .inl ⟨_, rfl⟩⟩
  · cases h
    exact ⟨rfl, .inr ⟨_, _, rfl⟩⟩
  · cases h

namespace Store

variable {store store' : Store} {event : Event} {id target : RecordId} {payload : ByteArray} {capacity stop : Nat}

theorem stop_le_of_newSlot (hpos : 0 < store.pageSize) (h : store.newSlot capacity = .ok (id, stop)) :
    store.stop ≤ id.offset := by
  have hlt := lt_endOfPage hpos store.stop
  rcases newSlot_place h with hplace | hplace <;> omega

/-- A new slot takes room behind all others. -/
theorem stop_lt_of_newSlot (hpos : 0 < store.pageSize) (h : store.newSlot capacity = .ok (id, stop)) :
    store.stop < stop := by
  have hle := stop_le_of_newSlot hpos h
  have hsize := SlotHeader.sizeFor_pos capacity
  obtain ⟨-, rfl⟩ := newSlot_eq_ok_iff.1 h
  omega

theorem stop_le_of_insert (hpos : 0 < store.pageSize) (h : store.insert payload = .ok (id, store')) :
    store.stop ≤ id.offset := by
  unfold insert at h
  obtain ⟨capacity, -, h⟩ := eq_ok_of_bind h
  obtain ⟨⟨latest, stop⟩, hnew, h⟩ := eq_ok_of_bind h
  cases h
  exact stop_le_of_newSlot hpos hnew

/-- An update answers the identifier of a new slot behind all others, or one that the record has already. -/
theorem stop_le_or_mem_of_update (hpos : 0 < store.pageSize) (h : store.update target payload = .ok (id, store')) :
    store.stop ≤ id.offset ∨ id ∈ store.ids := by
  unfold update at h
  obtain ⟨⟨record, old⟩, hlive, h⟩ := eq_ok_of_bind h
  dsimp only at h
  split at h
  · cases h
    exact .inr (List.mem_flatMap.2 ⟨record, (live_eq_ok hlive).1, List.mem_cons_self⟩)
  · obtain ⟨capacity, -, h⟩ := eq_ok_of_bind h
    obtain ⟨⟨latest, stop⟩, hnew, h⟩ := eq_ok_of_bind h
    cases h
    exact .inl (stop_le_of_newSlot hpos hnew)

/-- Only an update answers an identifier that was given out before. -/
theorem stop_le_or_mem_of_written (hpos : 0 < store.pageSize)
    (h : event.written (store.respond event).1 = some id) :
    store.stop ≤ id.offset ∨ id ∈ store.ids ∧ ∃ target payload, event = .request (.update target payload) := by
  obtain ⟨hresult, ⟨payload, rfl⟩ | ⟨target, payload, rfl⟩⟩ := Event.written_eq_some h
  · unfold respond handle perform at hresult
    dsimp only at hresult
    cases hinsert : store.insert payload with
    | error e => simp [hinsert, bind, Except.bind] at hresult
    | ok answer =>
      obtain rfl : answer.1 = id := by simpa [hinsert, bind, Except.bind, pure, Except.pure] using hresult
      exact .inl (stop_le_of_insert hpos hinsert)
  · unfold respond handle perform at hresult
    dsimp only at hresult
    cases hupdate : store.update target payload with
    | error e => simp [hupdate, bind, Except.bind] at hresult
    | ok answer =>
      obtain rfl : answer.1 = id := by simpa [hupdate, bind, Except.bind, pure, Except.pure] using hresult
      rcases stop_le_or_mem_of_update hpos hupdate with hnew | hmem
      · exact .inl hnew
      · exact .inr ⟨hmem, target, payload, rfl⟩

end Store

namespace Session

variable {σ : Type} [PagedStorage σ] {contract : StorageContract σ} {session : Session σ} {layout : Layout}
  {store : Store} {events : List Event}

/-- After a run the slots are those from before it with new ones behind them. -/
theorem run_growsTo (husable : contract.Usable session.storage)
    (h : (session.seen contract.toStorageView).Serves layout store) (hfilled : layout.Filled store.pageSize)
    (hrecover : .recover ∉ events) (hreopened : ∀ policy options result,
      (.reopen policy options, result) ∈ events.zip (runAll (handle contract.reopen) events session).1 →
        result = .ok .done) :
    ∃ later last,
      contract.Usable (runAll (handle contract.reopen) events session).2.storage ∧
      ((runAll (handle contract.reopen) events session).2.seen contract.toStorageView).Serves later last ∧
      later.Filled last.pageSize ∧ layout.GrowsTo later ∧ last.pageSize = store.pageSize ∧
      ∀ id, id ∈ last.ids ↔ id ∈ store.ids ∨
        id ∈ handedOut events (runAll (handle contract.reopen) events session).1 := by
  -- sessions that could not be reopened are excluded, and any other event is a transition
  induction events generalizing session layout store with
  | nil => exact ⟨layout, store, husable, h, hfilled, .refl layout, rfl, fun id => by simp [runAll, handedOut]⟩
  | cons event rest ih =>
    have hensues := handle_ensues husable h event fun heq => absurd (heq ▸ List.mem_cons_self) hrecover
    rw [runAll_cons] at hreopened ⊢
    generalize (handle contract.reopen event session).1 = result at hensues hreopened ⊢
    generalize (handle contract.reopen event session).2 = session' at hensues hreopened ⊢
    cases hensues with
    | lost hevent =>
      rw [hevent] at hreopened
      cases hreopened _ _ _ List.mem_cons_self
    | @served _ _ layout' store' husable' hserves _ houtcome _ _ _ htransition =>
      have hfilled' : layout'.Filled store'.pageSize := by
        rw [htransition.pageSize_eq]
        exact htransition.filled hfilled
      obtain ⟨later, last, hlastUsable, hlast, hlastFilled, hgrows, hpageSize, hids⟩ := ih husable' hserves hfilled'
        (fun hmem => hrecover (List.mem_cons_of_mem _ hmem))
        fun policy options result hmem => hreopened policy options result (List.mem_cons_of_mem _ hmem)
      refine ⟨later, last, hlastUsable, hlast, hlastFilled, (htransition.growsTo h.keeps).trans hgrows,
        hpageSize.trans htransition.pageSize_eq, fun id => ?_⟩
      rw [hids, houtcome.mem_ids, mem_handedOut_cons, or_assoc]

/-- The identifier of a write stands for a slot behind all slots, or an update gives an old one. -/
private theorem stop_le_or_mem_of_handle (husable : contract.Usable session.storage)
    (h : (session.seen contract.toStorageView).Serves layout store) {event : Event} (hrecover : event ≠ .recover)
    {id : RecordId} (hwritten : event.written (handle contract.reopen event session).1 = some id) :
    store.stop ≤ id.offset ∨ id ∈ store.ids ∧ ∃ target payload, event = .request (.update target payload) := by
  have hensues := handle_ensues husable h event fun heq => absurd heq hrecover
  have hpos : 0 < store.pageSize := h.keeps.supported.pos
  generalize (handle contract.reopen event session).1 = result at hensues hwritten
  cases hensues with
  | lost => simp at hwritten
  | served _ _ _ houtcome =>
    rcases houtcome.respond_or_failed with hrespond | ⟨-, e, rfl, -⟩
    · exact Store.stop_le_or_mem_of_written hpos (by rwa [hrespond])
    · simp at hwritten

theorem Serves.paved {session : Session Image} (h : session.Serves layout store)
    (hfilled : layout.Filled store.pageSize) : layout.Paved session.storage session.counters.size := by
  rw [h.counters_eq]
  constructor
  · exact h.keeps.tracks
  · intro id _
    exact ⟨id.offset_mod, id.offset_lt⟩
  · intro id hid
    exact h.keeps.tracks.tiles.end_le_endOfPage hid
  · rw [h.keeps.pageSize_eq]
    exact hfilled

/-- Whatever calls fail in a run from a blank storage, the slots go from the file header to the end that the session
knows.  A run that goes on from there leaves them where they are and as large as they are, and puts new ones behind
them.  A write answers the identifier of a new slot, which is greater than all that were given out before; or an update
answers one of those. -/
theorem slots_stay_in_place {storage : σ} (husable : contract.Usable storage) (hblank : (contract.image storage).Blank)
    {policy : CapacityPolicy} {options : Options} (hopen : openOn storage policy options = .ok session)
    {done rest : List Event} (hrecover : .recover ∉ done ++ rest)
    (hreopened : ∀ policy options result, (.reopen policy options, result) ∈
      (done ++ rest).zip (runAll (handle contract.reopen) (done ++ rest) session).1 → result = .ok .done) :
    let early := runAll (handle contract.reopen) done session
    let last := runAll (handle contract.reopen) rest early.2
    ∃ layout later : Layout,
      layout.Paved (contract.image early.2.storage) early.2.counters.size ∧
      later.Paved (contract.image last.2.storage) last.2.counters.size ∧
      (∀ id, id ∈ layout.ids ↔ id ∈ later.ids ∧ id.offset < early.2.counters.size) ∧
      (∀ id ∈ layout.ids, (later.header id).capacity = (layout.header id).capacity) ∧
      (∀ id ∈ handedOut done early.1, id ∈ layout.ids) ∧
      ∀ event ∈ rest.head?, ∀ id, event.written (handle contract.reopen event early.2).1 = some id →
        (id ∉ layout.ids → ∀ earlier ∈ handedOut done early.1, earlier.offset < id.offset) ∧
        (id ∈ layout.ids → id ∈ handedOut done early.1 ∧
          ∃ target payload, event = .request (.update target payload)) := by
  obtain ⟨husable', hserves, -⟩ := (openOn_blank husable hblank policy options).of_eq_ok hopen
  rw [runAll_append] at hreopened
  simp only [List.zip_append (length_runAll _ done session).symm, List.mem_append] at hreopened hrecover
  rw [not_or] at hrecover
  have hempty : Layout.empty.Filled (contract.image storage).pageSize := fun id hid => absurd hid List.not_mem_nil
  obtain ⟨layout, store, hearlyUsable, hearly, hfilled, -, hpageSize, hids⟩ :=
    run_growsTo husable' hserves hempty hrecover.1 fun policy options result hmem =>
      hreopened policy options result (.inl hmem)
  obtain ⟨later, final, -, hlast, hlastFilled, hgrows, hlastPageSize, -⟩ :=
    run_growsTo hearlyUsable hearly hfilled hrecover.2 fun policy options result hmem =>
      hreopened policy options result (.inr hmem)
  intro early last
  have hstop : early.2.counters.size = store.stop := congrArg Counters.size hearly.counters_eq
  have hrep := hearly.keeps.represents
  have hhanded : ∀ id, id ∈ handedOut done early.1 ↔ id ∈ store.ids := by
    intro id
    rw [hids]
    exact (or_iff_right List.not_mem_nil).symm
  have hmem : ∀ id ∈ handedOut done early.1, id ∈ layout.ids := by
    intro id hid
    exact ((hrep.mem id).1 ((hhanded id).1 hid)).1
  have hsame : (contract.image last.2.storage).pageSize = (contract.image early.2.storage).pageSize :=
    hlast.keeps.pageSize_eq.trans (hlastPageSize.trans hearly.keeps.pageSize_eq.symm)
  refine ⟨layout, later, hearly.paved hfilled, hlast.paved hlastFilled, fun id => ?_, hgrows.capacity, hmem,
    fun event hevent id hwritten => ?_⟩
  · rw [hstop]
    exact hgrows.mem_iff hearly.keeps.tracks hsame hlast.keeps.tracks id
  · obtain ⟨tail, rfl⟩ : ∃ tail, rest = event :: tail := List.head?_eq_some_iff.1 hevent
    -- what an event writes lies behind all slots, or it is the slot of an update
    have hplace : store.stop ≤ id.offset ∨ id ∈ store.ids ∧
        ∃ target payload, event = .request (.update target payload) :=
      stop_le_or_mem_of_handle hearlyUsable hearly (fun heq => absurd (heq ▸ List.mem_cons_self) hrecover.2) hwritten
    constructor
    · intro hnew earlier hearlier
      rcases hplace with hbehind | ⟨hold, -⟩
      · exact Nat.lt_of_lt_of_le (hearly.keeps.tracks.offset_lt (hmem earlier hearlier)) hbehind
      · exact absurd ((hrep.mem id).1 hold).1 hnew
    · intro hold
      rcases hplace with hbehind | ⟨hid, hupdate⟩
      · exact absurd (hearly.keeps.tracks.offset_lt hold) (Nat.not_lt.2 hbehind)
      · exact ⟨(hhanded id).2 hid, hupdate⟩

/-- At the start of the second page. -/
def pageId : RecordId := ⟨32, by decide, by decide⟩

/-- A record that does not fit the rest of the first page. -/
def wideEvents : List Event := [.request (.insert ⟨Array.replicate 200 7⟩)]

private theorem run_wideEvents : (openOn failingMemory .exactDefault .default).toOption.map (fun session =>
    let early := runAll (handle (Unreliable.contract Memory.contract).reopen) retriedEvents session
    (early.1, (runAll (handle (Unreliable.contract Memory.contract).reopen) wideEvents early.2).1)) =
      some (retriedResults, [.ok (.id pageId)]) := by
  decide +kernel

theorem slots_stay_in_place_in_memory : ∃ session, openOn failingMemory .exactDefault .default = .ok session ∧
    let early := runAll (handle (Unreliable.contract Memory.contract).reopen) retriedEvents session
    let last := runAll (handle (Unreliable.contract Memory.contract).reopen) wideEvents early.2
    early.1 = retriedResults ∧ last.1 = [.ok (.id pageId)] ∧
    ∃ layout later : Layout,
      layout.Paved ((Unreliable.contract Memory.contract).image early.2.storage) early.2.counters.size ∧
      later.Paved ((Unreliable.contract Memory.contract).image last.2.storage) last.2.counters.size ∧
      firstId ∈ later.ids ∧ secondId ∈ later.ids ∧
      (later.header secondId).capacity = (layout.header secondId).capacity := by
  have hrun := run_wideEvents
  rcases hopen : openOn failingMemory .exactDefault .default with e | session
  · rw [hopen] at hrun
    cases hrun
  · rw [hopen] at hrun
    obtain ⟨hearly, hlast⟩ := Prod.mk.inj (Option.some.inj hrun)
    obtain ⟨layout, later, hlayout, hlater, hsame, hcapacity, hhanded, -⟩ :=
      slots_stay_in_place usable_failingMemory blank_failingMemory hopen
        (show Event.recover ∉ retriedEvents ++ wideEvents by simp [retriedEvents, wideEvents])
        fun policy options result hmem => by simpa [retriedEvents, wideEvents] using List.of_mem_zip hmem
    rw [hearly] at hhanded
    have hfirst : firstId ∈ layout.ids := hhanded firstId (by decide)
    have hsecond : secondId ∈ layout.ids := hhanded secondId (by decide)
    exact ⟨session, rfl, hearly, hlast, layout, later, hlayout, hlater, ((hsame firstId).1 hfirst).1,
      ((hsame secondId).1 hsecond).1, hcapacity secondId hsecond⟩

end Session

end RecordStore
