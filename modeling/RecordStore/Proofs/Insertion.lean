import RecordStore.Proofs.Lookup

/-!
# New records

A new slot goes where the store puts it, or the storage is full just when the store says so (`appendSlot_runs`).  An
insertion that fails has stored nothing.
-/

namespace RecordStore

open StorageView

namespace Store

variable {store : Store} {length desired capacity : Nat}

/-- A capacity that is given out is large enough and fits a page. -/
theorem capacityFor_eq_ok (h : store.capacityFor length desired = .ok capacity) :
    length ≤ capacity ∧ capacity ≤ store.pageSize - SlotHeader.fullSize := by
  unfold capacityFor at h
  split at h
  · cases h
  · simp only [Except.ok.injEq] at h
    have hmax : store.maxPayload ≤ store.pageSize - SlotHeader.fullSize := Nat.min_le_right _ _
    omega

/-- A new slot starts at its place, if that has an identifier. -/
theorem newSlot_eq_ok_iff {id : RecordId} {stop : Nat} :
    store.newSlot capacity = .ok (id, stop) ↔
      id.offset = store.place (SlotHeader.sizeFor SlotHeader.fullSize capacity) ∧
        stop = id.offset + SlotHeader.sizeFor SlotHeader.fullSize capacity := by
  constructor
  · intro h
    cases hid : RecordId.ofOffset? (store.place (SlotHeader.sizeFor SlotHeader.fullSize capacity)) with
    | none =>
      rw [newSlot_eq_error hid] at h
      cases h
    | some found =>
      rw [newSlot_eq_ok hid] at h
      cases h
      have hoffset := RecordId.offset_of_ofOffset? hid
      exact ⟨hoffset, by rw [hoffset]⟩
  · rintro ⟨hoffset, rfl⟩
    have hid := RecordId.ofOffset?_offset id
    rw [hoffset] at hid ⊢
    exact newSlot_eq_ok hid

/-- The store with a new record. -/
def inserted (store : Store) (id : RecordId) (capacity : Nat) (payload : ByteArray) (stop : Nat) : Store :=
  { store with records := { latest := id, former := [], capacity, payload := some payload } :: store.records, stop }

theorem counters_inserted (store : Store) (id : RecordId) (capacity : Nat) (payload : ByteArray) (stop : Nat) :
    (store.inserted id capacity payload stop).counters =
      { store.counters with
        size := stop
        allocated := store.counters.allocated + 1
        payload := store.counters.payload + payload.size
        capacity := store.counters.capacity + capacity } := by
  ext <;> simp [counters, inserted, StoredRecord.share, StoredRecord.ids, Nat.add_comm]

theorem offset_placement (store : Store) (size : Nat) :
    (Region.placement { pageSize := store.pageSize, stop := store.stop } size).offset = store.place size := by
  unfold Region.placement place Region.pageEnd
  dsimp only
  split_ifs <;> first | rfl | omega

theorem stop_le_place (store : Store) (hpos : 0 < store.pageSize) (size : Nat) : store.stop ≤ store.place size := by
  have hend := lt_endOfPage hpos store.stop
  unfold place
  unfold endOfPage at hend
  dsimp only
  split_ifs <;> omega

end Store

namespace Session

variable {σ : Type} [PagedStorage σ] {contract : StorageContract σ} {session : Session Image} {layout : Layout}
  {store : Store}

omit [PagedStorage σ] in
/-- A capacity that is given out is large enough and fits a page. -/
theorem capacityFor_eq_ok {session : Session σ} {length desired capacity : Nat}
    (h : session.capacityFor length desired = .ok capacity) :
    length ≤ capacity ∧ capacity ≤ session.pageSize - SlotHeader.fullSize := by
  unfold capacityFor at h
  split at h
  · cases h
  · simp only [Except.ok.injEq] at h
    have hmax : session.maxPayload ≤ session.pageSize - SlotHeader.fullSize := Nat.min_le_right _ _
    omega

/-- A slot appended where the store puts it. -/
theorem appendSlot_runs {img : Image} (hkeeps : img.Keeps layout store .opened) {desired capacity : Nat}
    {payload : ByteArray} (hcapacity : store.capacityFor payload.size desired = .ok capacity)
    {origin : Option RecordId} (horigin : ∀ id ∈ origin, id.offset < store.stop)
    {post : Except StoreError (RecordId × Nat) → Image → Prop}
    (hok : ∀ id stop base after, store.newSlot capacity = .ok (id, stop) →
      stop = id.offset + (SlotHeader.live capacity payload.size origin).slotSize →
      layout.Padded store.stop base id.offset → base.Tracks after id.offset →
      (base.push id { header := .live capacity payload.size origin, payload }).Tracks after stop →
      img.ChangedWithin after store.stop stop → post (.ok (id, stop)) after)
    (hrefused : ∀ e, store.newSlot capacity = .error e → post (.error e) img)
    (hio : contract.fallible → ∀ after cause, layout.Tracks after store.stop →
      img.ChangedWithin after store.stop (endOfPage img.pageSize store.stop) →
      (img.Spare store.stop → after.Spare store.stop) → post (.error (.io cause)) after) :
    contract.Runs (Region.append { pageSize := img.pageSize, stop := store.stop } (.live capacity payload.size origin)
      payload) img post := by
  refine contract.runs_of_wellFormed fun hwf => ?_
  obtain ⟨hle, hfit⟩ := Store.capacityFor_eq_ok hcapacity
  have hlarge := hkeeps.supported.large
  have hsmall := hkeeps.supported.fits
  have hsupported := hkeeps.supported
  have hplace := store.offset_placement (SlotHeader.live capacity payload.size origin).slotSize
  rw [← hkeeps.pageSize_eq] at hplace hsupported
  cases hid : RecordId.ofOffset? (store.place (SlotHeader.live capacity payload.size origin).slotSize) with
  | none =>
    -- the place is out of reach, and nothing is written
    have hnew := Store.newSlot_eq_error hid
    rw [← hplace] at hid
    refine (Region.append_answers_full hid).mono ?_
    rintro result _ ⟨rfl, rfl | ⟨hfallible, cause, rfl⟩⟩
    · rw [hplace]
      exact hrefused _ hnew
    · exact hio hfallible _ cause hkeeps.tracks (.refl ..) fun hspare => hspare
  | some id =>
    have hoffset := RecordId.offset_of_ofOffset? hid
    have hnew := Store.newSlot_eq_ok hid
    change _ = Except.ok (id, store.place (SlotHeader.live capacity payload.size origin).slotSize + _) at hnew
    rw [← hoffset] at hnew
    rw [← hplace] at hid
    have hsize : (SlotHeader.live capacity payload.size origin).slotSize ≤ img.pageSize := by
      rw [hkeeps.pageSize_eq]
      refine alignUp_le ?_ hkeeps.supported.aligned
      unfold minPageSize at hlarge
      change SlotHeader.fullSize + capacity ≤ store.pageSize
      unfold SlotHeader.fullSize at *
      omega
    have hbehind : store.stop ≤ id.offset := by
      rw [hoffset]
      exact store.stop_le_place hkeeps.supported.pos _
    have hvalid : (Slot.mk (.live capacity payload.size origin) payload).Valid id.offset := by
      refine ⟨⟨by omega, by omega, fun first hfirst => ?_⟩, rfl⟩
      exact Nat.lt_of_lt_of_le (horigin first hfirst) hbehind
    exact Region.append_runs hwf hsupported hkeeps.tracks hid hvalid hsize
      (fun base after => hok id _ base after hnew rfl) hio

/-- An append that was cut off has not changed what the session serves. -/
theorem advances_of_cut_off {scope : Scope} (h : session.Serves layout store) (hstart : scope.start = FileHeader.size)
    (happends : scope.appends) {after : Image} (htracks : layout.Tracks after store.stop) {stop' : Nat}
    (hchanged : session.storage.ChangedWithin after store.stop stop')
    (htrail : session.storage.Spare store.stop → after.Spare store.stop ∨
      ∃ reach, scope.leaves reach ∧ after.Trail store.stop reach) (hfallible : contract.fallible) :
    Advances contract.fallible scope session { session with storage := after } layout layout store store := by
  have hlow := h.keeps.tracks.size_le_stop
  have hhead : ∀ i < FileHeader.size, after.byte i = session.storage.byte i :=
    fun i hi => hchanged.byte i (.inl (by omega))
  have hkeeps : after.Keeps layout store .opened :=
    h.keeps.advance hchanged.pageSize rfl hhead htracks h.keeps.represents fun _ hboundary => hboundary
  have hworn : session.storage.Clean layout store → layout.Tail after store.stop := by
    intro hclean
    rcases htrail hclean.blank.spare with hspare | ⟨reach, -, htrail⟩
    · exact (show after.Trail store.stop 0 from .spare hspare).tail htracks
    · exact htrail.tail htracks
  exact ⟨⟨h.opened, h.policy, h.pageSize, h.header, hkeeps⟩, rfl, rfl, fun _ hreliable => absurd hfallible hreliable,
    fun hclean => ⟨fun record hrecord => (hclean.tidy record hrecord).loose, hworn hclean⟩,
    fun i hi => hhead i (hstart ▸ hi), .of_cut_off happends htrail,
    fun hclean record hrecord _ => hclean.tidy record hrecord, fun _ h => h, .same store.policy,
    fun _ => .inr ⟨happends, hfallible, rfl⟩⟩

/-- A record that was appended is a record of the store. -/
private theorem advances_of_inserted (h : session.Serves layout store) {after : Image} {base : Layout} {id : RecordId}
    {capacity stop : Nat} {payload : ByteArray} {counters : Counters}
    (hpadded : layout.Padded store.stop base id.offset) (hnew : store.newSlot capacity = .ok (id, stop))
    (hbase : base.Tracks after id.offset)
    (htracks : (base.push id { header := .live capacity payload.size none, payload }).Tracks after stop)
    (hstop : stop = id.offset + (SlotHeader.live capacity payload.size none).slotSize)
    (hchanged : session.storage.ChangedWithin after store.stop stop)
    (hcounters : (store.inserted id capacity payload stop).counters = counters) :
    Advances contract.fallible .insertion session
      { session with storage := after, header := { session.header with counters } } layout
      (base.push id { header := .live capacity payload.size none, payload }) store
      (store.inserted id capacity payload stop) := by
  have hlow := h.keeps.tracks.size_le_stop
  have hfresh : id ∉ base.ids := fun hmem => absurd (hbase.offset_lt hmem) (Nat.lt_irrefl _)
  have hbehind := hpadded.stop_le
  have hend : store.stop + SlotHeader.paddingSize ≤ stop := by
    have hsize := SlotHeader.paddingSize_le_slotSize (.live capacity payload.size none)
    omega
  have hboundary : ∀ at', layout.Boundary store.stop at' →
      (base.push id { header := .live capacity payload.size none, payload }).Boundary stop at' :=
    fun _ hboundary => (hpadded.boundary hboundary).push rfl
  have hkeeps : after.Keeps (base.push id { header := .live capacity payload.size none, payload })
      (store.inserted id capacity payload stop) .opened :=
    h.keeps.advance hchanged.pageSize rfl (fun i hi => hchanged.byte i (.inl (by omega))) htracks
      ((hpadded.represents h.keeps.tracks h.keeps.represents).insert hfresh) hboundary
  -- the new record has one slot, and no redirects
  have hclean : session.storage.Clean layout store →
      after.Clean (base.push id { header := .live capacity payload.size none, payload })
        (store.inserted id capacity payload stop) := by
    refine fun hclean => ⟨fun record hrecord => ?_, hchanged.blankFrom hclean.blank (by omega)⟩
    rcases List.mem_cons.1 hrecord with rfl | hrecord
    · exact fun _ hid => nomatch hid
    · refine (hclean.tidy record hrecord).congr fun other hother => ?_
      have hmem := h.keeps.represents.mem_ids hrecord (List.mem_cons_of_mem _ hother)
      rw [Layout.header, hpadded.slot_push_eq h.keeps.tracks hbehind hmem, Layout.header]
  exact ⟨⟨h.opened, h.policy, h.pageSize, by rw [h.header, ← hcounters]; rfl, hkeeps⟩, rfl, rfl,
    fun hclean' _ => hclean hclean', fun hclean' => (hclean hclean').worn htracks,
    fun i hi => hchanged.byte i (.inl (Nat.lt_of_lt_of_le hi hlow)),
    .of_append trivial (hchanged.mono hlow (Nat.le_refl _)) hend,
    fun hclean' record hrecord _ => (hclean hclean').tidy record hrecord, hboundary, .inserted hpadded hnew,
    fun hblank => .inl (hchanged.blankFrom hblank (by omega))⟩

theorem insert_performs (h : session.Serves layout store) (payload : ByteArray) :
    Performs contract.toStorageView (insert payload) session
      (Follows contract.toStorageView (fun _ => .insertion) session layout store (store.insert payload)) := by
  unfold insert
  refine Performs.step (Performs.ensureOpen h.opened ?_)
  refine Performs.get_bind fun actual hactual => ?_
  rw [h.region_seen hactual, h.counters_seen hactual, h.policy_seen hactual, h.capacityFor_seen hactual]
  refine Performs.step (Performs.ofExcept ?_)
  cases hcapacity : store.capacityFor payload.size (store.policy.initial payload.size) with
  | error e =>
    refine Follows.unchanged h ?_
    unfold Store.insert
    rw [hcapacity]
    exact .refused
  | ok capacity =>
    refine Performs.step (Performs.onSlots (appendSlot_runs h.keeps hcapacity (by simp) ?_ ?_ ?_))
    · intro id stop base after hnew hstop hpadded hbase htracks hchanged
      refine Performs.step (Performs.setCounters (Performs.pure ?_))
      have hinsert : store.insert payload = .ok (id, store.inserted id capacity payload stop) := by
        unfold Store.insert
        rw [hcapacity]
        change (store.newSlot capacity >>= _) = _
        rw [hnew]
        rfl
      refine ⟨_, store.inserted id capacity payload stop,
        advances_of_inserted h hpadded hnew hbase htracks hstop hchanged ?_, ?_⟩
      · exact Store.counters_inserted ..
      · rw [hinsert]
        exact .done
    · intro e hnew
      refine Follows.unchanged h ?_
      unfold Store.insert
      rw [hcapacity]
      change Outcome _ _ (store.newSlot capacity >>= _) _ _
      rw [hnew]
      exact .refused
    · intro hfallible after cause htracks hchanged hspare
      exact ⟨layout, store, advances_of_cut_off h rfl trivial htracks hchanged (fun h => .inl (hspare h)) hfallible,
        .failed (.io hfallible cause)⟩

end Session

end RecordStore
