import RecordStore.Proofs.SlotPlaces

/-!
# When a record is stored, and where

What decides about a new slot is the `Frontier` of a session: the size of its pages, the end of its last slot and the
longest payload.  A payload that is not too long gets the capacity that the policy wants for it, as far as the payload
and the page allow (`Frontier.reserved`), and its slot starts where the last one ends, or on the next page if the rest
of that page is too small (`Frontier.start`); there is room for it if that start has an identifier
(`Frontier.HasRoom`).  Without failing calls nothing else decides whether a write succeeds, and a new slot stands where
it should, with padding in front of it that fills the gap and nothing else (`writes_succeed_where_there_is_room`).
-/

namespace RecordStore

/-! ### Room for a slot -/

/-- What decides whether a payload can be stored in a new slot, and where. -/
structure Frontier where
  pageSize : Nat
  /-- Where the last slot ends. -/
  stop : Nat
  maxPayload : Nat
deriving DecidableEq

namespace Frontier

variable {frontier : Frontier}

/-- The capacity of a new slot for a payload of `length` bytes for which the policy wants `desired`. -/
def reserved (frontier : Frontier) (length desired : Nat) : Nat := max length (min desired frontier.maxPayload)

/-- Bytes of that slot, its header included. -/
def slotSize (frontier : Frontier) (length desired : Nat) : Nat :=
  SlotHeader.sizeFor SlotHeader.fullSize (frontier.reserved length desired)

/-- Where a new slot of `size` bytes starts: at the end of the last one if it fits the rest of that page, and otherwise
at the start of the next page. -/
def start (frontier : Frontier) (size : Nat) : Nat :=
  if frontier.stop + size ≤ endOfPage frontier.pageSize frontier.stop then frontier.stop
  else endOfPage frontier.pageSize frontier.stop

/-- The payload is not too long, and the slot for it starts where an identifier can name it. -/
def HasRoom (frontier : Frontier) (length desired : Nat) : Prop :=
  length ≤ frontier.maxPayload ∧ frontier.start (frontier.slotSize length desired) < 2 ^ 35

instance (frontier : Frontier) (length desired : Nat) : Decidable (frontier.HasRoom length desired) :=
  inferInstanceAs (Decidable (_ ∧ _))

theorem le_reserved (frontier : Frontier) (length desired : Nat) : length ≤ frontier.reserved length desired :=
  Nat.le_max_left ..

theorem reserved_le {length : Nat} (h : length ≤ frontier.maxPayload) (desired : Nat) :
    frontier.reserved length desired ≤ frontier.maxPayload :=
  Nat.max_le.2 ⟨h, Nat.min_le_right ..⟩

end Frontier

namespace Store

variable {store store' : Store} {length desired capacity stop : Nat} {id : RecordId}

def frontier (store : Store) : Frontier :=
  { pageSize := store.pageSize, stop := store.stop, maxPayload := store.maxPayload }

theorem place_eq (store : Store) (size : Nat) : store.place size = store.frontier.start size := rfl

theorem capacityFor_eq (store : Store) (length desired : Nat) : store.capacityFor length desired =
    if store.maxPayload < length then .error (.capacity length store.maxPayload)
    else .ok (store.frontier.reserved length desired) := rfl

/-- A new slot for a payload, or the reason why there is none. -/
def slotFor (store : Store) (length desired : Nat) : Except StoreError (Nat × RecordId × Nat) := do
  let capacity ← store.capacityFor length desired
  let (id, stop) ← store.newSlot capacity
  return (capacity, id, stop)

theorem start_mod (hpages : store.pageSize % alignment = 0) (hstop : store.stop % alignment = 0) (size : Nat) :
    store.frontier.start size % alignment = 0 := by
  unfold Frontier.start
  split
  · exact hstop
  · exact Region.endOfPage_mod hpages store.stop

theorem stop_le_start (hpos : 0 < store.pageSize) (size : Nat) : store.stop ≤ store.frontier.start size :=
  store.stop_le_place hpos size

theorem slotFor_eq_ok_iff : store.slotFor length desired = .ok (capacity, id, stop) ↔
    length ≤ store.maxPayload ∧ capacity = store.frontier.reserved length desired ∧
      id.offset = store.frontier.start (store.frontier.slotSize length desired) ∧
      stop = id.offset + store.frontier.slotSize length desired := by
  unfold slotFor
  rw [capacityFor_eq]
  by_cases hlong : store.maxPayload < length
  · rw [if_pos hlong]
    exact iff_of_false nofun fun h => Nat.not_le.2 hlong h.1
  rw [if_neg hlong, and_iff_right (Nat.not_lt.1 hlong), ← place_eq]
  constructor
  · intro h
    obtain ⟨⟨found, last⟩, hnew, h⟩ := eq_ok_of_bind (x := store.newSlot _) h
    cases h
    exact ⟨rfl, newSlot_eq_ok_iff.1 hnew⟩
  · rintro ⟨rfl, hnew⟩
    have hnew := newSlot_eq_ok_iff.2 hnew
    simp only [bind, Except.bind, hnew]
    rfl

/-- There is a new slot for a payload where there is room for it. -/
theorem exists_slotFor_iff (hpages : SupportedPageSize store.pageSize) (hmod : store.stop % alignment = 0)
    (hpos : 0 < store.stop) : (∃ found, store.slotFor length desired = .ok found) ↔
      store.frontier.HasRoom length desired := by
  constructor
  · rintro ⟨⟨capacity, id, stop⟩, h⟩
    obtain ⟨hlength, -, hoffset, -⟩ := slotFor_eq_ok_iff.1 h
    exact ⟨hlength, hoffset ▸ id.offset_lt⟩
  · rintro ⟨hlength, hreach⟩
    have hle := stop_le_start hpages.pos (store.frontier.slotSize length desired)
    obtain ⟨id, hid⟩ := RecordId.exists_offset (Nat.lt_of_lt_of_le hpos hle) hreach
      (start_mod hpages.aligned hmod _)
    exact ⟨_, slotFor_eq_ok_iff.2 ⟨hlength, rfl, hid, rfl⟩⟩

/-- The end of the slots tells which slot was appended. -/
theorem newSlot_inj {capacity' : Nat} {id' : RecordId} (h : store.newSlot capacity = .ok (id, stop))
    (h' : store.newSlot capacity' = .ok (id', stop)) : id' = id := by
  obtain ⟨hid, hstop⟩ := newSlot_eq_ok_iff.1 h
  obtain ⟨hid', hstop'⟩ := newSlot_eq_ok_iff.1 h'
  have hpos := SlotHeader.sizeFor_pos capacity
  have hpos' := SlotHeader.sizeFor_pos capacity'
  unfold place at hid hid'
  dsimp only at hid hid'
  apply RecordId.offset_inj
  split_ifs at hid hid' <;> omega

theorem insert_eq (store : Store) (payload : ByteArray) : store.insert payload =
    (store.slotFor payload.size (store.policy.initial payload.size)).map fun (capacity, id, stop) =>
      (id, store.inserted id capacity payload stop) := by
  unfold insert slotFor
  cases store.capacityFor payload.size (store.policy.initial payload.size) with
  | error e => rfl
  | ok capacity =>
    simp only [bind, Except.bind]
    cases store.newSlot capacity <;> rfl

/-- The store with the record of `target` moved to a new slot. -/
def relocated (store : Store) (target id : RecordId) (capacity : Nat) (payload : ByteArray) (stop : Nat) : Store :=
  { store.change target (·.moved id capacity payload) with stop }

theorem update_eq {target : RecordId} {record : StoredRecord} {old payload : ByteArray}
    (hlive : store.live target = .ok (record, old)) (hlong : record.capacity < payload.size) :
    store.update target payload =
      (store.slotFor payload.size (store.policy.relocated payload.size record.capacity)).map fun (capacity, id, stop) =>
        (id, store.relocated target id capacity payload stop) := by
  rw [update_of_lt hlive hlong]
  unfold slotFor
  cases store.capacityFor payload.size (store.policy.relocated payload.size record.capacity) with
  | error e => rfl
  | ok capacity =>
    simp only [bind, Except.bind]
    cases store.newSlot capacity <;> rfl

theorem respond_insert (store : Store) (payload : ByteArray) :
    store.respond (.request (.insert payload)) =
      match store.insert payload with
      | .ok (id, store') => (.ok (.id id), store')
      | .error e => (.error e, store) := by
  unfold respond handle perform
  dsimp only
  rcases store.insert payload with e | ⟨id, store'⟩ <;> rfl

end Store

/-! ### Layouts with one more slot -/

namespace Layout

variable {fallible : Prop} {layout layout' later base : Layout} {store store' : Store} {img img' : Image}
  {id : RecordId} {stop stop' : Nat}

/-- `later` has the slots of `layout`, which end at `stop`, and behind them the slot `id`; if that one does not follow
right away, one slot of padding fills the gap exactly. -/
inductive Gains (layout later : Layout) (stop : Nat) (id : RecordId) : Prop
  | adjoining (hid : id.offset = stop) (hids : later.ids = layout.ids ++ [id])
  | padded {gap : RecordId} {capacity : Nat} (hgap : gap.offset = stop) (hheader : later.header gap = .padding capacity)
      (hfilled : gap.offset + later.size gap = id.offset) (hids : later.ids = layout.ids ++ [gap, id])

theorem Shortened.ids_eq {record : StoredRecord} {committed : Layout}
    (h : Shortened fallible layout record id committed layout') : layout'.ids = committed.ids := by
  cases h with
  | unmoved => rfl
  | kept => rfl
  | shortened => rw [ids_overwrite, ids_set]

/-- Where the end of the slots has moved, one slot was appended. -/
theorem Transition.appended (h : layout.Transition fallible store layout' store') (hstop : store.stop ≠ store'.stop) :
    ∃ base id capacity, layout.Padded store.stop base id.offset ∧ store.newSlot capacity = .ok (id, store'.stop) ∧
      layout'.ids = base.ids ++ [id] := by
  cases h with
  | same | overwritten | deleted => exact absurd rfl hstop
  | inserted hpadded hnew => exact ⟨_, _, _, hpadded, hnew, rfl⟩
  | moved hrecords hlive hpadded hnew hshortened =>
    exact ⟨_, _, _, hpadded, hnew, by rw [hshortened.ids_eq]; rfl⟩

/-- A gap in front of a new slot is filled by padding. -/
theorem Padded.gains (h : layout.Padded stop base id.offset) (hids : later.ids = base.ids ++ [id])
    (htracks : layout.Tracks img stop) (htracks' : later.Tracks img' stop')
    (hpadding : ∀ gap ∈ later.ids, gap ∉ layout.ids → gap ≠ id → (later.header gap).state = .padding) :
    layout.Gains later stop id := by
  generalize hplace : id.offset = place at h
  cases h with
  | whole => exact .adjoining hplace hids
  | @gap gap capacity hgap =>
    have hids' : later.ids = layout.ids ++ [gap, id] := by rw [hids, ids_push, List.append_assoc]; rfl
    have hold : gap ∉ layout.ids := fun hmem => Nat.lt_irrefl _ (hgap ▸ htracks.offset_lt hmem)
    have hne : gap ≠ id := by
      rintro rfl
      have hpos := (SlotHeader.padding capacity).slotSize_pos
      omega
    have hstate := hpadding gap (by simp [hids']) hold hne
    obtain ⟨filled, hheader⟩ : ∃ capacity, later.header gap = .padding capacity := by
      cases hheader : later.header gap with
      | padding capacity => exact ⟨capacity, rfl⟩
      | live | moved | deleted =>
        rw [hheader] at hstate
        cases hstate
    -- the slots are tiled without a gap, so the padding ends where the new slot starts
    have htiles := htracks'.tiles
    rw [hids'] at htiles
    obtain ⟨mid, -, hmid, -, hstart, -⟩ := Tiles.append_iff.1 htiles
    rw [← hmid] at hstart
    exact .padded hgap hheader hstart.symm hids'

end Layout

/-! ### Sessions -/

namespace Session

variable {σ : Type} [PagedStorage σ] {contract : StorageContract σ} {session : Session σ} {layout : Layout}
  {store : Store} {event : Event} {events : List Event}

omit [PagedStorage σ] in
/-- What decides about the next slot of the session. -/
def frontier (session : Session σ) : Frontier :=
  { pageSize := session.pageSize, stop := session.counters.size, maxPayload := session.maxPayload }

/-- A session that no failed call lies behind, and the slots of its storage. -/
structure Neat (contract : StorageContract σ) (session : Session σ) (layout : Layout) (store : Store) : Prop where
  usable : contract.Usable session.storage
  hops : 2 ≤ session.maxHops
  serves : (session.seen contract.toStorageView).Serves layout store
  clean : (contract.image session.storage).Clean layout store
  filled : layout.Filled store.pageSize

/-- A record of `length` bytes, for which the policy wants `desired`, was stored in the new slot `id`: its capacity is
between the payload and what policy and page allow, and the slot starts where it should, with nothing but padding
between it and the slots of `layout`. -/
structure StoredAnew (contract : StorageContract σ) (now after : Session σ) (layout : Layout) (length desired : Nat)
    (origin : Option RecordId) (id : RecordId) : Prop where
  start : id.offset = now.frontier.start (now.frontier.slotSize length desired)
  stop : after.counters.size = id.offset + now.frontier.slotSize length desired
  fits : length ≤ now.frontier.reserved length desired
  bounded : now.frontier.reserved length desired ≤ min now.policy.limit (now.pageSize - SlotHeader.fullSize)
  slots : ∃ later : Layout, later.Paved (contract.image after.storage) after.counters.size ∧
    layout.Gains later now.counters.size id ∧
    later.header id = .live (now.frontier.reserved length desired) length origin

omit [PagedStorage σ] in
theorem Serves.frontier_eq {view : StorageView σ} (h : (session.seen view).Serves layout store) :
    session.frontier = store.frontier := by
  have hpageSize : store.pageSize = session.pageSize := h.pageSize
  have hpolicy : store.policy = session.policy := h.policy
  have hstop : session.counters.size = store.stop := congrArg Counters.size h.counters_eq
  unfold frontier Store.frontier maxPayload Store.maxPayload
  rw [hpageSize, hpolicy, hstop]

namespace Neat

theorem of_openOn (hreliable : ¬contract.fallible) {storage : σ} (husable : contract.Usable storage)
    (hblank : (contract.image storage).Blank) (policy : CapacityPolicy) {options : Options}
    (hhops : 2 ≤ options.maxHops) :
    ∃ session, openOn storage policy options = .ok session ∧
      Neat contract session .empty (.empty (contract.image storage).pageSize policy) := by
  obtain ⟨session, hopen, husable', hhops', hserves, hclean⟩ :=
    exists_opened hreliable husable hblank policy hhops
  exact ⟨session, hopen, husable', hhops', hserves, hclean, fun id hid => absurd hid List.not_mem_nil⟩

variable (h : Neat contract session layout store)

include h

/-- One event is answered as by the store, and the session goes on with the slots that come of it. -/
theorem step (hreliable : ¬contract.fallible) (hevent : event.Allows 2) :
    (handle contract.reopen event session).1 = (store.respond event).1 ∧ ∃ layout',
      Neat contract (handle contract.reopen event session).2 layout' (store.respond event).2 ∧
      layout.Transition contract.fallible store layout' (store.respond event).2 := by
  obtain ⟨hresult, layout', husable, hhops, hserves, hclean, htransition⟩ :=
    handle_responds hreliable h.usable h.hops h.serves h.clean hevent
  refine ⟨hresult, layout', ⟨husable, hhops, hserves, hclean, ?_⟩, htransition⟩
  rw [htransition.pageSize_eq]
  exact htransition.filled h.filled

theorem request (hreliable : ¬contract.fallible) (request : Request) :
    (perform request session).1 = (store.respond (.request request)).1 ∧ ∃ layout',
      Neat contract (perform request session).2 layout' (store.respond (.request request)).2 ∧
      layout.Transition contract.fallible store layout' (store.respond (.request request)).2 :=
  h.step hreliable (show Event.Allows (.request request) 2 from trivial)

theorem run (hreliable : ¬contract.fallible) (hevents : ∀ event ∈ events, event.Allows 2) :
    ∃ layout', Neat contract (runAll (handle contract.reopen) events session).2 layout'
      (runAll Store.respond events store).2 := by
  induction events generalizing session layout store with
  | nil => exact ⟨layout, h⟩
  | cons event rest ih =>
    obtain ⟨-, layout', hnext, -⟩ := h.step hreliable (hevents event List.mem_cons_self)
    exact ih hnext fun event hevent => hevents event (List.mem_cons_of_mem _ hevent)

theorem paved : layout.Paved (contract.image session.storage) session.counters.size := h.serves.paved h.filled

theorem exists_slotFor_iff {length desired : Nat} :
    (∃ found, store.slotFor length desired = .ok found) ↔ session.frontier.HasRoom length desired := by
  have htracks := h.serves.keeps.tracks
  rw [h.serves.frontier_eq]
  exact Store.exists_slotFor_iff h.serves.keeps.supported htracks.stop_mod
    (Nat.lt_of_lt_of_le (by decide) htracks.size_le_stop)

/-- A write that takes a new slot. -/
theorem stored (hreliable : ¬contract.fallible) {request : Request} {store' : Store} {length desired capacity : Nat}
    {id : RecordId} {stop : Nat} (hslot : store.slotFor length desired = .ok (capacity, id, stop))
    (hrespond : store.respond (.request request) = (.ok (.id id), store')) (hstop : store'.stop = stop)
    {record : StoredRecord} (hrecord : record ∈ store'.records) (hlatest : record.latest = id)
    (hcapacity : record.capacity = capacity) {payload : ByteArray} (hpayload : record.payload = some payload)
    (hlength : payload.size = length) :
    StoredAnew contract session (perform request session).2 layout length desired record.former.getLast? id := by
  obtain ⟨-, later, hlater, htransition⟩ := h.request hreliable request
  have hwritten := store.mem_ids_respond (.request request)
  rw [hrespond] at hlater htransition hwritten
  have hkeeps := hlater.serves.keeps
  have hend : (perform request session).2.counters.size = store'.stop :=
    congrArg Counters.size hlater.serves.counters_eq
  obtain ⟨hle, rfl, hid, rfl⟩ := Store.slotFor_eq_ok_iff.1 hslot
  have hnew : store.newSlot (store.frontier.reserved length desired) = .ok (id, store'.stop) :=
    Store.newSlot_eq_ok_iff.2 ⟨hid, hstop⟩
  have hgrown : store.stop ≠ store'.stop :=
    Nat.ne_of_lt (Store.stop_lt_of_newSlot h.serves.keeps.supported.pos hnew)
  obtain ⟨base, id', capacity', hpadded, hnew', hids⟩ := htransition.appended hgrown
  obtain rfl := Store.newSlot_inj hnew hnew'
  -- a slot that no record has is padding
  have hpadding : ∀ gap ∈ later.ids, gap ∉ layout.ids → gap ≠ id' → (later.header gap).state = .padding := by
    intro gap hgap hold hne
    by_contra hstate
    rcases (hwritten gap).1 ((hkeeps.represents.mem gap).2 ⟨hgap, hstate⟩) with hmem | hanswer
    · exact hold ((h.serves.keeps.represents.mem gap).1 hmem).1
    · cases (Event.written_eq_some hanswer).1
      exact hne rfl
  have hheader := (hkeeps.represents.stores record hrecord).header_latest hpayload
  rw [hlatest, hcapacity, hlength] at hheader
  have hbounded : store.frontier.reserved length desired ≤ store.maxPayload := Frontier.reserved_le hle desired
  rw [← h.serves.frontier_eq] at hid hstop hheader hbounded
  refine ⟨hid, hend.trans hstop, Frontier.le_reserved .., ?_, later, hlater.paved, ?_, hheader⟩
  · exact hbounded.trans_eq (congrArg Frontier.maxPayload h.serves.frontier_eq).symm
  · rw [show session.counters.size = store.stop from congrArg Frontier.stop h.serves.frontier_eq]
    exact hpadded.gains hids h.serves.keeps.tracks hkeeps.tracks hpadding

/-- A record is inserted where there is room for it, and there alone. -/
theorem insert (hreliable : ¬contract.fallible) (payload : ByteArray) :
    ((∃ id, (perform (.insert payload) session).1 = .ok (.id id)) ↔
      session.frontier.HasRoom payload.size (session.policy.initial payload.size)) ∧
    ∀ id, (perform (.insert payload) session).1 = .ok (.id id) →
      StoredAnew contract session (perform (.insert payload) session).2 layout payload.size
        (session.policy.initial payload.size) none id := by
  have hpolicy : store.policy = session.policy := h.serves.policy
  have hresult := (h.request hreliable (.insert payload)).1
  have hrespond := store.respond_insert payload
  rw [Store.insert_eq, hpolicy] at hrespond
  rw [← h.exists_slotFor_iff, hresult]
  cases hslot : store.slotFor payload.size (session.policy.initial payload.size) with
  | error e =>
    rw [hslot] at hrespond
    rw [hrespond]
    exact ⟨iff_of_false nofun nofun, nofun⟩
  | ok found =>
    obtain ⟨capacity, id, stop⟩ := found
    rw [hslot] at hrespond
    rw [hrespond]
    refine ⟨iff_of_true ⟨id, rfl⟩ ⟨_, rfl⟩, ?_⟩
    rintro _ ⟨⟩
    exact h.stored hreliable hslot hrespond rfl List.mem_cons_self rfl rfl rfl rfl

/-- A record is updated where the payload fits its slot, and else moved where there is room for it. -/
theorem update (hreliable : ¬contract.fallible) {id : RecordId} {record : StoredRecord} {old : ByteArray}
    (hlive : store.live id = .ok (record, old)) (payload : ByteArray) :
    ((∃ latest, (perform (.update id payload) session).1 = .ok (.id latest)) ↔ payload.size ≤ record.capacity ∨
      session.frontier.HasRoom payload.size (session.policy.relocated payload.size record.capacity)) ∧
    (payload.size ≤ record.capacity → (perform (.update id payload) session).1 = .ok (.id record.latest)) ∧
    (record.capacity < payload.size → ∀ latest, (perform (.update id payload) session).1 = .ok (.id latest) →
      StoredAnew contract session (perform (.update id payload) session).2 layout payload.size
        (session.policy.relocated payload.size record.capacity) (some (record.former.getLast?.getD record.latest))
        latest) := by
  have hpolicy : store.policy = session.policy := h.serves.policy
  have hresult := (h.request hreliable (.update id payload)).1
  have hrespond := store.respond_update id payload
  rw [hresult]
  by_cases hfits : payload.size ≤ record.capacity
  · rw [Store.update_of_le hlive hfits] at hrespond
    rw [hrespond]
    exact ⟨iff_of_true ⟨_, rfl⟩ (.inl hfits), fun _ => rfl, fun hlong => absurd hfits (Nat.not_le.2 hlong)⟩
  · rw [Store.update_eq hlive (Nat.lt_of_not_le hfits), hpolicy] at hrespond
    rw [or_iff_right hfits, ← h.exists_slotFor_iff]
    cases hslot : store.slotFor payload.size (session.policy.relocated payload.size record.capacity) with
    | error e =>
      rw [hslot] at hrespond
      rw [hrespond]
      exact ⟨iff_of_false nofun nofun, fun h => absurd h hfits, fun _ => nofun⟩
    | ok found =>
      obtain ⟨capacity, latest, stop⟩ := found
      rw [hslot] at hrespond
      rw [hrespond]
      refine ⟨iff_of_true ⟨latest, rfl⟩ ⟨_, rfl⟩, fun h => absurd h hfits, fun _ => ?_⟩
      rintro _ ⟨⟩
      obtain ⟨hrecord, hid, -⟩ := Store.live_eq_ok hlive
      have hmoved : record.moved latest capacity payload ∈
          (store.relocated id latest capacity payload stop).records := List.mem_map.2 ⟨record, hrecord, if_pos hid⟩
      -- the first slot of a record stays the origin of its latest one
      have hfirst : (record.moved latest capacity payload).former.getLast? =
          some (record.former.getLast?.getD record.latest) := List.getLast?_cons
      have hstored := h.stored hreliable hslot hrespond rfl hmoved rfl rfl rfl rfl
      rwa [hfirst] at hstored

/-- What an identifier resolves to. -/
theorem exists_live (hreliable : ¬contract.fallible) {id latest : RecordId}
    (hresolve : (perform (.resolve id) session).1 = .ok (.id latest)) :
    ∃ record old, store.live id = .ok (record, old) ∧ record.latest = latest ∧ latest ∈ layout.ids ∧
      layout.header latest = .live record.capacity old.size record.former.getLast? := by
  rw [(h.request hreliable (.resolve id)).1] at hresolve
  unfold Store.respond Store.handle Store.perform at hresolve
  dsimp only at hresolve
  cases hlive : store.live id with
  | error e =>
    rw [hlive] at hresolve
    cases hresolve
  | ok found =>
    obtain ⟨record, old⟩ := found
    rw [hlive] at hresolve
    cases hresolve
    obtain ⟨hrecord, -, hpayload⟩ := Store.live_eq_ok hlive
    have hrep := h.serves.keeps.represents
    exact ⟨record, old, rfl, rfl, hrep.mem_ids hrecord List.mem_cons_self,
      (hrep.stores record hrecord).header_latest hpayload⟩

end Neat

/-- Without failing calls, whatever the policies want, a record is inserted exactly where its payload is not too long
and its slot starts where an identifier can name it.  A record that is there is updated exactly where the payload fits
its slot, which it then keeps, or where the same holds of a new slot.  A new slot is as large as the policy wants, as
far as payload, policy and page allow, and starts at the end of the others or on the next page, with padding in
between. -/
theorem writes_succeed_where_there_is_room (hreliable : ¬contract.fallible) {storage : σ}
    (husable : contract.Usable storage) (hblank : (contract.image storage).Blank) (policy : CapacityPolicy)
    {options : Options} (hhops : 2 ≤ options.maxHops) {events : List Event}
    (hevents : ∀ event ∈ events, event.Allows 2) :
    ∃ session, openOn storage policy options = .ok session ∧
      let now := (runAll (handle contract.reopen) events session).2
      ∃ layout : Layout, layout.Paved (contract.image now.storage) now.counters.size ∧
        (∀ payload : ByteArray,
          ((∃ id, (perform (.insert payload) now).1 = .ok (.id id)) ↔
            now.frontier.HasRoom payload.size (now.policy.initial payload.size)) ∧
          ∀ id, (perform (.insert payload) now).1 = .ok (.id id) →
            StoredAnew contract now (perform (.insert payload) now).2 layout payload.size
              (now.policy.initial payload.size) none id) ∧
        ∀ id latest, (perform (.resolve id) now).1 = .ok (.id latest) →
          ∃ capacity length origin, latest ∈ layout.ids ∧ layout.header latest = .live capacity length origin ∧
            ∀ payload : ByteArray,
              ((∃ target, (perform (.update id payload) now).1 = .ok (.id target)) ↔ payload.size ≤ capacity ∨
                now.frontier.HasRoom payload.size (now.policy.relocated payload.size capacity)) ∧
              (payload.size ≤ capacity → (perform (.update id payload) now).1 = .ok (.id latest)) ∧
              (capacity < payload.size → ∀ target, (perform (.update id payload) now).1 = .ok (.id target) →
                StoredAnew contract now (perform (.update id payload) now).2 layout payload.size
                  (now.policy.relocated payload.size capacity) (some (origin.getD latest)) target) := by
  obtain ⟨session, hopen, hfirst⟩ := Neat.of_openOn hreliable husable hblank policy hhops
  obtain ⟨layout, hneat⟩ := hfirst.run hreliable hevents
  refine ⟨session, hopen, layout, hneat.paved, hneat.insert hreliable, fun id latest hresolve => ?_⟩
  obtain ⟨record, old, hlive, rfl, hmem, hheader⟩ := hneat.exists_live hreliable hresolve
  exact ⟨record.capacity, old.size, record.former.getLast?, hmem, hheader, hneat.update hreliable hlive⟩

/-- Asks for 40 bytes, whatever there is to store. -/
private def stubborn : CapacityPolicy := .constant 40 200

private def sevens (count : Nat) : ByteArray := ⟨Array.replicate count 7⟩

private theorem size_sevens (count : Nat) : (sevens count).size = count := Array.size_replicate ..

private theorem run_stubborn : (openOn (Memory.zeros 256 0) stubborn .default).toOption.map (fun session =>
    let now := (runAll (handle Memory.contract.reopen) [.request (.insert (sevens 3))] session).2
    (now.frontier, now.policy.initial 130, (perform (.resolve firstId) now).1)) =
      some ({ pageSize := 256, stop := 120, maxPayload := 200 }, 40, .ok (.id firstId)) := by
  decide +kernel

/-- The first record takes 56 bytes.  One of 130 bytes is too long for the rest of the page and goes to the next one,
one of 201 bytes is longer than the policy allows, and the first one stays where it is if it becomes shorter. -/
theorem writes_succeed_where_there_is_room_in_memory : ∃ session,
    openOn (Memory.zeros 256 0) stubborn .default = .ok session ∧
    let now := (runAll (handle Memory.contract.reopen) [.request (.insert (sevens 3))] session).2
    (∃ id, (perform (.insert (sevens 130)) now).1 = .ok (.id id)) ∧
      (∀ id, (perform (.insert (sevens 130)) now).1 = .ok (.id id) → id = pageId) ∧
      (¬∃ id, (perform (.insert (sevens 201)) now).1 = .ok (.id id)) ∧
      (perform (.update firstId .empty) now).1 = .ok (.id firstId) := by
  have hreliable : ¬Memory.contract.fallible := id
  have hblank : (Memory.zeros 256 0).image.Blank := ⟨⟨by decide, by decide, by decide⟩, fun _ _ => rfl⟩
  obtain ⟨session, hopen, layout, hpaved, hinsert, hupdate⟩ :=
    writes_succeed_where_there_is_room hreliable (Memory.usable_zeros (by decide) rfl) hblank stubborn
      (show 2 ≤ Options.default.maxHops by decide)
      (show ∀ event ∈ [Event.request (.insert (sevens 3))], event.Allows 2 by decide)
  have hrun := run_stubborn
  rw [hopen] at hrun
  obtain ⟨hfrontier, hrest⟩ := Prod.mk.inj (Option.some.inj hrun)
  obtain ⟨hdesired, hresolve⟩ := Prod.mk.inj hrest
  refine ⟨session, hopen, (hinsert (sevens 130)).1.2 ?_, fun id hid => ?_, fun hlong => ?_, ?_⟩
  · rw [hfrontier, size_sevens, hdesired]
    decide
  · have hstart := ((hinsert (sevens 130)).2 id hid).start
    rw [hfrontier, size_sevens, hdesired] at hstart
    exact RecordId.offset_inj hstart
  · have hle := ((hinsert (sevens 201)).1.1 hlong).1
    rw [hfrontier, size_sevens] at hle
    exact absurd hle (by decide)
  · obtain ⟨capacity, length, origin, -, -, hpayload⟩ := hupdate firstId firstId hresolve
    exact (hpayload .empty).2.1 (Nat.zero_le _)

end Session

end RecordStore
