import RecordStore.Proofs.Runs
import RecordStore.Proofs.Storages

/-!
# Runs without failing calls

As long as no call of the storage fails, a run that starts from an empty file gives the results that the abstract
store gives (`runAll_eq_respond`).  The identifiers of the store are those that the writes of the run have answered,
and under each of them the session has what the store has (`Mirrors`).
-/

namespace RecordStore

open StorageView

/-! ### Identifiers -/

/-- The identifier that a write answers. -/
def Event.written : Event → Except StoreError Reply → Option RecordId
  | .request (.insert _), .ok (.id id) => some id
  | .request (.update ..), .ok (.id id) => some id
  | _, _ => none

@[simp] theorem Event.written_error (event : Event) (e : StoreError) : event.written (.error e) = none := by
  cases event with
  | request request => cases request <;> rfl
  | _ => rfl

/-- The identifiers that the writes of a run answer. -/
def handedOut (events : List Event) (results : List (Except StoreError Reply)) : List RecordId :=
  (events.zip results).filterMap fun (event, result) => event.written result

theorem mem_handedOut_cons {event : Event} {events : List Event} {result : Except StoreError Reply}
    {results : List (Except StoreError Reply)} {id : RecordId} :
    id ∈ handedOut (event :: events) (result :: results) ↔
      event.written result = some id ∨ id ∈ handedOut events results := by
  simp [handedOut]

namespace Store

variable {store : Store} {id : RecordId} {record : StoredRecord} {payload : ByteArray}

theorem mem_ids : id ∈ store.ids ↔ ∃ record ∈ store.records, id ∈ record.ids := List.mem_flatMap

/-- A change that leaves a record its identifiers. -/
theorem mem_ids_change {f : StoredRecord → StoredRecord} (h : ∀ record, (f record).ids = record.ids)
    (other : RecordId) : other ∈ (store.change id f).ids ↔ other ∈ store.ids := by
  have hids : (store.change id f).ids = store.ids := by
    unfold ids change
    rw [List.flatMap_map]
    refine List.flatMap_congr fun record _ => ?_
    by_cases hid : id ∈ record.ids
    · rw [if_pos hid, h]
    · rw [if_neg hid]
  rw [hids]

/-- A move adds the new identifier. -/
theorem mem_ids_moved (hrecord : record ∈ store.records) (hid : id ∈ record.ids) (latest : RecordId) (capacity : Nat)
    (payload : ByteArray) (other : RecordId) :
    other ∈ (store.change id (·.moved latest capacity payload)).ids ↔ other ∈ store.ids ∨ latest = other := by
  have hmem : ∀ record : StoredRecord,
      other ∈ (if id ∈ record.ids then record.moved latest capacity payload else record).ids ↔
      other ∈ record.ids ∨ id ∈ record.ids ∧ other = latest := by
    intro record
    by_cases h : id ∈ record.ids
    · rw [if_pos h, or_comm, and_iff_right h]
      exact List.mem_cons
    · simp [h]
  have hchange : other ∈ (store.change id (·.moved latest capacity payload)).ids ↔
      ∃ record ∈ store.records, other ∈ record.ids ∨ id ∈ record.ids ∧ other = latest := by
    rw [mem_ids]
    unfold change
    simp only [List.mem_map, exists_exists_and_eq_and, hmem]
  rw [hchange, mem_ids]
  constructor
  · rintro ⟨record', hrecord', hother | ⟨-, rfl⟩⟩
    · exact .inl ⟨record', hrecord', hother⟩
    · exact .inr rfl
  · rintro (⟨record', hrecord', hother⟩ | rfl)
    · exact ⟨record', hrecord', .inl hother⟩
    · exact ⟨record, hrecord, .inr ⟨hid, rfl⟩⟩

theorem eq_ok_of_bind {α β : Type} {x : Except StoreError α} {f : α → Except StoreError β} {b : β}
    (h : (x >>= f) = .ok b) : ∃ a, x = .ok a ∧ f a = .ok b := by
  cases x with
  | error e => cases h
  | ok a => exact ⟨a, rfl, h⟩

private theorem mem_ids_insert {latest : RecordId} {store' : Store} (h : store.insert payload = .ok (latest, store')) :
    id ∈ store'.ids ↔ id ∈ store.ids ∨ latest = id := by
  unfold insert at h
  obtain ⟨capacity, -, h⟩ := eq_ok_of_bind h
  obtain ⟨⟨new, stop⟩, -, h⟩ := eq_ok_of_bind h
  cases h
  rw [or_comm, eq_comm]
  exact List.mem_cons

private theorem mem_ids_update {target latest : RecordId} {store' : Store}
    (h : store.update target payload = .ok (latest, store')) : id ∈ store'.ids ↔ id ∈ store.ids ∨ latest = id := by
  unfold update at h
  obtain ⟨⟨record, old⟩, hlive, h⟩ := eq_ok_of_bind h
  obtain ⟨hrecord, htarget, -⟩ := live_eq_ok hlive
  dsimp only at h
  by_cases hfits : payload.size ≤ record.capacity
  · rw [if_pos hfits] at h
    cases h
    have hlatest : record.latest = id → id ∈ store.ids := by
      rintro rfl
      exact mem_ids.2 ⟨record, hrecord, List.mem_cons_self⟩
    exact (mem_ids_change (f := (·.overwritten payload)) (fun _ => rfl) id).trans (iff_self_or.2 hlatest)
  · rw [if_neg hfits] at h
    obtain ⟨capacity, -, h⟩ := eq_ok_of_bind h
    obtain ⟨⟨new, stop⟩, -, h⟩ := eq_ok_of_bind h
    cases h
    exact mem_ids_moved hrecord htarget new capacity payload id

/-- An event adds the identifier that it answers if it is a write, and no other. -/
theorem mem_ids_respond (store : Store) (event : Event) (id : RecordId) :
    id ∈ (store.respond event).2.ids ↔ id ∈ store.ids ∨ event.written (store.respond event).1 = some id := by
  have hsame : ∀ {ids : List RecordId}, id ∈ ids ↔ id ∈ ids ∨ (none : Option RecordId) = some id := by simp
  cases event with
  | recover => exact hsame
  | count => exact hsame
  | reopen => exact hsame
  | request request =>
    unfold respond handle perform
    cases request with
    | insert payload =>
      dsimp only
      cases hinsert : store.insert payload with
      | error e => exact hsame
      | ok answer => exact (mem_ids_insert hinsert).trans (or_congr_right (Option.some_inj.symm))
    | update target payload =>
      dsimp only
      cases hupdate : store.update target payload with
      | error e => exact hsame
      | ok answer => exact (mem_ids_update hupdate).trans (or_congr_right (Option.some_inj.symm))
    | delete target =>
      unfold delete
      dsimp only
      cases store.live target with
      | error e => exact hsame
      | ok found => exact (mem_ids_change (f := StoredRecord.deleted) (fun _ => rfl) id).trans hsame
    | read target =>
      dsimp only
      cases store.live target <;> exact hsame
    | resolve target =>
      dsimp only
      cases store.live target <;> exact hsame
    | flush => exact hsame

theorem respond_update (store : Store) (id : RecordId) (payload : ByteArray) :
    store.respond (.request (.update id payload)) =
      match store.update id payload with
      | .ok (latest, store') => (.ok (.id latest), store')
      | .error e => (.error e, store) := by
  unfold respond handle perform
  dsimp only
  rcases store.update id payload with e | ⟨latest, store'⟩ <;> rfl

/-- An update leaves a record under its latest identifier if the payload fits, and only then. -/
theorem update_latest_iff {old : ByteArray} (hlive : store.live id = .ok (record, old))
    (hdistinct : ∀ store', store.update id payload = .ok (record.latest, store') → store'.ids.Nodup) :
    (∃ store', store.update id payload = .ok (record.latest, store')) ↔ payload.size ≤ record.capacity := by
  constructor
  · rintro ⟨store', h⟩
    by_contra hlong
    have hnodup := hdistinct store' h
    rw [update_of_lt hlive (Nat.lt_of_not_le hlong)] at h
    obtain ⟨capacity, -, h⟩ := eq_ok_of_bind h
    obtain ⟨⟨new, stop⟩, -, h⟩ := eq_ok_of_bind h
    have hnew : new = record.latest := congrArg Prod.fst (Except.ok.inj h)
    have hstore : { store.change id (·.moved new capacity payload) with stop } = store' :=
      congrArg Prod.snd (Except.ok.inj h)
    obtain ⟨hrecord, hid, -⟩ := live_eq_ok hlive
    have hmoved : record.moved new capacity payload ∈ store'.records := by
      rw [← hstore]
      exact List.mem_map.2 ⟨record, hrecord, if_pos hid⟩
    -- the identifier would stand twice in the record
    have hids := (List.nodup_flatMap.1 hnodup).1 _ hmoved
    rw [hnew] at hids
    exact (List.nodup_cons.1 hids).1 List.mem_cons_self
  · intro hfit
    exact ⟨_, update_of_le hlive hfit⟩

end Store

/-! ### Sessions -/

namespace Session

variable {σ : Type} [PagedStorage σ] {contract : StorageContract σ} {session : Session σ} {layout : Layout}
  {store : Store} {event : Event} {events : List Event}

/-- Under every identifier there is in the session what there is in the store: nothing, a record that was deleted, or a
record with a payload, which an update that fits leaves where it is. -/
structure Mirrors (session : Session σ) (store : Store) : Prop where
  missing : ∀ id, id ∉ store.ids → (perform (.read id) session).1 = .error (.notFound id) ∧
    (perform (.resolve id) session).1 = .error (.notFound id)
  deleted : ∀ record ∈ store.records, ∀ id ∈ record.ids, record.payload = none →
    (perform (.read id) session).1 = .error (.deleted id) ∧ (perform (.resolve id) session).1 = .error (.deleted id)
  live : ∀ record ∈ store.records, ∀ id ∈ record.ids, ∀ payload, record.payload = some payload →
    (perform (.read id) session).1 = .ok (.payload payload) ∧
      (perform (.resolve id) session).1 = .ok (.id record.latest)
  kept : ∀ record ∈ store.records, ∀ id ∈ record.ids, record.payload ≠ none → ∀ payload,
    (perform (.update id payload) session).1 = .ok (.id record.latest) ↔ payload.size ≤ record.capacity

/-- Where calls do not fail and chains are short enough, a request is answered as by the store. -/
private theorem respond_eq_perform (hreliable : ¬contract.fallible) (husable : contract.Usable session.storage)
    (h : (session.seen contract.toStorageView).Serves layout store)
    (hnear : ∀ record ∈ store.records, ∀ id ∈ record.ids, layout.Near id session.maxHops) (request : Request) :
    ∃ store', store.respond (.request request) = ((perform request session).1, store') ∧ store'.ids.Nodup := by
  obtain ⟨-, layout', store', hadvances, houtcome⟩ := perform_performs h request session husable rfl
  change Outcome _ store (store.handle (.request request)) _ store' at houtcome
  rcases houtcome.respond_or_failed with hrespond | ⟨-, e, -, he⟩
  · exact ⟨store', hrespond, hadvances.serves.keeps.represents.distinct⟩
  · exact absurd (he.exists_io hnear).1 hreliable

theorem mirrors_of_serves (hreliable : ¬contract.fallible) (husable : contract.Usable session.storage)
    (h : (session.seen contract.toStorageView).Serves layout store)
    (hnear : ∀ record ∈ store.records, ∀ id ∈ record.ids, layout.Near id session.maxHops) :
    session.Mirrors store := by
  have hdistinct := h.keeps.represents.distinct
  -- with no chain too long, each request is answered as the store answers it
  have hperform : ∀ request, (perform request session).1 = (store.respond (.request request)).1 := by
    intro request
    obtain ⟨store', hrespond, -⟩ := respond_eq_perform hreliable husable h hnear request
    rw [hrespond]
  have hread : ∀ id, (store.respond (.request (.read id))).1 = (store.live id).map fun found => .payload found.2 := by
    intro id
    unfold Store.respond Store.handle Store.perform
    dsimp only
    cases store.live id <;> rfl
  have hresolve : ∀ id,
      (store.respond (.request (.resolve id))).1 = (store.live id).map fun found => .id found.1.latest := by
    intro id
    unfold Store.respond Store.handle Store.perform
    dsimp only
    cases store.live id <;> rfl
  refine ⟨fun id hid => ?_, fun record hrecord id hid hpayload => ?_, fun record hrecord id hid payload hpayload => ?_,
    fun record hrecord id hid hpayload payload => ?_⟩
  · rw [hperform, hperform, hread, hresolve, Store.live_of_notMem hid]
    exact ⟨rfl, rfl⟩
  · rw [hperform, hperform, hread, hresolve, Store.live_of_mem hdistinct hrecord hid, hpayload]
    exact ⟨rfl, rfl⟩
  · rw [hperform, hperform, hread, hresolve, Store.live_of_mem hdistinct hrecord hid, hpayload]
    exact ⟨rfl, rfl⟩
  · obtain ⟨old, hold⟩ := Option.ne_none_iff_exists'.1 hpayload
    have hlive := Store.live_of_mem hdistinct hrecord hid
    rw [hold] at hlive
    obtain ⟨after, hrespond, hnodup⟩ := respond_eq_perform hreliable husable h hnear (.update id payload)
    rw [Store.respond_update] at hrespond
    rw [← Store.update_latest_iff hlive fun store' h => ?_]
    · rcases h : store.update id payload with e | ⟨latest, store'⟩
      · rw [h] at hrespond
        obtain ⟨hresult, -⟩ := Prod.mk.inj hrespond
        simp [← hresult]
      · rw [h] at hrespond
        obtain ⟨hresult, -⟩ := Prod.mk.inj hrespond
        simp [← hresult]
    · rw [h] at hrespond
      rw [(Prod.mk.inj hrespond).2]
      exact hnodup

/-- Where no call fails, an event is answered as by the store, and makes of the slots what it makes of the store. -/
theorem handle_responds (hreliable : ¬contract.fallible) (husable : contract.Usable session.storage)
    (hhops : 2 ≤ session.maxHops) (hserves : (session.seen contract.toStorageView).Serves layout store)
    (hclean : (contract.image session.storage).Clean layout store) (hevent : event.Allows 2) :
    (handle contract.reopen event session).1 = (store.respond event).1 ∧ ∃ layout',
      contract.Usable (handle contract.reopen event session).2.storage ∧
      2 ≤ (handle contract.reopen event session).2.maxHops ∧
      ((handle contract.reopen event session).2.seen contract.toStorageView).Serves layout' (store.respond event).2 ∧
      (contract.image (handle contract.reopen event session).2.storage).Clean layout' (store.respond event).2 ∧
      layout.Transition contract.fallible store layout' (store.respond event).2 := by
  have hensues := handle_ensues husable hserves event fun _ => hclean.blank
  have hnear : ∀ record ∈ store.records, ∀ id ∈ record.ids, layout.Near id session.maxHops :=
    fun record hrecord id hid => (hclean.near hserves.keeps.represents record hrecord id hid).mono hhops
  generalize (handle contract.reopen event session).1 = result at hensues ⊢
  generalize (handle contract.reopen event session).2 = session' at hensues ⊢
  cases hensues with
  | lost _ hfallible => exact absurd hfallible hreliable
  | @served _ _ layout' store' husable' hserves' hmaxHops houtcome hclean' _ _ htransition =>
    rcases houtcome.respond_or_failed with hrespond | ⟨-, e, -, he⟩
    · rw [hrespond]
      have hhops' := hevent.le_maxHops hhops
      rw [← hmaxHops] at hhops'
      exact ⟨rfl, layout', husable', hhops', hserves', hclean' hclean hreliable, htransition⟩
    · exact absurd (he.exists_io hnear).1 hreliable

/-- Where no call fails, a blank storage is opened as a store without slots. -/
theorem exists_opened (hreliable : ¬contract.fallible) {storage : σ} (husable : contract.Usable storage)
    (hblank : (contract.image storage).Blank) (policy : CapacityPolicy) {options : Options}
    (hhops : 2 ≤ options.maxHops) :
    ∃ session, openOn storage policy options = .ok session ∧ contract.Usable session.storage ∧ 2 ≤ session.maxHops ∧
      (session.seen contract.toStorageView).Serves .empty (.empty (contract.image storage).pageSize policy) ∧
      (contract.image session.storage).Clean .empty (.empty (contract.image storage).pageSize policy) := by
  obtain ⟨session, hopen, husable', hserves, hmaxHops, hzeros⟩ :=
    (openOn_blank husable hblank policy options).exists_session fun e img hfailed => hreliable hfailed.1
  have hhops' : 2 ≤ session.maxHops := Nat.le_trans hhops (Nat.le_of_eq hmaxHops.symm)
  exact ⟨session, hopen, husable', hhops', hserves, .empty hzeros⟩

/-- A session that no failed call lies behind, and a limit on redirects that its chains keep. -/
structure Intact (contract : StorageContract σ) (session : Session σ) (store : Store) : Prop where
  usable : contract.Usable session.storage
  hops : 2 ≤ session.maxHops
  served : ∃ layout, (session.seen contract.toStorageView).Serves layout store ∧
    (contract.image session.storage).Clean layout store

namespace Intact

theorem of_openOn (hreliable : ¬contract.fallible) {storage : σ} (husable : contract.Usable storage)
    (hblank : (contract.image storage).Blank) (policy : CapacityPolicy) {options : Options}
    (hhops : 2 ≤ options.maxHops) :
    ∃ session, openOn storage policy options = .ok session ∧
      Intact contract session (.empty (contract.image storage).pageSize policy) := by
  obtain ⟨session, hopen, husable', hhops', hserves, hclean⟩ :=
    exists_opened hreliable husable hblank policy hhops
  exact ⟨session, hopen, husable', hhops', .empty, hserves, hclean⟩

variable (h : Intact contract session store)

include h

theorem exists_near : ∃ layout, (session.seen contract.toStorageView).Serves layout store ∧
    (contract.image session.storage).Clean layout store ∧
      ∀ record ∈ store.records, ∀ id ∈ record.ids, layout.Near id session.maxHops := by
  obtain ⟨layout, hserves, hclean⟩ := h.served
  exact ⟨layout, hserves, hclean, fun record hrecord id hid =>
    (hclean.near hserves.keeps.represents record hrecord id hid).mono h.hops⟩

theorem mirrors (hreliable : ¬contract.fallible) : session.Mirrors store := by
  obtain ⟨layout, hserves, -, hnear⟩ := h.exists_near
  exact mirrors_of_serves hreliable h.usable hserves hnear

/-- One event is answered as by the store. -/
theorem step (hreliable : ¬contract.fallible) (hevent : event.Allows 2) :
    (handle contract.reopen event session).1 = (store.respond event).1 ∧
      Intact contract (handle contract.reopen event session).2 (store.respond event).2 := by
  obtain ⟨layout, hserves, hclean⟩ := h.served
  obtain ⟨hresult, layout', husable, hhops, hserves', hclean', -⟩ :=
    handle_responds hreliable h.usable h.hops hserves hclean hevent
  exact ⟨hresult, husable, hhops, layout', hserves', hclean'⟩

/-- And so is every event of a run. -/
theorem run (hreliable : ¬contract.fallible) (hevents : ∀ event ∈ events, event.Allows 2) :
    (runAll (handle contract.reopen) events session).1 = (runAll Store.respond events store).1 ∧
      Intact contract (runAll (handle contract.reopen) events session).2 (runAll Store.respond events store).2 := by
  induction events generalizing session store with
  | nil => exact ⟨rfl, h⟩
  | cons event rest ih =>
    obtain ⟨hresult, hintact⟩ := h.step hreliable (hevents event List.mem_cons_self)
    obtain ⟨hresults, hlast⟩ := ih hintact fun event hevent => hevents event (List.mem_cons_of_mem _ hevent)
    rw [runAll_cons, runAll_cons]
    exact ⟨congrArg₂ List.cons hresult hresults, hlast⟩

theorem nodup_ids : store.ids.Nodup := by
  obtain ⟨layout, hserves, -⟩ := h.served
  exact hserves.keeps.represents.distinct

end Intact

end Session

/-- The identifiers of the store after a run are those from before it and those that its writes answered. -/
theorem Store.mem_ids_runAll (store : Store) (events : List Event) (id : RecordId) :
    id ∈ (runAll respond events store).2.ids ↔
      id ∈ store.ids ∨ id ∈ handedOut events (runAll respond events store).1 := by
  induction events generalizing store with
  | nil => simp [runAll, handedOut]
  | cons event rest ih => rw [runAll_cons, ih, mem_ids_respond, mem_handedOut_cons, or_assoc]

namespace Session

variable {σ : Type} [PagedStorage σ] {contract : StorageContract σ}

/-- Without failing calls, a run that starts from a blank storage has the results that the store gives; the identifiers
of the store are those that the writes answered, and under each of them the session has what the store has. -/
theorem runAll_eq_respond (hreliable : ¬contract.fallible) {storage : σ} (husable : contract.Usable storage)
    (hblank : (contract.image storage).Blank) (policy : CapacityPolicy) {options : Options}
    (hhops : 2 ≤ options.maxHops) {events : List Event} (hevents : ∀ event ∈ events, event.Allows 2) :
    ∃ session, openOn storage policy options = .ok session ∧
      let run := runAll (handle contract.reopen) events session
      let expected := runAll Store.respond events (.empty (contract.image storage).pageSize policy)
      run.1 = expected.1 ∧ run.2.Mirrors expected.2 ∧ expected.2.ids.Nodup ∧
        ∀ id, id ∈ expected.2.ids ↔ id ∈ handedOut events run.1 := by
  obtain ⟨session, hopen, hintact⟩ := Intact.of_openOn hreliable husable hblank policy hhops
  obtain ⟨hresults, hlast⟩ := hintact.run hreliable hevents
  refine ⟨session, hopen, hresults, hlast.mirrors hreliable, hlast.nodup_ids, fun id => ?_⟩
  rw [hresults, Store.mem_ids_runAll]
  exact or_iff_right List.not_mem_nil

/-- Behind the file header. -/
def firstId : RecordId := ⟨8, by decide, by decide⟩

/-- Behind a slot that takes 24 bytes. -/
def secondId : RecordId := ⟨11, by decide, by decide⟩

/-- Within the first slot. -/
def strayId : RecordId := ⟨9, by decide, by decide⟩

/-- A record that outgrows its slot and is deleted later on, with a new session in between. -/
def sampleEvents : List Event :=
  [.request (.insert ⟨#[1, 2, 3]⟩), .request (.update firstId ⟨#[1, 2, 3, 4, 5, 6, 7, 8, 9]⟩),
    .reopen .bucketsDefault .default, .request (.read firstId),
    .request (.delete firstId), .request (.read secondId),
    .request (.read strayId), .recover]

theorem runAll_eq_respond_in_memory : ∃ session, openOn (Memory.zeros 256 0) .exactDefault .default = .ok session ∧
    (runAll (handle Memory.contract.reopen) sampleEvents session).1 =
      [.ok (.id firstId), .ok (.id secondId), .ok .done,
        .ok (.payload ⟨#[1, 2, 3, 4, 5, 6, 7, 8, 9]⟩), .ok .done, .error (.deleted secondId),
        .error (.notFound strayId), .ok (.counters ⟨2, 1, 1, 0, 0, 120⟩)] := by
  have hreliable : ¬Memory.contract.fallible := id
  have hblank : (Memory.zeros 256 0).image.Blank := ⟨⟨by decide, by decide, by decide⟩, fun _ _ => rfl⟩
  obtain ⟨session, hopen, hresults, -⟩ := runAll_eq_respond hreliable (Memory.usable_zeros (by decide) rfl) hblank
    .exactDefault (show 2 ≤ Options.default.maxHops by decide) (show ∀ event ∈ sampleEvents, event.Allows 2 by decide)
  exact ⟨session, hopen, hresults⟩

end Session

end RecordStore
