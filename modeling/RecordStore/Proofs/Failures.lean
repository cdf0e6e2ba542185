import Mathlib
import RecordStore.Proofs.OwnReads
import RecordStore.Proofs.Refinement

/-!
# Runs with failing calls

Whatever calls fail, the abstract store explains a run (`run_explained`): every event is answered as the store answers
it, with the same effect, or fails and changes nothing.  If the limit on redirects is no less than the number of slots,
a call has failed where an operation does (`requests_explained`), and the counters of a session always agree with a
scan (`counters_runAll`).
-/

namespace RecordStore

open StorageView

/-! ### Counters of a store -/

namespace Store

variable {store : Store}

private theorem sum_shares (records : List StoredRecord) :
    (records.map StoredRecord.share).sum.allocated = (records.flatMap StoredRecord.ids).length ∧
      (records.map StoredRecord.share).sum.allocated = (records.filter (·.payload.isSome)).length +
        (records.map StoredRecord.share).sum.deleted + (records.map StoredRecord.share).sum.relocated := by
  induction records with
  | nil => exact ⟨rfl, rfl⟩
  | cons record records ih =>
    obtain ⟨hlength, hsum⟩ := ih
    have hids : record.share.allocated = record.former.length + 1 := rfl
    have hrelocated : record.share.relocated = record.former.length := rfl
    simp only [List.map_cons, List.sum_cons, Counters.allocated_add, Counters.deleted_add, Counters.relocated_add,
      List.flatMap_cons, List.length_append, List.filter_cons]
    refine ⟨congrArg (record.share.allocated + ·) hlength, ?_⟩
    cases hpayload : record.payload with
    | none =>
      have hdeleted : record.share.deleted = 1 := by simp [StoredRecord.share, hpayload]
      simp
      omega
    | some payload =>
      have hdeleted : record.share.deleted = 0 := by simp [StoredRecord.share, hpayload]
      simp
      omega

theorem allocated_counters (store : Store) : store.counters.allocated = store.ids.length := (sum_shares store.records).1

/-- No difference in the count of live records is cut off at zero. -/
theorem allocated_eq_add (store : Store) : store.counters.allocated =
    (store.records.filter (·.payload.isSome)).length + store.counters.deleted + store.counters.relocated :=
  (sum_shares store.records).2

theorem liveRecords_counters (store : Store) :
    store.counters.liveRecords = (store.records.filter (·.payload.isSome)).length := by
  have hsum := store.allocated_eq_add
  unfold Counters.liveRecords
  omega

end Store

/-! ### Explanations -/

/-- The store explains a run: every event ends as `Outcome` says. -/
inductive Explains (excused : StoreError → Prop) : Store → List Event → List (Except StoreError Reply) → Store → Prop
  | nil {store : Store} : Explains excused store [] [] store
  | cons {store store' last : Store} {event : Event} {result : Except StoreError Reply} {events : List Event}
      {results : List (Except StoreError Reply)} (h : Session.Outcome excused store (store.handle event) result store')
      (hrest : Explains excused store' events results last) :
      Explains excused store (event :: events) (result :: results) last

/-- Why an event of a run may fail that the store would not refuse, if chains of `n` redirects are not too long: a call
failed, or there are more than `n` slots. -/
inductive RunExcuse (fallible : Prop) (n : Nat) (last : Store) : StoreError → Prop
  | io (hfallible : fallible) (cause : StorageError) : RunExcuse fallible n last (.io cause)
  | hops (hlong : n < last.counters.allocated) (id : RecordId) (limit : Nat) :
      RunExcuse fallible n last (.corruption id.offset (.tooManyHops id limit))

namespace Session.Outcome

variable {α : Type} {excused excused' : StoreError → Prop} {store store' : Store}
  {expected : Except StoreError (α × Store)} {result : Except StoreError α}

theorem mono (h : Outcome excused store expected result store') (himp : ∀ e, excused e → excused' e) :
    Outcome excused' store expected result store' := by
  cases h with
  | done => exact .done
  | refused => exact .refused
  | failed he => exact .failed (himp _ he)

/-- Identifiers are never taken back, and only a write that succeeds gives one out. -/
theorem mem_ids {event : Event} {result : Except StoreError Reply}
    (h : Outcome excused store (store.handle event) result store') (id : RecordId) :
    id ∈ store'.ids ↔ id ∈ store.ids ∨ event.written result = some id := by
  rcases h.respond_or_failed with hrespond | ⟨rfl, e, rfl, -⟩
  · have hmem := store.mem_ids_respond event id
    rwa [hrespond] at hmem
  · simp

theorem ids_subset {event : Event} {result : Except StoreError Reply}
    (h : Outcome excused store (store.handle event) result store') : store.ids ⊆ store'.ids :=
  fun id hid => (h.mem_ids id).2 (.inl hid)

end Session.Outcome

namespace Explains

variable {excused excused' : StoreError → Prop} {store last : Store} {events : List Event}
  {results : List (Except StoreError Reply)}

theorem mono (h : Explains excused store events results last) (himp : ∀ e, excused e → excused' e) :
    Explains excused' store events results last := by
  induction h with
  | nil => exact .nil
  | cons h _ ih => exact .cons (h.mono himp) ih

/-- The identifiers are those that the writes of the run gave out. -/
theorem mem_ids (h : Explains excused store events results last) (id : RecordId) :
    id ∈ last.ids ↔ id ∈ store.ids ∨ id ∈ handedOut events results := by
  induction h with
  | nil => simp [handedOut]
  | cons h _ ih => rw [ih, h.mem_ids, mem_handedOut_cons, or_assoc]

theorem ids_subset (h : Explains excused store events results last) : store.ids ⊆ last.ids :=
  fun id hid => (h.mem_ids id).2 (.inl hid)

end Explains

/-- Every slot that is no padding leads to one that is no redirect, by way of slots that are no padding either. -/
def Layout.Linked (layout : Layout) : Prop :=
  ∀ id ∈ layout.ids, (layout.header id).state ≠ .padding → ∃ passed last, layout.Leads id passed last ∧
    ∀ other ∈ last :: passed.map (·.id), other ∈ layout.ids ∧ (layout.header other).state ≠ .padding

theorem Layout.Represents.linked {layout : Layout} {records : List StoredRecord} (h : layout.Represents records) :
    layout.Linked := by
  intro id hid hstate
  obtain ⟨record, hrecord, hmem⟩ := List.mem_flatMap.1 ((h.mem id).2 ⟨hid, hstate⟩)
  obtain ⟨passed, last, hleads, hlast, hpassed, -⟩ := (h.stores record hrecord).leads hmem
  have hslots : ∀ other ∈ record.ids, other ∈ layout.ids ∧ (layout.header other).state ≠ .padding :=
    fun other hother => (h.mem other).1 (List.mem_flatMap.2 ⟨record, hrecord, hother⟩)
  refine ⟨passed, last, hleads, fun other hother => hslots other ?_⟩
  rcases List.mem_cons.1 hother with rfl | hother
  · exact hlast
  · obtain ⟨redirect, hredirect, rfl⟩ := List.mem_map.1 hother
    exact List.mem_cons_of_mem _ (hpassed redirect hredirect)

/-! ### What is left behind the slots -/

namespace Store

/-- What an event that ended with this result has made of the store: an event that failed has no effect. -/
def follow (store : Store) (event : Event) : Except StoreError Reply → Store
  | .ok _ => (store.respond event).2
  | .error _ => store

/-- For each event of a run the bytes that it may change, and where the slots end after it. -/
def trace : Store → List (Event × Except StoreError Reply) → List (Scope × Nat)
  | _, [] => []
  | store, (event, result) :: rest =>
    (store.scope event result, (store.follow event result).stop) :: trace (store.follow event result) rest

/-- Where a copy may have been left behind the slots, what is appended from then on reaches as far as the copy does. -/
def Buries (store : Store) (run : List (Event × Except StoreError Reply)) : Prop :=
  (store.trace run).Pairwise fun earlier later => ∀ reach, earlier.1.leaves reach → later.1.appends → reach ≤ later.2

end Store

theorem Session.Outcome.follow_eq {excused : StoreError → Prop} {store store' : Store} {event : Event}
    {result : Except StoreError Reply} (h : Session.Outcome excused store (store.handle event) result store') :
    store.follow event result = store' := by
  generalize hexpected : store.handle event = expected at h
  cases h with
  | refused => rfl
  | failed => rfl
  | done =>
    unfold Store.follow Store.respond
    rw [hexpected]

namespace Image

variable {img img' : Image} {stop stop' : Nat} {scope : Scope} {rest : List (Scope × Nat)}

/-- A copy that stands behind the slots is covered by what comes to be appended. -/
def Trailed (img : Image) (stop : Nat) (rest : List (Scope × Nat)) : Prop :=
  ∃ reach, img.Trail stop reach ∧ ∀ later ∈ rest, later.1.appends → reach ≤ later.2

theorem Trailed.next (h : img.Trailed stop ((scope, stop') :: rest)) (htrails : Image.Trails scope img img' stop stop')
    (hburies : ∀ later ∈ rest, ∀ reach, scope.leaves reach → later.1.appends → reach ≤ later.2) :
    img'.Trailed stop' rest := by
  obtain ⟨reach, htrail, hcovered⟩ := h
  by_cases happends : scope.appends
  · have hreach := hcovered _ List.mem_cons_self happends
    rcases htrails.covered reach hreach htrail with hspare | ⟨reach', hleaves, htrail'⟩
    · exact ⟨0, .spare hspare, fun later _ _ => Nat.zero_le _⟩
    · exact ⟨reach', htrail', fun later hlater => hburies later hlater reach' hleaves⟩
  · have hkept := htrails.kept reach happends htrail
    exact ⟨reach, hkept, fun later hlater => hcovered later (List.mem_cons_of_mem _ hlater)⟩

end Image

/-! ### Sessions -/

namespace Session

variable {σ : Type} [PagedStorage σ] {contract : StorageContract σ} {session : Session σ} {layout : Layout}
  {store : Store} {events : List Event} {n : Nat}

omit [PagedStorage σ] in
/-- A chain that is too long has more slots than the limit. -/
theorem Excuse.run {view : StorageView σ} {seen : Session Image} {last : Store} {e : StoreError}
    (he : Excuse view seen layout store e) (hrep : layout.Represents store.records) (hhops : n ≤ seen.maxHops)
    (hids : store.ids ⊆ last.ids) : RunExcuse view.fallible n last e := by
  cases he with
  | io hfallible cause => exact .io hfallible cause
  | @hops record id end' passed hrecord hid hleads hlong =>
    refine .hops ?_ _ _
    obtain ⟨passed', last', hleads', -, -, hlength, -⟩ := (hrep.stores record hrecord).leads hid
    obtain ⟨hpassed, -⟩ := hleads.unique hleads'
    rw [hpassed] at hlength
    have hnodup : record.ids.Nodup := (List.nodup_flatMap.1 hrep.distinct).1 record hrecord
    have hsubset : record.ids ⊆ last.ids := fun other hother => hids (Store.mem_ids.2 ⟨record, hrecord, hother⟩)
    -- the chain passes former slots only, and all slots of the record are there at the end of the run
    have hslots : record.former.length + 1 ≤ last.ids.length := (List.subperm_of_subset hnodup hsubset).length_le
    rw [last.allocated_counters]
    omega

/-- The store explains every run in which the file can be closed and opened again whenever that is asked for.  What is
left behind the slots stays there until it is covered. -/
theorem run_explained (husable : contract.Usable session.storage)
    (h : (session.seen contract.toStorageView).Serves layout store) (hhops : n ≤ session.maxHops)
    (hevents : ∀ event ∈ events, event.Allows n) (hrecover : .recover ∉ events)
    (hreopened : ∀ policy options result,
      (.reopen policy options, result) ∈ events.zip (runAll (handle contract.reopen) events session).1 →
        result = .ok .done) :
    ∃ layout' last,
      Explains (RunExcuse contract.fallible n last) store events
        (runAll (handle contract.reopen) events session).1 last ∧
        contract.Usable (runAll (handle contract.reopen) events session).2.storage ∧
        ((runAll (handle contract.reopen) events session).2.seen contract.toStorageView).Serves layout' last ∧
        (store.Buries (events.zip (runAll (handle contract.reopen) events session).1) →
          (contract.image session.storage).Trailed store.stop
            (store.trace (events.zip (runAll (handle contract.reopen) events session).1)) →
          ∃ reach,
            (contract.image (runAll (handle contract.reopen) events session).2.storage).Trail last.stop reach) := by
  induction events generalizing session layout store with
  | nil => exact ⟨layout, store, .nil, husable, h, fun _ ⟨reach, htrail, _⟩ => ⟨reach, htrail⟩⟩
  | cons event rest ih =>
    have hensues := handle_ensues husable h event fun heq => absurd (heq ▸ List.mem_cons_self) hrecover
    rw [runAll_cons] at hreopened ⊢
    generalize (handle contract.reopen event session).1 = result at hensues hreopened ⊢
    generalize (handle contract.reopen event session).2 = session' at hensues hreopened ⊢
    cases hensues with
    | lost hevent =>
      -- a session is over only if the file could not be closed or opened again
      rw [hevent] at hreopened
      cases hreopened _ _ _ List.mem_cons_self
    | served husable' hserves hmaxHops houtcome _ _ htrails =>
      have hhops' := (hevents event List.mem_cons_self).le_maxHops hhops
      rw [← hmaxHops] at hhops'
      obtain ⟨layout', last, hexplains, hlastUsable, hlast, htrail⟩ := ih husable' hserves hhops'
        (fun event hevent => hevents event (List.mem_cons_of_mem _ hevent))
        (fun hmem => hrecover (List.mem_cons_of_mem _ hmem))
        fun policy options result hmem => hreopened policy options result (List.mem_cons_of_mem _ hmem)
      refine ⟨layout', last, .cons (houtcome.mono fun e he => ?_) hexplains, hlastUsable, hlast,
        fun hburies htrailed => ?_⟩
      · exact he.run h.keeps.represents hhops (List.Subset.trans houtcome.ids_subset hexplains.ids_subset)
      · simp only [Store.Buries, List.zip_cons_cons, Store.trace, houtcome.follow_eq, List.pairwise_cons] at hburies
        simp only [List.zip_cons_cons, Store.trace, houtcome.follow_eq] at htrailed
        exact htrail hburies.2 (htrailed.next htrails hburies.1)

/-- On a storage that was just set up, every request is answered as by the store and has the effect that it has there,
or a call has failed and the request has no effect, as long as there are no more slots than the limit on redirects.  The
redirects lead from slot to slot and come to an end. -/
theorem requests_explained {storage : σ} (husable : contract.Usable storage) (hblank : (contract.image storage).Blank)
    {policy : CapacityPolicy} {options : Options} (hopen : openOn storage policy options = .ok session)
    (requests : List Request) (hhops : (runAll perform requests session).2.counters.allocated ≤ options.maxHops) :
    let run := runAll perform requests session
    ∃ (store : Store) (layout : Layout), Explains (fun e => contract.fallible ∧ ∃ cause, e = .io cause)
        (.empty (contract.image storage).pageSize policy) (requests.map .request) run.1 store ∧
      layout.Tracks (contract.image run.2.storage) run.2.counters.size ∧ layout.Linked := by
  obtain ⟨husable', hserves, hmaxHops, -⟩ := (openOn_blank husable hblank policy options).of_eq_ok hopen
  have hrun : runAll (handle contract.reopen) (requests.map .request) session = runAll perform requests session :=
    runAll_map (handle contract.reopen) Event.request requests session
  have hrequests : ∀ event ∈ requests.map Event.request, ∃ request, event = .request request := by
    intro event hevent
    obtain ⟨request, -, rfl⟩ := List.mem_map.1 hevent
    exact ⟨request, rfl⟩
  have hallows : ∀ event ∈ requests.map Event.request, event.Allows options.maxHops := by
    intro event hevent
    obtain ⟨request, rfl⟩ := hrequests event hevent
    trivial
  have hrecover : .recover ∉ requests.map Event.request := by
    intro hmem
    obtain ⟨request, hrequest⟩ := hrequests _ hmem
    cases hrequest
  obtain ⟨layout, store, hexplains, -, hlast, -⟩ := run_explained husable' hserves (Nat.le_of_eq hmaxHops.symm) hallows
    hrecover fun policy options result hmem => by
      obtain ⟨request, hrequest⟩ := hrequests _ (List.of_mem_zip hmem).1
      cases hrequest
  rw [hrun] at hexplains hlast
  have hcounters : (runAll perform requests session).2.counters = store.counters := hlast.counters_eq
  have htracks : layout.Tracks (contract.image (runAll perform requests session).2.storage)
      (runAll perform requests session).2.counters.size := by
    rw [hcounters]
    exact hlast.keeps.tracks
  refine ⟨store, layout, hexplains.mono fun e he => ?_, htracks, hlast.keeps.represents.linked⟩
  -- a chain is not longer than there are slots
  cases he with
  | io hfallible cause => exact ⟨hfallible, cause, rfl⟩
  | hops hlong =>
    rw [hcounters] at hhops
    exact absurd hlong (Nat.not_lt.2 hhops)

/-- A storage in memory whose eighth and ninth write fail. -/
def unreliableMemory : Unreliable Memory :=
  let plan : FaultPlan := fun before call _ =>
    if call = .write ∧ (before.count .write = 7 ∨ before.count .write = 8) then .fail else .proceed
  { inner := .zeros 256 0, reported := none, faults := { plan, decided := [], log := [] }, lost := false }

theorem usable_unreliableMemory : (Unreliable.contract Memory.contract).Usable unreliableMemory := by
  refine ⟨Memory.usable_zeros (by decide) rfl, rfl, fun before call offset value => ?_⟩
  unfold unreliableMemory
  dsimp only
  split <;> nofun

/-- No read fails, only writes do. -/
theorem readable_unreliableMemory : unreliableMemory.Readable := ⟨rfl, fun _ _ => rfl, fun _ _ => rfl⟩

theorem blank_unreliableMemory : ((Unreliable.contract Memory.contract).image unreliableMemory).Blank :=
  ⟨⟨by decide, by decide, by decide⟩, fun _ _ => rfl⟩

/-- Behind a second slot that takes 32 bytes. -/
def thirdId : RecordId := ⟨15, by decide, by decide⟩

/-- A record that is moved twice, where the first redirect cannot be pointed at the latest slot, and an insertion that
fails. -/
def sampleRequests : List Request :=
  [.insert ⟨#[1]⟩, .update firstId ⟨#[1, 2, 3, 4, 5, 6, 7, 8, 9]⟩,
    .update firstId ⟨#[1, 2, 3, 4, 5, 6, 7, 8, 9, 10, 11, 12, 13, 14, 15, 16, 17]⟩,
    .insert ⟨#[1]⟩, .read firstId]

deriving instance DecidableEq for Reply

def sampleResults : List (Except StoreError Reply) :=
  [.ok (.id firstId), .ok (.id secondId), .ok (.id thirdId),
    .error (.io (.io (.injected .write))),
    .ok (.payload ⟨#[1, 2, 3, 4, 5, 6, 7, 8, 9, 10, 11, 12, 13, 14, 15, 16, 17]⟩)]

private theorem run_sampleRequests : (openOn unreliableMemory .exactDefault .default).toOption.map (fun session =>
    ((runAll perform sampleRequests session).1, (runAll perform sampleRequests session).2.counters.allocated)) =
      some (sampleResults, 3) := by
  decide +kernel

theorem requests_explained_in_memory : ∃ session, openOn unreliableMemory .exactDefault .default = .ok session ∧
    ∃ (store : Store) (layout : Layout), Explains (fun e => True ∧ ∃ cause, e = .io cause) (.empty 256 .exactDefault)
      (sampleRequests.map .request) sampleResults store ∧ layout.Linked := by
  have hrun := run_sampleRequests
  rcases hopen : openOn unreliableMemory .exactDefault .default with e | session
  · rw [hopen] at hrun
    cases hrun
  · rw [hopen] at hrun
    obtain ⟨hresults, hallocated⟩ := Prod.mk.inj (Option.some.inj hrun)
    have hhops : (runAll perform sampleRequests session).2.counters.allocated ≤ Options.default.maxHops := by
      rw [hallocated]
      decide
    obtain ⟨store, layout, hexplains, -, hlinked⟩ :=
      requests_explained usable_unreliableMemory blank_unreliableMemory hopen sampleRequests hhops
    rw [hresults] at hexplains
    exact ⟨session, rfl, store, layout, hexplains, hlinked⟩

/-- After any run without a recount in which the file could be closed and opened again whenever that was asked for, the
counters are those of a scan, unless one of its own reads fails, and they count the records of the store that explains
the run. -/
theorem counters_runAll {storage : σ} (husable : contract.Usable storage) (hblank : (contract.image storage).Blank)
    {policy : CapacityPolicy} {options : Options} (hopen : openOn storage policy options = .ok session)
    (hrecover : .recover ∉ events) (hreopened : ∀ policy options result,
      (.reopen policy options, result) ∈ events.zip (runAll (handle contract.reopen) events session).1 →
        result = .ok .done) :
    let run := runAll (handle contract.reopen) events session
    let counters := run.2.counters
    ((countSlots run.2).1 = .ok counters ∨
        contract.fallible ∧ ∃ cause, (countSlots run.2).1 = .error (.io cause) ∧ run.2.CountFails contract cause) ∧
      counters.allocated = counters.liveRecords + counters.deleted + counters.relocated ∧
      counters.payload ≤ counters.capacity ∧ FileHeader.size + counters.capacity ≤ counters.size ∧
      ∃ store, Explains (RunExcuse contract.fallible 0 store) (.empty (contract.image storage).pageSize policy)
          events run.1 store ∧
        counters.liveRecords = (store.records.filter (·.payload.isSome)).length := by
  obtain ⟨husable', hserves, -⟩ := (openOn_blank husable hblank policy options).of_eq_ok hopen
  have hallows : ∀ event ∈ events, event.Allows 0 := by
    intro event _
    cases event with
    | reopen policy options => exact Nat.zero_le _
    | request => trivial
    | recover => trivial
    | count => trivial
  obtain ⟨layout, store, hexplains, hlastUsable, hlast, -⟩ := run_explained husable' hserves (Nat.zero_le _) hallows
    hrecover hreopened
  intro run counters
  have hcounters : counters = store.counters := hlast.counters_eq
  obtain ⟨hpayload, hcapacity, -, -⟩ := hlast.keeps.counters_le
  have hscan := (countSlots_performs hlast run.2 hlastUsable rfl).2.2
  rw [hcounters]
  refine ⟨?_, ?_, hpayload, hcapacity, store, hexplains, store.liveRecords_counters⟩
  · rw [← hcounters]
    refine hscan.imp_right fun ⟨hfallible, cause, hfailed⟩ => ⟨hfallible, cause, hfailed, ?_⟩
    exact hlast.walks.countSlots_eq_io hlastUsable hfailed
  · rw [store.liveRecords_counters]
    exact store.allocated_eq_add

/-- The same, and then a new session that deletes the record. -/
def reopenedEvents : List Event :=
  sampleRequests.map .request ++ [.reopen .bucketsDefault .default, .request (.delete secondId)]

private theorem run_reopenedEvents : (openOn unreliableMemory .exactDefault .default).toOption.map (fun session =>
    (runAll (handle (Unreliable.contract Memory.contract).reopen) reopenedEvents session).1) =
      some (sampleResults ++ [.ok .done, .ok .done]) := by
  decide +kernel

theorem counters_runAll_in_memory : ∃ session, openOn unreliableMemory .exactDefault .default = .ok session ∧
    let last := (runAll (handle (Unreliable.contract Memory.contract).reopen) reopenedEvents session).2
    (countSlots last).1 = .ok last.counters ∧
      last.counters.allocated = last.counters.liveRecords + last.counters.deleted + last.counters.relocated := by
  have hrun := run_reopenedEvents
  rcases hopen : openOn unreliableMemory .exactDefault .default with e | session
  · rw [hopen] at hrun
    cases hrun
  · rw [hopen] at hrun
    have hresults : (runAll (handle (Unreliable.contract Memory.contract).reopen) reopenedEvents session).1 =
        sampleResults ++ [.ok .done, .ok .done] := Option.some.inj hrun
    have hreopened : ∀ policy options result, (.reopen policy options, result) ∈ reopenedEvents.zip
        (runAll (handle (Unreliable.contract Memory.contract).reopen) reopenedEvents session).1 →
          result = .ok .done := by
      intro policy options result hmem
      rw [hresults] at hmem
      have hdone : (policy = .bucketsDefault ∧ options = .default) ∧ result = .ok .done := by
        simpa [reopenedEvents, sampleRequests, sampleResults] using hmem
      exact hdone.2
    have husable : (Unreliable.readableContract Memory.contract).Usable unreliableMemory :=
      ⟨usable_unreliableMemory, readable_unreliableMemory⟩
    obtain ⟨hscan, hsum, -⟩ := counters_runAll husable blank_unreliableMemory hopen
      (by simp [reopenedEvents, sampleRequests]) hreopened
    refine ⟨session, rfl, hscan.resolve_right ?_, hsum⟩
    rintro ⟨-, cause, -, hfails⟩
    obtain ⟨storage, offset, length, hread⟩ := hfails.exists_read
    exact Unreliable.not_failsToRead not_false hread

end Session

end RecordStore
