import RecordStore.Proofs.Opening

/-!
# Runs

Any number of requests, recounts and scans, with the file closed and opened again in between.  One step lemma says
what comes of an event in a session that serves a store (`handle_ensues`), whatever calls fail on the way; what holds
of whole runs is proved from it by induction on the events.
-/

namespace RecordStore

/-- What happens to a session. -/
inductive Event
  | request (request : Request)
  /-- The counters are taken from a scan. -/
  | recover
  /-- The slots are counted, and nothing is changed. -/
  | count
  /-- The session ends, and the file is opened again. -/
  | reopen (policy : CapacityPolicy) (options : Options)

/-- The results of a step for each input in turn, and the state after them. -/
def runAll {ι ρ s : Type} (step : ι → s → ρ × s) : List ι → s → List ρ × s
  | [], state => ([], state)
  | input :: rest, state =>
    let (result, state) := step input state
    let (results, state) := runAll step rest state
    (result :: results, state)

theorem runAll_cons {ι ρ s : Type} (step : ι → s → ρ × s) (input : ι) (rest : List ι) (state : s) :
    runAll step (input :: rest) state =
      ((step input state).1 :: (runAll step rest (step input state).2).1, (runAll step rest (step input state).2).2) :=
  rfl

theorem runAll_append {ι ρ s : Type} (step : ι → s → ρ × s) (inputs rest : List ι) (state : s) :
    runAll step (inputs ++ rest) state =
      ((runAll step inputs state).1 ++ (runAll step rest (runAll step inputs state).2).1,
        (runAll step rest (runAll step inputs state).2).2) := by
  induction inputs generalizing state with
  | nil => rfl
  | cons input inputs ih => rw [List.cons_append, runAll_cons, ih, runAll_cons, List.cons_append]

theorem length_runAll {ι ρ s : Type} (step : ι → s → ρ × s) (inputs : List ι) (state : s) :
    (runAll step inputs state).1.length = inputs.length := by
  induction inputs generalizing state with
  | nil => rfl
  | cons input inputs ih => rw [runAll_cons, List.length_cons, List.length_cons, ih]

theorem runAll_map {ι κ ρ s : Type} (step : ι → s → ρ × s) (f : κ → ι) (inputs : List κ) (state : s) :
    runAll step (inputs.map f) state = runAll (fun input => step (f input)) inputs state := by
  induction inputs generalizing state with
  | nil => rfl
  | cons input rest ih => rw [List.map_cons, runAll_cons, runAll_cons, ih]

namespace Event

/-- The limit on redirects that holds once the event is over. -/
def maxHops : Event → Nat → Nat
  | .reopen _ options, _ => options.maxHops
  | _, hops => hops

/-- The file is opened with a limit of at least `n` redirects, if the event opens it. -/
def Allows : Event → Nat → Prop
  | .reopen _ options, n => n ≤ options.maxHops
  | _, _ => True

instance : (event : Event) → (n : Nat) → Decidable (event.Allows n)
  | .reopen _ options, n => inferInstanceAs (Decidable (n ≤ options.maxHops))
  | .request _, _ => inferInstanceAs (Decidable True)
  | .recover, _ => inferInstanceAs (Decidable True)
  | .count, _ => inferInstanceAs (Decidable True)

/-- The event asks for a change of the record with this identifier. -/
def Changes : Event → RecordId → Prop
  | .request (.update target _), id => target = id
  | .request (.delete target), id => target = id
  | _, _ => False

theorem Allows.le_maxHops {event : Event} {n hops : Nat} (h : event.Allows n) (hle : n ≤ hops) :
    n ≤ event.maxHops hops := by
  cases event with
  | reopen policy options => exact h
  | request => exact hle
  | recover => exact hle
  | count => exact hle

end Event

namespace Store

/-- The answer to an event and the store after it. -/
def handle (store : Store) : Event → Except StoreError (Reply × Store)
  | .request request => store.perform request
  | .recover => .ok (.counters store.counters, store)
  | .count => .ok (.counters store.counters, store)
  | .reopen policy _ => .ok (.done, { store with policy })

/-- Which bytes an event may change that ends with this result. -/
def scope {α : Type} (store : Store) (event : Event) (result : Except StoreError α) : Scope :=
  match event with
  | .request request => store.requestScope request result
  | .count => .slots
  | .recover | .reopen .. => .header

/-- The same for a run: an event that is refused leaves the store as it is. -/
def respond (event : Event) (store : Store) : Except StoreError Reply × Store :=
  match store.handle event with
  | .ok (reply, store') => (.ok reply, store')
  | .error e => (.error e, store)

/-- What an event makes of a store: a new record at the front, a change of the records of one identifier, or nothing but
another policy. -/
inductive Step (store : Store) (event : Event) : Store → Prop
  | same : Step store event store
  | renewed (policy : CapacityPolicy) : Step store event { store with policy }
  | inserted {record : StoredRecord} {stop : Nat} (hformer : record.former = []) :
      Step store event { store with records := record :: store.records, stop }
  | changed {target : RecordId} {f : StoredRecord → StoredRecord} {stop : Nat} (htarget : event.Changes target)
      (hlive : ∃ record payload, store.live target = .ok (record, payload))
      (hf : ∀ record : StoredRecord, record.ids <:+ (f record).ids) :
      Step store event { store.change target f with stop }

theorem step_respond (store : Store) (event : Event) : store.Step event (store.respond event).2 := by
  cases event with
  | recover => exact .same
  | count => exact .same
  | reopen policy options => exact .renewed policy
  | request request =>
    unfold respond handle perform
    cases request with
    | insert payload =>
      simp only [insert]
      cases store.capacityFor payload.size (store.policy.initial payload.size) with
      | error e => exact .same
      | ok capacity =>
        simp only [bind, Except.bind]
        cases store.newSlot capacity with
        | error e => exact .same
        | ok placed => exact .inserted rfl
    | update target payload =>
      simp only [update]
      cases hlive : store.live target with
      | error e => exact .same
      | ok found =>
        simp only [bind, Except.bind]
        by_cases hfit : payload.size ≤ found.1.capacity
        · rw [if_pos hfit]
          exact .changed rfl ⟨_, _, hlive⟩ fun record => List.suffix_refl _
        · rw [if_neg hfit]
          cases store.capacityFor payload.size (store.policy.relocated payload.size found.1.capacity) with
          | error e => exact .same
          | ok capacity =>
            dsimp only
            cases store.newSlot capacity with
            | error e => exact .same
            | ok placed => exact .changed rfl ⟨_, _, hlive⟩ fun record => List.suffix_cons _ _
    | delete target =>
      simp only [delete]
      cases hlive : store.live target with
      | error e => exact .same
      | ok found => exact .changed rfl ⟨_, _, hlive⟩ fun record => List.suffix_refl _
    | read id =>
      dsimp only
      cases store.live id <;> exact .same
    | resolve id =>
      dsimp only
      cases store.live id <;> exact .same
    | flush => exact .same

/-- The page size is that of the file, for its life. -/
theorem pageSize_respond (store : Store) (event : Event) : (store.respond event).2.pageSize = store.pageSize := by
  have hstep := store.step_respond event
  generalize (store.respond event).2 = store' at hstep
  cases hstep <;> rfl

/-- What an event does not ask to change stays as it is. -/
theorem mem_records_respond {store : Store} {event : Event} {record : StoredRecord} (hrecord : record ∈ store.records)
    (h : ∀ id ∈ record.ids, ¬event.Changes id) : record ∈ (store.respond event).2.records := by
  have hstep := store.step_respond event
  generalize (store.respond event).2 = store' at hstep ⊢
  cases hstep with
  | same => exact hrecord
  | renewed policy => exact hrecord
  | inserted hformer => exact List.mem_cons_of_mem _ hrecord
  | @changed target f stop htarget =>
    have hother : target ∉ record.ids := fun hmem => h target hmem htarget
    exact List.mem_map.2 ⟨record, hrecord, if_neg hother⟩

theorem mem_records_runAll {store : Store} {events : List Event} {record : StoredRecord}
    (hrecord : record ∈ store.records) (h : ∀ event ∈ events, ∀ id ∈ record.ids, ¬event.Changes id) :
    record ∈ (runAll respond events store).2.records := by
  induction events generalizing store with
  | nil => exact hrecord
  | cons event rest ih =>
    rw [runAll_cons]
    exact ih (mem_records_respond hrecord (h event List.mem_cons_self)) fun other hother =>
      h other (List.mem_cons_of_mem _ hother)

theorem pageSize_runAll (store : Store) (events : List Event) :
    (runAll respond events store).2.pageSize = store.pageSize := by
  induction events generalizing store with
  | nil => rfl
  | cons event rest ih => rw [runAll_cons, ih, pageSize_respond]

/-- A record goes on under more identifiers, the new ones in front, and once deleted it stays deleted. -/
theorem exists_grown_respond {store : Store} (hdistinct : store.ids.Nodup) (event : Event) {record : StoredRecord}
    (hrecord : record ∈ store.records) :
    ∃ later ∈ (store.respond event).2.records, record.GrowsTo later := by
  have hstep := store.step_respond event
  generalize (store.respond event).2 = store' at hstep ⊢
  cases hstep with
  | same => exact ⟨record, hrecord, .refl record⟩
  | renewed policy => exact ⟨record, hrecord, .refl record⟩
  | inserted hformer => exact ⟨record, List.mem_cons_of_mem _ hrecord, .refl record⟩
  | @changed target f stop htarget hlive hf =>
    by_cases hmem : target ∈ record.ids
    · refine ⟨f record, List.mem_map.2 ⟨record, hrecord, if_pos hmem⟩, hf record, fun hdead => ?_⟩
      -- what is changed was live
      obtain ⟨found, payload, hfound⟩ := hlive
      rw [live_of_mem hdistinct hrecord hmem, hdead] at hfound
      cases hfound
    · exact ⟨record, List.mem_map.2 ⟨record, hrecord, if_neg hmem⟩, .refl record⟩

theorem exists_grown_runAll {store : Store} {events : List Event}
    (hdistinct : ∀ done, done <+: events → (runAll respond done store).2.ids.Nodup) {record : StoredRecord}
    (hrecord : record ∈ store.records) :
    ∃ later ∈ (runAll respond events store).2.records, record.GrowsTo later := by
  induction events generalizing store record with
  | nil => exact ⟨record, hrecord, .refl record⟩
  | cons event rest ih =>
    obtain ⟨next, hnext, hgrows⟩ := exists_grown_respond (hdistinct [] List.nil_prefix) event hrecord
    obtain ⟨later, hlater, hgrows'⟩ := ih (fun done hdone => hdistinct (event :: done)
      (List.cons_prefix_cons.2 ⟨rfl, hdone⟩)) hnext
    rw [runAll_cons]
    exact ⟨later, hlater, hgrows.trans hgrows'⟩

/-- What has become of a record is found under its identifiers. -/
theorem growsTo_last {store : Store} {done rest : List Event}
    (hdistinct : ∀ front, front <+: done ++ rest → (runAll respond front store).2.ids.Nodup) {other last : StoredRecord}
    (hother : other ∈ (runAll respond done store).2.records)
    (hlast : last ∈ (runAll respond (done ++ rest) store).2.records) {id : RecordId} (hid : id ∈ other.ids)
    (hid' : id ∈ last.ids) : other.GrowsTo last := by
  have hrest : ∀ front, front <+: rest → (runAll respond front (runAll respond done store).2).2.ids.Nodup := by
    intro front hfront
    have hnodup := hdistinct (done ++ front) ((List.prefix_append_right_inj done).2 hfront)
    rwa [runAll_append] at hnodup
  obtain ⟨later, hlater, hgrows⟩ := exists_grown_runAll hrest hother
  have hdistinct' := hrest rest (List.prefix_refl rest)
  rw [runAll_append] at hlast
  have hfound := record?_of_mem hdistinct' hlater (hgrows.ids.mem hid)
  rw [record?_of_mem hdistinct' hlast hid'] at hfound
  rwa [Option.some.inj hfound]

/-- A record that is under the same identifiers at the end of a run was so all the time. -/
theorem exists_unmoved {store : Store} {events : List Event}
    (hdistinct : ∀ done, done <+: events → (runAll respond done store).2.ids.Nodup) {record last : StoredRecord}
    (hrecord : record ∈ store.records) (hlast : last ∈ (runAll respond events store).2.records)
    (hids : last.ids = record.ids) {done : List Event} (hdone : done <+: events) :
    ∃ other ∈ (runAll respond done store).2.records, other.ids = record.ids := by
  obtain ⟨other, hother, hgrows⟩ :=
    exists_grown_runAll (fun front hfront => hdistinct front (hfront.trans hdone)) hrecord
  obtain ⟨rest, rfl⟩ := hdone
  have hmem : record.latest ∈ record.ids := List.mem_cons_self
  have hgrows' := growsTo_last hdistinct hother hlast (hgrows.ids.mem hmem) (hids ▸ hmem)
  have hlength := hgrows'.ids.length_le
  rw [hids] at hlength
  exact ⟨other, hother, (hgrows.ids.eq_of_length_le hlength).symm⟩

/-- A record with the same identifiers has this payload after some part of the run, or nothing if it is deleted then. -/
def Fate (store : Store) (events : List Event) (record : StoredRecord) (payload : Option ByteArray) : Prop :=
  ∃ done, done <+: events ∧ ∃ other ∈ (runAll respond done store).2.records,
    other.ids = record.ids ∧ other.payload = payload

/-- A record that lives at the end of a run lived all the time. -/
theorem Fate.ne_none {store : Store} {events : List Event} {record last : StoredRecord} {payload : Option ByteArray}
    (h : store.Fate events record payload)
    (hdistinct : ∀ done, done <+: events → (runAll respond done store).2.ids.Nodup)
    (hlast : last ∈ (runAll respond events store).2.records) (hids : last.ids = record.ids)
    (hlive : last.payload ≠ none) : payload ≠ none := by
  obtain ⟨done, ⟨rest, rfl⟩, other, hother, hsame, rfl⟩ := h
  have hmem : other.latest ∈ other.ids := List.mem_cons_self
  have hgrows := growsTo_last hdistinct hother hlast hmem (by rwa [hids, ← hsame])
  exact fun hdead => hlive (hgrows.dead hdead)

/-- A record that was deleted stays so. -/
theorem Fate.eq_none {store : Store} {events : List Event} {record : StoredRecord} {payload : Option ByteArray}
    (h : store.Fate events record payload)
    (hdistinct : ∀ done, done <+: events → (runAll respond done store).2.ids.Nodup) (hrecord : record ∈ store.records)
    (hdead : record.payload = none) : payload = none := by
  obtain ⟨done, hdone, other, hother, hsame, rfl⟩ := h
  have hmem : record.latest ∈ record.ids := List.mem_cons_self
  have hfront : ∀ front, front <+: [] ++ done → (runAll respond front store).2.ids.Nodup := fun front hfront =>
    hdistinct front (List.IsPrefix.trans hfront hdone)
  exact (growsTo_last hfront hrecord hother hmem (hsame ▸ hmem)).dead hdead

end Store

namespace Session

variable {σ : Type} [PagedStorage σ] {contract : StorageContract σ} {session session' : Session σ} {layout : Layout}
  {store store' : Store} {event : Event}

/-- Closes the file and opens it again.  `reopen` finds the storage again that was closed. -/
def renew (reopen : σ → σ) (policy : CapacityPolicy) (options : Options) : SessionM σ Reply := fun session =>
  match close session with
  | (.error e, session) => (.error e, session)
  | (.ok (), session) =>
    match openOn (reopen session.storage) policy options with
    | .error (e, storage) => (.error e, { session with storage })
    | .ok session => (.ok .done, session)

/-- What a session does about an event. -/
def handle (reopen : σ → σ) : Event → SessionM σ Reply
  | .request request => perform request
  | .recover => return .counters (← recover)
  | .count => return .counters (← countSlots)
  | .reopen policy options => renew reopen policy options

/-- How the storage is found again matters only to an event that opens it again. -/
theorem handle_congr (reopen reopen' : σ → σ) (h : ∀ policy options, event ≠ .reopen policy options) :
    (handle reopen event : SessionM σ Reply) = handle reopen' event := by
  cases event with
  | reopen policy options => exact absurd rfl (h policy options)
  | _ => rfl

omit [PagedStorage σ] in
/-- An outcome is what the store responds, or an excused failure. -/
theorem Outcome.respond_or_failed {excused : StoreError → Prop} {result : Except StoreError Reply}
    (h : Outcome excused store (store.handle event) result store') :
    store.respond event = (result, store') ∨ store' = store ∧ ∃ e, result = .error e ∧ excused e := by
  unfold Store.respond
  generalize hexpected : store.handle event = expected at h
  cases h with
  | done => exact .inl rfl
  | refused => exact .inl rfl
  | failed he => exact .inr ⟨rfl, _, rfl, he⟩

omit [PagedStorage σ] in
theorem Outcome.same_or_respond {excused : StoreError → Prop} {result : Except StoreError Reply}
    (h : Outcome excused store (store.handle event) result store') :
    store' = store ∨ store' = (store.respond event).2 := by
  rcases h.respond_or_failed with hrespond | ⟨hsame, -⟩
  · exact .inr (congrArg Prod.snd hrespond).symm
  · exact .inl hsame

/-- What comes of an event in a session that serves a store: the session goes on with what the store makes of the
event, or it is over, because the file could not be closed or opened again. -/
inductive Ensues (contract : StorageContract σ) (session : Session σ) (layout : Layout) (store : Store)
    (event : Event) : Except StoreError Reply → Session σ → Prop
  | served {result : Except StoreError Reply} {session' : Session σ} {layout' : Layout} {store' : Store}
      (husable : contract.Usable session'.storage)
      (hserves : (session'.seen contract.toStorageView).Serves layout' store')
      (hmaxHops : session'.maxHops = event.maxHops session.maxHops)
      (houtcome : Outcome (Excuse contract.toStorageView (session.seen contract.toStorageView) layout store) store
        (store.handle event) result store')
      (hclean : (contract.image session.storage).Clean layout store → ¬contract.fallible →
        (contract.image session'.storage).Clean layout' store')
      (hworn : (contract.image session.storage).Clean layout store →
        (contract.image session'.storage).Worn layout' store')
      (htrails : Image.Trails (store.scope event result) (contract.image session.storage)
        (contract.image session'.storage) store.stop store'.stop)
      (htransition : layout.Transition contract.fallible store layout' store')
      (hblank : (contract.image session.storage).BlankFrom store.stop →
        (contract.image session'.storage).BlankFrom store'.stop ∨
          (store.scope event result).appends ∧ contract.fallible ∧ store' = store) :
      Ensues contract session layout store event result session'
  | lost {cause : StorageError} {session' : Session σ} {status : FileStatus} {policy : CapacityPolicy}
      {options : Options} (hevent : event = .reopen policy options) (hfallible : contract.fallible)
      (hkeeps : (contract.image session'.storage).Keeps layout store status)
      (hworn : (contract.image session.storage).Clean layout store →
        (contract.image session'.storage).Worn layout store) :
      Ensues contract session layout store event (.error (.io cause)) session'

/-- What a session does about an event, as long as it is not over. -/
theorem handle_performs {seen : Session Image} (h : seen.Serves layout store) (reopen : σ → σ) (event : Event)
    (hreopen : ∀ policy options, event ≠ .reopen policy options)
    (hrecover : event = .recover → seen.storage.BlankFrom store.stop) :
    Performs contract.toStorageView (handle reopen event) seen
      (Follows contract.toStorageView (store.scope event) seen layout store (store.handle event)) := by
  cases event with
  | request request => exact perform_performs h request
  | recover =>
    have hrecount : Performs contract.toStorageView recover seen _ := recover_performs h (hrecover rfl)
    exact answering_performs Reply.counters hrecount (fun _ => rfl) rfl
  | count =>
    have hcount : Performs contract.toStorageView countSlots seen
        (Follows contract.toStorageView (fun _ => .slots) seen layout store (.ok (store.counters, store))) := by
      refine (countSlots_performs h).mono ?_
      rintro result _ ⟨rfl, rfl | ⟨hfallible, cause, rfl⟩⟩
      · refine Follows.unchanged h ?_
        rw [h.counters_eq]
        exact .done
      · exact Follows.unchanged h (.failed (.io hfallible cause))
    exact answering_performs Reply.counters hcount (fun _ => rfl) rfl
  | reopen policy options => exact absurd rfl (hreopen policy options)

/-- An operation inside the session. -/
private theorem ensues_of_performs {act : SessionM σ Reply} (husable : contract.Usable session.storage)
    (hmaxHops : event.maxHops session.maxHops = session.maxHops)
    (h : Performs contract.toStorageView act (session.seen contract.toStorageView)
      (Follows contract.toStorageView (store.scope event) (session.seen contract.toStorageView) layout store
        (store.handle event))) :
    Ensues contract session layout store event (act session).1 (act session).2 := by
  obtain ⟨husable', layout', store', hadvances, houtcome⟩ := h session husable rfl
  exact .served husable' hadvances.serves (hadvances.maxHops.trans hmaxHops.symm) houtcome hadvances.clean
    hadvances.worn hadvances.trails hadvances.transition hadvances.blank

private theorem renew_ensues (husable : contract.Usable session.storage)
    (h : (session.seen contract.toStorageView).Serves layout store) (policy : CapacityPolicy) (options : Options) :
    Ensues contract session layout store (.reopen policy options) (renew contract.reopen policy options session).1
      (renew contract.reopen policy options session).2 := by
  have htracks : layout.Tracks (contract.image session.storage) store.stop := h.keeps.tracks
  have hclose := close_serves husable h
  unfold renew
  rcases hrun : close session with ⟨e | ⟨⟩, closed⟩
  · rw [hrun] at hclose
    obtain ⟨hfallible, ⟨cause, rfl⟩, status, hkeeps, hchanged⟩ := hclose
    exact .lost rfl hfallible hkeeps fun hclean => (hclean.of_header htracks hchanged).worn hkeeps.tracks
  · rw [hrun] at hclose
    obtain ⟨husable', hkeeps, hchanged⟩ := hclose
    have hopens := openOn_closed husable' hkeeps policy options
    dsimp only
    rcases hopen : openOn (contract.reopen closed.storage) policy options with ⟨e, storage⟩ | session'
    · obtain ⟨hfallible, ⟨cause, rfl⟩, status, hkeeps', hchanged'⟩ := hopens.of_eq_error hopen
      have hworn : (contract.image session.storage).Clean layout store → (contract.image storage).Worn layout store :=
        fun hclean => (hclean.of_header htracks (hchanged.trans hchanged')).worn hkeeps'.tracks
      exact .lost rfl hfallible hkeeps' hworn
    · obtain ⟨husable'', hserves, hmaxHops, hchanged', -⟩ := hopens.of_eq_ok hopen
      have hclean' : (contract.image session.storage).Clean layout store →
          (contract.image session'.storage).Clean layout { store with policy } := fun hclean =>
        ⟨hclean.tidy, (hclean.of_header htracks (hchanged.trans hchanged')).blank⟩
      have hlow := htracks.size_le_stop
      exact .served husable'' hserves hmaxHops .done (fun hclean _ => hclean' hclean)
        (fun hclean => (hclean' hclean).worn hserves.keeps.tracks)
        (.of_changedWithin ((hchanged.trans hchanged').mono (Nat.le_refl _) hlow)) (.same policy)
        fun hblank => .inl (hblank.of_header htracks (hchanged.trans hchanged'))

/-- What comes of an event.  A recount needs nothing behind the slots, as it would take it for slots. -/
theorem handle_ensues (husable : contract.Usable session.storage)
    (h : (session.seen contract.toStorageView).Serves layout store) (event : Event)
    (hrecover : event = .recover → (contract.image session.storage).BlankFrom store.stop) :
    Ensues contract session layout store event (handle contract.reopen event session).1
      (handle contract.reopen event session).2 := by
  cases event with
  | request => exact ensues_of_performs husable rfl (handle_performs h _ _ nofun hrecover)
  | recover => exact ensues_of_performs husable rfl (handle_performs h _ _ nofun hrecover)
  | count => exact ensues_of_performs husable rfl (handle_performs h _ _ nofun hrecover)
  | reopen policy options => exact renew_ensues husable h policy options

end Session

end RecordStore
