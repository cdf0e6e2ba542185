import RecordStore.Proofs.Failures

/-!
# Recounts after failed calls

A recount finds the records of the store that explains the run, whatever calls failed (`recount_invents_nothing`), as
long as nothing is appended after an update in which a call failed.  Such an update may leave a copy behind the slots;
a slot that is put over a part of it lets the bytes of its payload be taken for slots (`recount_invents_record`).
-/

namespace RecordStore

open StorageView

namespace Session

variable {σ : Type} [PagedStorage σ] {contract : StorageContract σ} {session : Session σ} {layout base : Layout}
  {store : Store} {events : List Event} {n stop : Nat}

/-- A session that has the records of the store, wherever the slots end: it counts them, and what it answers to a lookup
is what the store answers, unless the lookup fails. -/
structure HasRecords (fallible : Prop) (session : Session σ) (store : Store) : Prop where
  counters : session.counters = { store.counters with size := session.counters.size }
  resolve : ∀ id, (resolve id session).1 = (store.live id).map (·.1.latest) ∨
    ∃ e, (resolve id session).1 = .error e ∧ RunExcuse fallible session.maxHops store e
  read : ∀ id, (read id session).1 = (store.live id).map (·.2) ∨
    ∃ e, (read id session).1 = .error e ∧ RunExcuse fallible session.maxHops store e

omit [PagedStorage σ] in
/-- A lookup ends with what is found, or with an excused failure. -/
private theorem Outcome.found_or_failed {α β : Type} {excused : StoreError → Prop} {found : Except StoreError β}
    {result : Except StoreError α} {store' : Store} {f : β → α}
    (h : Outcome excused store (found.map fun answer => (f answer, store)) result store') :
    result = found.map f ∨ ∃ e, result = .error e ∧ excused e := by
  cases found with
  | error e =>
    cases h with
    | refused => exact .inl rfl
    | failed he => exact .inr ⟨_, rfl, he⟩
  | ok answer =>
    cases h with
    | done => exact .inl rfl
    | failed he => exact .inr ⟨_, rfl, he⟩

/-- What a session answers that serves the records of a store. -/
theorem hasRecords_of_serves (husable : contract.Usable session.storage) {policy : CapacityPolicy}
    (h : (session.seen contract.toStorageView).Serves base { store with stop, policy }) :
    HasRecords contract.fallible session store := by
  have hcounters : session.counters = ({ store with stop, policy } : Store).counters := h.counters_eq
  have hexcuse : ∀ e, Excuse contract.toStorageView (session.seen contract.toStorageView) base
      { store with stop, policy } e → RunExcuse contract.fallible session.maxHops store e :=
    fun e he => he.run h.keeps.represents (Nat.le_refl _) (List.Subset.refl store.ids)
  refine ⟨?_, fun id => ?_, fun id => ?_⟩
  · rw [hcounters]
    rfl
  · obtain ⟨-, layout', store', -, houtcome⟩ := resolve_performs h id session husable rfl
    rcases houtcome.found_or_failed with hfound | ⟨e, hfailed, he⟩
    · exact .inl hfound
    · exact .inr ⟨e, hfailed, hexcuse e he⟩
  · obtain ⟨-, layout', store', -, houtcome⟩ := read_performs h id session husable rfl
    rcases houtcome.found_or_failed with hfound | ⟨e, hfailed, he⟩
    · exact .inl hfound
    · exact .inr ⟨e, hfailed, hexcuse e he⟩

/-- Recovery of a session that serves a store leaves it those records, even if it fails. -/
theorem recover_hasRecords (husable : contract.Usable session.storage)
    (h : (session.seen contract.toStorageView).Serves layout store)
    {reach : Nat} (htrail : (contract.image session.storage).Trail store.stop reach) :
    ((recover session).1 = .ok (recover session).2.counters ∨
      contract.fallible ∧ ∃ cause, (recover session).1 = .error (.io cause)) ∧
    HasRecords contract.fallible (recover session).2 store := by
  obtain ⟨base, stop, hpadded, hbase, hends⟩ := htrail.tail h.keeps.tracks
  have hperforms : Performs contract.toStorageView recover (session.seen contract.toStorageView)
      fun result session' =>
        (result = .ok session'.counters ∨ contract.fallible ∧ ∃ cause, result = .error (.io cause)) ∧
        ∃ (layout' : Layout) (stop' : Nat), session'.Serves layout' { store with stop := stop' } := by
    refine recover_performs_of_tail h hpadded hbase hends (fun img result hkeeps _ hresult => ⟨hresult, base, stop, ?_⟩)
      fun hfallible cause => ⟨.inr ⟨hfallible, cause, rfl⟩, layout, store.stop, h⟩
    exact ⟨h.opened, h.policy, h.pageSize, rfl, hkeeps⟩
  obtain ⟨husable', hresult, layout', stop', hserves⟩ := hperforms session husable rfl
  exact ⟨hresult, hasRecords_of_serves husable' hserves⟩

/-- A session that is opened with a recount on a storage that holds the image has the records of the store. -/
def Recounts (img : Image) (store : Store) : Prop :=
  ∀ (τ : Type) [PagedStorage τ] (contract : StorageContract τ) (storage : τ) (policy : CapacityPolicy)
    (options : Options), contract.Usable storage → contract.image storage = img → options.recover = true →
      match openOn storage policy options with
      | .ok session => HasRecords contract.fallible session store
      | .error (e, _) => contract.fallible ∧ ∃ cause, e = .io cause

theorem recounts_of_trail {img : Image} (h : img.Keeps layout store .opened) {reach : Nat}
    (htrail : img.Trail store.stop reach) : Recounts img store := by
  rintro τ _ contract storage policy options husable rfl hrecover
  obtain ⟨base, stop, hpadded, hbase, hends⟩ := htrail.tail h.tracks
  have hopens := openOn_recovering husable h hpadded hbase hends policy hrecover
  rcases hopen : openOn storage policy options with ⟨e, after⟩ | session
  · exact hopens.of_eq_error hopen
  · obtain ⟨husable', hserves, -⟩ := hopens.of_eq_ok hopen
    exact hasRecords_of_serves husable' hserves

/-- Whatever calls fail in a run from a blank storage, a recount afterwards finds the records of the store that explains
the run, whether the session is recovered or the file is opened again, and no identifier that was not given out.  The
run must cover the copies that failed updates leave behind. -/
theorem recount_invents_nothing {storage : σ} (husable : contract.Usable storage)
    (hblank : (contract.image storage).Blank) {policy : CapacityPolicy} {options : Options}
    (hopen : openOn storage policy options = .ok session) (hhops : n ≤ options.maxHops)
    (hevents : ∀ event ∈ events, event.Allows n) (hrecover : .recover ∉ events)
    (hreopened : ∀ policy options result,
      (.reopen policy options, result) ∈ events.zip (runAll (handle contract.reopen) events session).1 →
        result = .ok .done)
    (hburies : (Store.empty (contract.image storage).pageSize policy).Buries
      (events.zip (runAll (handle contract.reopen) events session).1)) :
    let run := runAll (handle contract.reopen) events session
    let recovered := recover run.2
    ∃ store, Explains (RunExcuse contract.fallible n store) (.empty (contract.image storage).pageSize policy)
        events run.1 store ∧
      (∀ id, id ∉ handedOut events run.1 → store.live id = .error (.notFound id)) ∧
      (recovered.1 = .ok recovered.2.counters ∨ contract.fallible ∧ ∃ cause, recovered.1 = .error (.io cause)) ∧
      HasRecords contract.fallible recovered.2 store ∧ Recounts (contract.image run.2.storage) store := by
  obtain ⟨husable', hserves, hmaxHops, hzeros⟩ := (openOn_blank husable hblank policy options).of_eq_ok hopen
  have htrail : (contract.image session.storage).Trail FileHeader.size 0 := .spare hzeros.spare
  rw [← show session.maxHops = options.maxHops from hmaxHops] at hhops
  obtain ⟨layout, store, hexplains, hlastUsable, hlast, hleft⟩ :=
    run_explained husable' hserves hhops hevents hrecover hreopened
  obtain ⟨reach, htrail'⟩ := hleft hburies ⟨0, htrail, fun _ _ _ => Nat.zero_le _⟩
  obtain ⟨hresult, hrecords⟩ := recover_hasRecords hlastUsable hlast htrail'
  refine ⟨store, hexplains, fun id hid => Store.live_of_notMem fun hmem => ?_, hresult, hrecords,
    recounts_of_trail hlast.keeps htrail'⟩
  rcases (hexplains.mem_ids id).1 hmem with hnever | hgiven
  · exact absurd hnever List.not_mem_nil
  · exact hid hgiven

/-- A storage in memory whose fifth write fails, which for a record that is moved right after it was inserted is the
redirect to the copy. -/
def failingMemory : Unreliable Memory :=
  let plan : FaultPlan := fun before call _ => if call = .write ∧ before.count .write = 4 then .fail else .proceed
  { inner := .zeros 256 0, reported := none, faults := { plan, decided := [], log := [] }, lost := false }

theorem usable_failingMemory : (Unreliable.contract Memory.contract).Usable failingMemory := by
  refine ⟨Memory.usable_zeros (by decide) rfl, rfl, fun before call offset value => ?_⟩
  unfold failingMemory
  dsimp only
  split <;> nofun

/-- No read fails, only a write does. -/
theorem readable_failingMemory : failingMemory.Readable := ⟨rfl, fun _ _ => rfl, fun _ _ => rfl⟩

theorem blank_failingMemory : ((Unreliable.contract Memory.contract).image failingMemory).Blank :=
  ⟨⟨by decide, by decide, by decide⟩, fun _ _ => rfl⟩

/-- Nine bytes, which need another slot. -/
def longer : ByteArray := ⟨#[1, 2, 3, 4, 5, 6, 7, 8, 9]⟩

/-- An update that leaves a copy behind the slots, and covers it when it is tried again. -/
def retriedEvents : List Event :=
  [.request (.insert ⟨#[1]⟩), .request (.update firstId longer), .request (.update firstId longer)]

def retriedResults : List (Except StoreError Reply) :=
  [.ok (.id firstId), .error (.io (.io (.injected .write))), .ok (.id secondId)]

private theorem run_retriedEvents : (openOn failingMemory .exactDefault .default).toOption.map (fun session =>
    (runAll (handle (Unreliable.contract Memory.contract).reopen) retriedEvents session).1) = some retriedResults := by
  decide +kernel

private theorem buries_retriedEvents : (Store.empty 256 .exactDefault).Buries (retriedEvents.zip retriedResults) := by
  refine List.pairwise_cons.2 ⟨fun later _ reach hleaves => hleaves.elim, ?_⟩
  refine List.pairwise_cons.2 ⟨fun later hlater reach hleaves _ => ?_, List.pairwise_singleton _ _⟩
  obtain ⟨id, after, hafter, rfl⟩ := hleaves
  rw [List.mem_singleton.1 hlater]
  cases hafter
  decide

theorem recount_invents_nothing_in_memory : ∃ session, openOn failingMemory .exactDefault .default = .ok session ∧
    let last := (runAll (handle (Unreliable.contract Memory.contract).reopen) retriedEvents session).2
    ∃ store, Explains (RunExcuse True 3 store) (.empty 256 .exactDefault) retriedEvents retriedResults store ∧
      HasRecords True (recover last).2 store ∧
      Recounts ((Unreliable.contract Memory.contract).image last.storage) store := by
  have hrun := run_retriedEvents
  rcases hopen : openOn failingMemory .exactDefault .default with e | session
  · rw [hopen] at hrun
    cases hrun
  · rw [hopen] at hrun
    have hresults : (runAll (handle (Unreliable.contract Memory.contract).reopen) retriedEvents session).1 =
        retriedResults := Option.some.inj hrun
    have hburies : (Store.empty 256 .exactDefault).Buries (retriedEvents.zip
        (runAll (handle (Unreliable.contract Memory.contract).reopen) retriedEvents session).1) := by
      rw [hresults]
      exact buries_retriedEvents
    obtain ⟨store, hexplains, -, -, hrecords, hrecounts⟩ :=
      recount_invents_nothing (n := 3) usable_failingMemory blank_failingMemory hopen (by decide)
        (by simp [retriedEvents, Event.Allows]) (by simp [retriedEvents])
        (fun policy options result hmem => by simpa [retriedEvents] using List.of_mem_zip hmem) hburies
    rw [hresults] at hexplains
    exact ⟨session, rfl, store, hexplains, hrecords, hrecounts⟩

/-- Behind the first eight bytes of a payload in the slot of `secondId` with a relocated copy. -/
def buriedId : RecordId := ⟨14, by decide, by decide⟩

/-- Eight zeros and a slot with eight bytes. -/
def forged : ByteArray :=
  ⟨#[0, 0, 0, 0, 0, 0, 0, 0, 1, 0, 0, 0, 8, 0, 0, 0, 8, 0, 0, 0, 0, 0, 0, 0, 102, 97, 98, 108, 101, 100, 10, 10]⟩

/-- Where a copy is covered in part, the rest of its payload is taken for a slot. -/
theorem recount_invents_record : ∃ session, openOn failingMemory .exactDefault .default = .ok session ∧
    let run := runAll perform [.insert ⟨#[1]⟩, .update firstId forged, .insert ⟨#[2]⟩] session
    run.1 = [.ok (.id firstId), .error (.io (.io (.injected .write))), .ok (.id secondId)] ∧
      (resolve buriedId run.2).1 = .error (.notFound buriedId) ∧
      (recover run.2).1 = .ok ⟨3, 0, 0, 10, 10, 136⟩ ∧ (resolve buriedId (recover run.2).2).1 = .ok buriedId := by
  have hrun : (openOn failingMemory .exactDefault .default).toOption.map (fun session =>
      let run := runAll perform [.insert ⟨#[1]⟩, .update firstId forged, .insert ⟨#[2]⟩] session
      (run.1, (resolve buriedId run.2).1, (recover run.2).1, (resolve buriedId (recover run.2).2).1)) =
        some ([.ok (.id firstId), .error (.io (.io (.injected .write))), .ok (.id secondId)],
          .error (.notFound buriedId), .ok ⟨3, 0, 0, 10, 10, 136⟩, .ok buriedId) := by
    decide +kernel
  rcases hopen : openOn failingMemory .exactDefault .default with e | session
  · rw [hopen] at hrun
    cases hrun
  · rw [hopen] at hrun
    obtain ⟨hresults, hmissing, hrecounted, hfound⟩ : _ ∧ _ ∧ _ ∧ _ := by simpa using Option.some.inj hrun
    exact ⟨session, rfl, hresults, hmissing, hrecounted, hfound⟩

end Session

end RecordStore
