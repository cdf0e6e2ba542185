import RecordStore.Proofs.CalmEvents
import RecordStore.Proofs.ChainStrain
import RecordStore.Proofs.RedirectShape
import RecordStore.Proofs.SlotPlaces

/-!
# Chains after failed rewrites

A redirect that cannot be rewritten after a move leaves chains longer, and the move succeeds all the same.  Every such
move takes one hop from the limit: as long as no record has had more of them than the limit leaves room for, a run is
answered as if no call had failed (`failed_rewrites_are_harmless`), and with one move more an identifier is cut off
(`failed_rewrite_cuts_off`).
-/

namespace RecordStore

open StorageView

namespace Store

variable {store store' : Store} {event : Event} {record record' : StoredRecord} {id target : RecordId}
  {payload : ByteArray} {capacity stop : Nat}

/-- The first identifier of the record that an update asks for. -/
def strainedBy (store : Store) : Event → List RecordId
  | .request (.update target _) => (store.record? target).toList.map (·.first)
  | _ => []

/-- The first identifiers of the records that were updated when a call failed, if each event comes with whether one
did. -/
def strained : Store → List (Event × Bool) → List RecordId
  | _, [] => []
  | store, (event, failed) :: rest =>
    (if failed then store.strainedBy event else []) ++ (store.respond event).2.strained rest

/-- An update that moves a record puts a slot behind the others. -/
theorem stop_lt_of_moves (hpos : 0 < store.pageSize) (hmoves : store.Moves target payload)
    (h : store.update target payload = .ok (id, store')) : store.stop < store'.stop := by
  obtain ⟨record, old, hlive, hlong⟩ := hmoves
  rw [update_of_lt hlive hlong] at h
  obtain ⟨capacity, -, h⟩ := eq_ok_of_bind h
  obtain ⟨⟨latest, stop⟩, hnew, h⟩ := eq_ok_of_bind h
  cases h
  exact stop_lt_of_newSlot hpos hnew

/-- A record that has got a new identifier was asked for. -/
theorem exists_changes (hrecord : record ∈ store.records) (hdistinct : (store.respond event).2.ids.Nodup)
    (hrecord' : record' ∈ (store.respond event).2.records) (hformer : record'.former = record.ids) :
    ∃ id ∈ record.ids, event.Changes id := by
  by_contra hnone
  have hkept := mem_records_respond hrecord fun id hid hchanges => hnone ⟨id, hid, hchanges⟩
  have hlatest : record.latest ∈ record'.ids := by
    rw [StoredRecord.ids, hformer]
    exact List.mem_cons_of_mem _ List.mem_cons_self
  -- both records have the identifier, so they are the same
  have hfound := record?_of_mem hdistinct hrecord' hlatest
  rw [record?_of_mem hdistinct hkept List.mem_cons_self] at hfound
  rw [← Option.some.inj hfound] at hformer
  have hlength := congrArg List.length hformer
  rw [StoredRecord.ids, List.length_cons] at hlength
  omega

end Store

namespace Session

variable {σ : Type} [PagedStorage σ] {inner : StorageContract σ} {session : Session (Unreliable σ)} {store : Store}
  {event : Event} {events : List Event} {strain : RecordId → Nat} {n : Nat}

/-- What a session answers to an event, and whether a call failed. -/
def watch (reopen : Unreliable σ → Unreliable σ) (event : Event) (session : Session (Unreliable σ)) :
    (Except StoreError Reply × Bool) × Session (Unreliable σ) :=
  let ended := handle reopen event session
  ((ended.1, session.storage.failures < ended.2.storage.failures), ended.2)

/-- A session behind which moves lie whose chains could not be shortened: `strain` says how many of each record. -/
structure Weathered (inner : StorageContract σ) (session : Session (Unreliable σ)) (store : Store)
    (strain : RecordId → Nat) (n : Nat) : Prop where
  usable : (Unreliable.readableContract inner).Usable session.storage
  hops : n ≤ session.maxHops
  served : ∃ layout, (session.seen (Unreliable.readableContract inner).toStorageView).Serves layout store ∧
    (inner.image session.storage.inner).BlankFrom store.stop ∧
    ∀ record ∈ store.records, layout.Stretched record (strain record.first)

namespace Weathered

/-- Chains that are stretched no more than the limit leaves room for are short enough. -/
theorem near (h : Weathered inner session store strain n) (hroom : ∀ id, strain id + 2 ≤ n) :
    ∃ layout, (session.seen (Unreliable.readableContract inner).toStorageView).Serves layout store ∧
      (inner.image session.storage.inner).BlankFrom store.stop ∧
      (∀ record ∈ store.records, layout.Stretched record (strain record.first)) ∧
      ∀ record ∈ store.records, ∀ id ∈ record.ids, layout.Near id session.maxHops := by
  obtain ⟨layout, hserves, hblank, hstretched⟩ := h.served
  refine ⟨layout, hserves, hblank, hstretched, fun record hrecord id hid => ?_⟩
  have hnear := (hstretched record hrecord).near (hserves.keeps.represents.stores record hrecord) hid
  exact hnear.mono (Nat.le_trans (hroom record.first) h.hops)

/-- An event in which no call failed. -/
private theorem step_calm (hreliable : ¬inner.fallible) (h : Weathered inner session store strain n)
    (hroom : ∀ id, strain id + 2 ≤ n) (hallows : event.Allows n)
    (hreopen : ∀ policy options, event ≠ .reopen policy options)
    (hcalm : (handle (Unreliable.readableContract inner).reopen event session).2.storage.failures ≤
      session.storage.failures) :
    (handle (Unreliable.readableContract inner).reopen event session).1 = (store.respond event).1 ∧
      Weathered inner (handle (Unreliable.readableContract inner).reopen event session).2 (store.respond event).2 strain
        n := by
  obtain ⟨layout, hserves, hblank, hstretched, hnear⟩ := h.near hroom
  have hfits : session.pageSize < 2 ^ 32 := by
    have hpageSize : store.pageSize = session.pageSize := hserves.pageSize
    rw [← hpageSize]
    exact hserves.keeps.supported.fits
  have hbehind := handle_calm h.usable.2 hfits hreopen (Unreliable.readableContract inner).reopen inner.reopen hcalm
  have hserves' : (session.behind.seen inner.toStorageView).Serves layout store := hserves
  -- without a failure the storage answers as the inner one does, which never fails
  have hinner := handle_ensues h.usable.1.1 hserves' event fun _ => hblank
  have houter := handle_ensues h.usable hserves event fun _ => hblank
  rw [hbehind] at hinner
  generalize (handle (Unreliable.readableContract inner).reopen event session).1 = result at hinner houter ⊢
  generalize (handle (Unreliable.readableContract inner).reopen event session).2 = after at hinner houter ⊢
  cases houter with
  | lost hevent => exact absurd hevent (hreopen _ _)
  | served husable =>
    dsimp only at hinner
    cases hinner with
    | lost hevent => exact absurd hevent (hreopen _ _)
    | @served _ _ layout' store' _ hserves' hmaxHops houtcome _ _ _ htransition hblank' =>
      rcases houtcome.respond_or_failed with hrespond | ⟨-, e, -, he⟩
      · rw [hrespond]
        have hhops := hallows.le_maxHops h.hops
        refine ⟨rfl, husable, Nat.le_trans hhops (Nat.le_of_eq hmaxHops.symm), layout', hserves', ?_,
          fun record hrecord => ?_⟩
        · rcases hblank' hblank with hblank' | ⟨-, hfallible, -⟩
          · exact hblank'
          · exact absurd hfallible hreliable
        · exact (htransition.turns hserves.keeps hrecord).stretched hserves.keeps.represents.stores hstretched
            (fun _ => Nat.le_refl _) fun hfallible => absurd hfallible hreliable
      · exact absurd (he.exists_io hnear).1 hreliable

/-- An event in which calls may have failed, but which succeeded.  Only an update strains the chains of its record. -/
private theorem step_answered {reply : Reply} (h : Weathered inner session store strain n) (hallows : event.Allows n)
    (hevent : (∃ target payload, event = .request (.update target payload)) ∨
      ∃ policy options, event = .reopen policy options)
    (hok : (handle (Unreliable.readableContract inner).reopen event session).1 = .ok reply) :
    (handle (Unreliable.readableContract inner).reopen event session).1 = (store.respond event).1 ∧
      Weathered inner (handle (Unreliable.readableContract inner).reopen event session).2 (store.respond event).2
        (fun id => strain id + (store.strainedBy event).count id) n := by
  obtain ⟨layout, hserves, hblank, hstretched⟩ := h.served
  have hensues := handle_ensues h.usable hserves event fun _ => hblank
  rw [hok] at hensues ⊢
  generalize (handle (Unreliable.readableContract inner).reopen event session).2 = after at hensues ⊢
  cases hensues with
  | @served _ _ layout' store' husable hserves' hmaxHops houtcome _ _ _ htransition hblank' =>
    rcases houtcome.respond_or_failed with hrespond | ⟨-, e, herror, -⟩
    · have hdistinct := hserves'.keeps.represents.distinct
      have hhops := hallows.le_maxHops h.hops
      rw [hrespond]
      refine ⟨rfl, husable, Nat.le_trans hhops (Nat.le_of_eq hmaxHops.symm), layout', hserves', ?_,
        fun record' hrecord' => ?_⟩
      · -- what an append leaves behind when it is cut off is covered by the slot that was appended after all
        rcases hblank' hblank with hblank' | ⟨happends, -, rfl⟩
        · exact hblank'
        · rcases hevent with ⟨target, payload, rfl⟩ | ⟨policy, options, rfl⟩
          · rw [Store.respond_update] at hrespond
            cases hupdate : store'.update target payload with
            | error e =>
              rw [hupdate] at hrespond
              cases hrespond
            | ok answer =>
              rw [hupdate] at hrespond
              have hlt := Store.stop_lt_of_moves hserves.keeps.supported.pos happends hupdate
              rw [show answer.2 = store' from congrArg Prod.snd hrespond] at hlt
              exact absurd hlt (Nat.lt_irrefl _)
          · exact happends.elim
      · refine @Layout.Turns.stretched _ _ _ _ _ (htransition.turns hserves.keeps hrecord') strain
          (fun id => strain id + (store.strainedBy event).count id) hserves.keeps.represents.stores hstretched
          (fun _ => Nat.le_add_right _ _) fun _ record hrecord hformer => ?_
        rw [← show (store.respond event).2 = store' from congrArg Prod.snd hrespond] at hdistinct hrecord'
        -- a chain has grown only by an update of its own record, which strains it
        obtain ⟨id, hid, hchanges⟩ := Store.exists_changes hrecord hdistinct hrecord' hformer
        rcases hevent with ⟨target, payload, rfl⟩ | ⟨policy, options, rfl⟩
        · obtain rfl : target = id := hchanges
          have hfound := Store.record?_of_mem hserves.keeps.represents.distinct hrecord hid
          simp [Store.strainedBy, hfound]
        · exact hchanges.elim
    · cases herror

/-- One event: where calls fail, an update succeeds all the same. -/
theorem step (hreliable : ¬inner.fallible) (h : Weathered inner session store strain n)
    (hroom : ∀ id, strain id + 2 ≤ n) (hallows : event.Allows n)
    (hreopened : ∀ policy options, event = .reopen policy options →
      (watch (Unreliable.readableContract inner).reopen event session).1.1 = .ok .done)
    (hfailed : (watch (Unreliable.readableContract inner).reopen event session).1.2 = true →
      ∃ target payload reply, event = .request (.update target payload) ∧
        (watch (Unreliable.readableContract inner).reopen event session).1.1 = .ok reply) :
    (watch (Unreliable.readableContract inner).reopen event session).1.1 = (store.respond event).1 ∧
      Weathered inner (watch (Unreliable.readableContract inner).reopen event session).2 (store.respond event).2
        (fun id => strain id + (if (watch (Unreliable.readableContract inner).reopen event session).1.2
          then store.strainedBy event else []).count id) n := by
  unfold watch at hreopened hfailed ⊢
  dsimp only at hreopened hfailed ⊢
  by_cases hcount : session.storage.failures <
      (handle (Unreliable.readableContract inner).reopen event session).2.storage.failures
  · obtain ⟨target, payload, reply, hevent, hok⟩ := hfailed (decide_eq_true hcount)
    rw [if_pos (decide_eq_true hcount)]
    exact h.step_answered hallows (.inl ⟨target, payload, hevent⟩) hok
  · simp only [decide_eq_false hcount, Bool.false_eq_true, if_false, List.count_nil, Nat.add_zero]
    by_cases hreopen : ∃ policy options, event = .reopen policy options
    · obtain ⟨policy, options, rfl⟩ := hreopen
      exact h.step_answered hallows (.inr ⟨policy, options, rfl⟩) (hreopened policy options rfl)
    · refine h.step_calm hreliable hroom hallows (fun policy options hevent => ?_) (Nat.le_of_not_lt hcount)
      exact hreopen ⟨policy, options, hevent⟩

/-- Any number of events. -/
theorem run (hreliable : ¬inner.fallible) (h : Weathered inner session store strain n)
    (hevents : ∀ event ∈ events, event.Allows n)
    (hreopened : ∀ policy options result failed, (.reopen policy options, result, failed) ∈
      events.zip (runAll (watch (Unreliable.readableContract inner).reopen) events session).1 → result = .ok .done)
    (hfailed : ∀ event result, (event, result, true) ∈
        events.zip (runAll (watch (Unreliable.readableContract inner).reopen) events session).1 →
      ∃ target payload reply, event = .request (.update target payload) ∧ result = .ok reply)
    (hroom : ∀ id, strain id + (store.strained (events.zip
      ((runAll (watch (Unreliable.readableContract inner).reopen) events session).1.map Prod.snd))).count id + 2 ≤ n) :
    (runAll (watch (Unreliable.readableContract inner).reopen) events session).1.map Prod.fst =
      (runAll Store.respond events store).1 ∧
      ∃ strain', (∀ id, strain' id + 2 ≤ n) ∧
        Weathered inner (runAll (watch (Unreliable.readableContract inner).reopen) events session).2
          (runAll Store.respond events store).2 strain' n := by
  -- each event strains the records by as much as their chains may have grown
  induction events generalizing session store strain with
  | nil => exact ⟨rfl, strain, fun id => Nat.le_trans (by omega) (hroom id), h⟩
  | cons event rest ih =>
    rw [runAll_cons] at hreopened hfailed hroom ⊢
    rw [runAll_cons]
    simp only [List.zip_cons_cons, List.map_cons, Store.strained, List.count_append] at hreopened hfailed hroom ⊢
    obtain ⟨hresult, hnext⟩ := h.step hreliable (fun id => by have := hroom id; omega) (hevents event List.mem_cons_self)
      (fun policy options hevent => hreopened policy options _ _ (by rw [hevent]; exact List.mem_cons_self))
      fun hfailing => hfailed event _ (by rw [← hfailing]; exact List.mem_cons_self)
    obtain ⟨hresults, hlast⟩ := ih hnext (fun other hother => hevents other (List.mem_cons_of_mem _ hother))
      (fun policy options result failed hmem => hreopened policy options result failed (List.mem_cons_of_mem _ hmem))
      (fun other result hmem => hfailed other result (List.mem_cons_of_mem _ hmem))
      fun id => by have := hroom id; omega
    rw [hresult, hresults]
    exact ⟨rfl, hlast⟩

end Weathered

/-- As long as no more moves of a record had rewrites that failed than the limit on redirects leaves room for, a run from a
blank storage in which calls fail after the commit of a move only is answered as the store answers it; and what the
storage holds at its end is what the store has, under every identifier that was given out. -/
theorem failed_rewrites_are_harmless (hreliable : ¬inner.fallible) {storage : Unreliable σ}
    (husable : (Unreliable.contract inner).Usable storage) (hreadable : storage.Readable)
    (hblank : ((Unreliable.contract inner).image storage).Blank) {policy : CapacityPolicy} {options : Options}
    (hopen : openOn storage policy options = .ok session) (hhops : n ≤ options.maxHops)
    (hevents : ∀ event ∈ events, event.Allows n)
    (hreopened : ∀ policy options result failed, (.reopen policy options, result, failed) ∈
      events.zip (runAll (watch (Unreliable.contract inner).reopen) events session).1 → result = .ok .done)
    (hfailed : ∀ event result, (event, result, true) ∈
        events.zip (runAll (watch (Unreliable.contract inner).reopen) events session).1 →
      ∃ target payload reply, event = .request (.update target payload) ∧ result = .ok reply)
    (hroom : ∀ id, ((Store.empty ((Unreliable.contract inner).image storage).pageSize policy).strained (events.zip
      ((runAll (watch (Unreliable.contract inner).reopen) events session).1.map Prod.snd))).count id + 2 ≤ n) :
    let run := runAll (watch (Unreliable.contract inner).reopen) events session
    let expected := runAll Store.respond events (.empty ((Unreliable.contract inner).image storage).pageSize policy)
    run.1.map Prod.fst = expected.1 ∧ run.2.behind.Mirrors expected.2 ∧
      ∀ id, id ∈ expected.2.ids ↔ id ∈ handedOut events (run.1.map Prod.fst) := by
  have husable' : (Unreliable.readableContract inner).Usable storage := ⟨husable, hreadable⟩
  have hopens := openOn_blank husable' hblank policy options
  obtain ⟨hsession, hserves, hmaxHops, hzeros⟩ := hopens.of_eq_ok hopen
  have hstart : Weathered inner session (.empty ((Unreliable.contract inner).image storage).pageSize policy)
      (fun _ => 0) n :=
    ⟨hsession, Nat.le_trans hhops (Nat.le_of_eq hmaxHops.symm), .empty, hserves, hzeros,
      fun record hrecord => absurd hrecord List.not_mem_nil⟩
  obtain ⟨hresults, strain, hstrain, hlast⟩ := hstart.run hreliable hevents hreopened hfailed fun id => by
    rw [Nat.zero_add]
    exact hroom id
  obtain ⟨layout, hserves', -, -, hnear⟩ := hlast.near hstrain
  intro run expected
  have hresults' : run.1.map Prod.fst = expected.1 := hresults
  refine ⟨hresults', mirrors_of_serves hreliable hlast.usable.1.1 hserves' hnear, fun id => ?_⟩
  rw [hresults', Store.mem_ids_runAll]
  exact or_iff_right List.not_mem_nil

/-- A storage in memory of whose writes one fails, behind so many others. -/
def failingWrite (passing : Nat) : Unreliable Memory :=
  let plan : FaultPlan := fun before call _ =>
    if call = .write ∧ before.count .write = passing then .fail else .proceed
  { inner := .zeros 256 0, reported := none, faults := { plan, decided := [], log := [] }, lost := false }

theorem usable_failingWrite (passing : Nat) : (Unreliable.contract Memory.contract).Usable (failingWrite passing) := by
  refine ⟨Memory.usable_zeros (by decide) rfl, rfl, fun before call offset value => ?_⟩
  unfold failingWrite
  dsimp only
  split <;> nofun

theorem readable_failingWrite (passing : Nat) : (failingWrite passing).Readable := by
  refine ⟨rfl, fun before offset => ?_, fun before offset => ?_⟩
  · change (if StorageCall.read = .write ∧ before.count .write = passing then Verdict.fail else .proceed) = .proceed
    simp
  · change (if StorageCall.size = .write ∧ before.count .write = passing then Verdict.fail else .proceed) = .proceed
    simp

theorem blank_failingWrite (passing : Nat) :
    ((Unreliable.contract Memory.contract).image (failingWrite passing)).Blank :=
  show (Memory.zeros 256 0).image.Blank from ⟨⟨by decide, by decide, by decide⟩, fun _ _ => rfl⟩

/-- A record that is moved twice, with a new session after that. -/
def strainedEvents : List Event :=
  [.request (.insert ⟨#[1]⟩), .request (.update firstId ⟨Array.replicate 9 1⟩),
    .request (.update firstId ⟨Array.replicate 17 1⟩), .reopen .exactDefault .default, .request (.resolve secondId)]

/-- After the second move the first slot cannot be pointed at the new one. -/
def strainedResults : List (Except StoreError Reply × Bool) :=
  [(.ok (.id firstId), false), (.ok (.id secondId), false), (.ok (.id thirdId), true), (.ok .done, false),
    (.ok (.id thirdId), false)]

private theorem run_strainedEvents : (openOn (failingWrite 7) .exactDefault .default).toOption.map (fun session =>
    (runAll (watch (Unreliable.contract Memory.contract).reopen) strainedEvents session).1) = some strainedResults := by
  decide +kernel

private theorem strained_strainedEvents : (Store.empty 256 .exactDefault).strained
    (strainedEvents.zip (strainedResults.map Prod.snd)) = [firstId] := by
  decide +kernel

theorem failed_rewrites_are_harmless_in_memory : ∃ session,
    openOn (failingWrite 7) .exactDefault .default = .ok session ∧
    let run := runAll (watch (Unreliable.contract Memory.contract).reopen) strainedEvents session
    run.1 = strainedResults ∧
      run.2.behind.Mirrors (runAll Store.respond strainedEvents (.empty 256 .exactDefault)).2 := by
  have hrun := run_strainedEvents
  rcases hopen : openOn (failingWrite 7) .exactDefault .default with e | session
  · rw [hopen] at hrun
    cases hrun
  · rw [hopen] at hrun
    have hresults : (runAll (watch (Unreliable.contract Memory.contract).reopen) strainedEvents session).1 =
        strainedResults := Option.some.inj hrun
    refine ⟨session, rfl, hresults, ?_⟩
    refine (failed_rewrites_are_harmless (n := 3) id (usable_failingWrite 7) (readable_failingWrite 7)
      (blank_failingWrite 7) hopen (by decide) (show ∀ event ∈ strainedEvents, event.Allows 3 by decide) ?_ ?_ ?_).2.1
    · intro policy options result failed hmem
      rw [hresults] at hmem
      simp only [strainedEvents, strainedResults, List.zip_cons_cons, List.zip_nil_right, List.mem_cons,
        Prod.mk.injEq, reduceCtorEq, false_and, Event.reopen.injEq, List.not_mem_nil, or_self, or_false,
        false_or] at hmem
      exact hmem.2.1
    · intro event result hmem
      rw [hresults] at hmem
      simp only [strainedEvents, strainedResults, List.zip_cons_cons, List.zip_nil_right, List.mem_cons,
        Prod.mk.injEq, Bool.true_eq_false, and_false, and_true, List.not_mem_nil, or_self, or_false,
        false_or] at hmem
      exact ⟨_, _, _, hmem.1, hmem.2⟩
    · intro id
      have hcount : ([firstId] : List RecordId).count id ≤ 1 := List.count_le_length
      rw [hresults]
      change ((Store.empty 256 .exactDefault).strained (strainedEvents.zip (strainedResults.map Prod.snd))).count id + 2 ≤ 3
      rw [strained_strainedEvents]
      omega

/-- The same with another move that could be followed up before the one that could not. -/
def cutOffEvents : List Event :=
  [.request (.insert ⟨#[1]⟩), .request (.update firstId ⟨Array.replicate 9 1⟩),
    .request (.update firstId ⟨Array.replicate 17 1⟩), .request (.update thirdId ⟨Array.replicate 25 1⟩)]

/-- With one move more than the limit leaves room for, an identifier is cut off: nothing can be done through it. -/
theorem failed_rewrite_cuts_off : ∃ session,
    openOn (failingWrite 11) .exactDefault { Options.default with maxHops := 2 } = .ok session ∧
    let run := runAll (watch (Unreliable.contract Memory.contract).reopen) cutOffEvents session
    run.1 = [(.ok (.id firstId), false), (.ok (.id secondId), false), (.ok (.id thirdId), false),
      (.ok (.id fourthId), true)] ∧
      (perform (.read firstId) run.2).1 = .ok (.payload ⟨Array.replicate 25 1⟩) ∧
      [.read secondId, .resolve secondId, .update secondId ⟨#[2]⟩, .delete secondId].map
          (fun request => (perform request run.2).1) =
        List.replicate 4 (.error (.corruption secondId.offset (.tooManyHops secondId 2))) := by
  have hrun : (openOn (failingWrite 11) .exactDefault { Options.default with maxHops := 2 }).toOption.map (fun session =>
      let run := runAll (watch (Unreliable.contract Memory.contract).reopen) cutOffEvents session
      (run.1, (perform (.read firstId) run.2).1,
        [.read secondId, .resolve secondId, .update secondId ⟨#[2]⟩, .delete secondId].map
          fun request => (perform request run.2).1)) =
        some ([(.ok (.id firstId), false), (.ok (.id secondId), false), (.ok (.id thirdId), false),
          (.ok (.id fourthId), true)], .ok (.payload ⟨Array.replicate 25 1⟩),
          List.replicate 4 (.error (.corruption secondId.offset (.tooManyHops secondId 2)))) := by
    decide +kernel
  rcases hopen : openOn (failingWrite 11) .exactDefault { Options.default with maxHops := 2 } with e | session
  · rw [hopen] at hrun
    cases hrun
  · rw [hopen] at hrun
    obtain ⟨hresults, hread, hrequests⟩ : _ ∧ _ ∧ _ := by
      simpa only [Option.map_some, Except.toOption, Option.some.injEq, Prod.mk.injEq] using hrun
    exact ⟨session, rfl, hresults, hread, hrequests⟩

end Session

end RecordStore
