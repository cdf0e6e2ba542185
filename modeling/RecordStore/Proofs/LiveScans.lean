import RecordStore.Proofs.Salvage
import RecordStore.Proofs.SlotPlaces

/-!
# Scans of a store that changes

A scan keeps nothing but an offset and its end, and between two steps of it the store may be changed in any way.  Slots
stay where they are and keep their room, so the offset is always that of a slot: the scan comes to the slots that were
there when it began, one after the other, and finds each as it is by then (`scan_passes_all_slots`).
-/

namespace RecordStore

/-- A step of a scan: the slot that it came to, the session in which the visitor saw it, whether the visitor let the
scan go on, and the session that it left. -/
structure ScanStep (σ : Type) where
  slot : ScannedSlot
  session : Session σ
  goOn : Bool
  after : Session σ

namespace Session

variable {σ τ : Type}

/-- The visitor, which also writes down the steps, last first. -/
def recording (visitor : ScannedSlot → τ → StateM (Session σ) (Bool × τ)) (slot : ScannedSlot)
    (seen : τ × List (ScanStep σ)) : StateM (Session σ) (Bool × τ × List (ScanStep σ)) := fun session =>
  match visitor slot seen.1 session with
  | ((goOn, seen'), after) => ((goOn, seen', { slot, session, goOn, after } :: seen.2), after)

private theorem recording_apply {visitor : ScannedSlot → τ → StateM (Session σ) (Bool × τ)} {slot : ScannedSlot}
    {seen seen' : τ} {session after : Session σ} {goOn : Bool}
    (hvisit : visitor slot seen session = ((goOn, seen'), after)) (steps : List (ScanStep σ)) :
    recording visitor slot (seen, steps) session = ((goOn, seen', { slot, session, goOn, after } :: steps), after) := by
  unfold recording
  rw [hvisit]

variable [PagedStorage σ]

/-- What the visitor does to the session is done by requests.  It may choose them by all that it has seen and by how
the requests before them ended. -/
def Requesting (visitor : ScannedSlot → τ → StateM (Session σ) (Bool × τ)) : Prop :=
  ∀ slot seen session, ∃ requests, (visitor slot seen session).2 = (runAll perform requests session).2

/-- Writing the steps down changes nothing about a scan. -/
theorem forEachFrom_recording (visitor : ScannedSlot → τ → StateM (Session σ) (Bool × τ)) (cursor : Cursor) (seen : τ)
    (steps : List (ScanStep σ)) (session : Session σ) :
    let scan := forEachFrom cursor (recording visitor) (seen, steps) session
    ((scan.1.1, scan.1.2.1), scan.2) = forEachFrom cursor visitor seen session := by
  induction hleft : cursor.stop - cursor.offset using Nat.strong_induction_on
    generalizing cursor seen steps session with
  | _ left ih =>
    by_cases hlt : cursor.offset < cursor.stop
    · rw [forEachFrom_of_lt _ hlt, forEachFrom_of_lt _ hlt]
      rcases scanSlot cursor session with ⟨e | slot, found⟩
      · rfl
      · have hpos := slot.header.slotSize_pos
        dsimp only
        rcases hvisit : visitor slot seen found with ⟨⟨_ | _, seen'⟩, after⟩
        · rw [recording_apply hvisit]
        · rw [recording_apply hvisit]
          exact ih _ (by dsimp only; omega) { cursor with offset := cursor.offset + slot.header.slotSize } seen' _ after
            rfl
    · rw [forEachFrom, forEachFrom, if_neg hlt, if_neg hlt]
      rfl

end Session

namespace ScanStep

variable {σ : Type} [PagedStorage σ]

/-- The step came to the slot `id` of the layout, and found it as it was by then. -/
def Shows (contract : StorageContract σ) (layout : Layout) (id : RecordId) (step : ScanStep σ) : Prop :=
  ∃ now : Layout, layout.GrowsTo now ∧
    now.Paved (contract.image step.session.storage) step.session.counters.size ∧ step.slot = now.scanned id

/-- How a scan that ends at `stop` goes on in a session when the slots `ids` of the layout are left to it: it comes to
one after the other, until the visitor stops it or a read of its own fails. -/
inductive Passes (contract : StorageContract σ) (layout : Layout) (stop : Nat) :
    Session σ → List RecordId → List (ScanStep σ) → Option StoreError → Prop
  | done {session : Session σ} : Passes contract layout stop session [] [] none
  | failed {session : Session σ} {id : RecordId} {ids : List RecordId} {cause : StorageError}
      (hfallible : contract.fallible) (hread : session.StepFails contract { offset := id.offset, stop } cause) :
      Passes contract layout stop session (id :: ids) [] (some (.io cause))
  | stopped {session : Session σ} {id : RecordId} {ids : List RecordId} {step : ScanStep σ}
      (hstep : step.Shows contract layout id) (hstop : step.goOn = false) :
      Passes contract layout stop session (id :: ids) [step] none
  | passed {session : Session σ} {id : RecordId} {ids : List RecordId} {step : ScanStep σ} {steps : List (ScanStep σ)}
      {failure : Option StoreError} (hstep : step.Shows contract layout id) (hgoOn : step.goOn = true)
      (hrest : Passes contract layout stop step.after ids steps failure) :
      Passes contract layout stop session (id :: ids) (step :: steps) failure

/-- The session in which a scan that began in `session` goes on after these steps. -/
def next (session : Session σ) (steps : List (ScanStep σ)) : Session σ := steps.foldl (fun _ step => step.after) session

/-- After these steps the scan cannot read the slot of `ids` that it comes to then. -/
def Fails (contract : StorageContract σ) (stop : Nat) (session : Session σ) (ids : List RecordId)
    (steps : List (ScanStep σ)) (cause : StorageError) : Prop :=
  ∃ id, ids[steps.length]? = some id ∧ (next session steps).StepFails contract { offset := id.offset, stop } cause

variable {contract : StorageContract σ} {layout : Layout} {stop : Nat} {session : Session σ} {ids : List RecordId}
  {steps : List (ScanStep σ)} {failure : Option StoreError}

namespace Passes

theorem ids_prefix (h : Passes contract layout stop session ids steps failure) : steps.map (·.slot.id) <+: ids := by
  induction h with
  | done => exact List.nil_prefix
  | failed => exact List.nil_prefix
  | @stopped _ id ids step hstep =>
    obtain ⟨now, -, -, hslot⟩ := hstep
    have hid : step.slot.id = id := congrArg ScannedSlot.id hslot
    exact List.cons_prefix_cons.2 ⟨hid, List.nil_prefix⟩
  | @passed _ id ids step steps _ hstep _ _ ih =>
    obtain ⟨now, -, -, hslot⟩ := hstep
    have hid : step.slot.id = id := congrArg ScannedSlot.id hslot
    exact List.cons_prefix_cons.2 ⟨hid, ih⟩

/-- An error that ends a scan is that of a read that the next step needs. -/
theorem failure_cases (h : Passes contract layout stop session ids steps failure) :
    failure = none ∨
      contract.fallible ∧ ∃ cause, failure = some (.io cause) ∧ Fails contract stop session ids steps cause := by
  induction h with
  | done => exact .inl rfl
  | @failed _ id ids cause hfallible hread => exact .inr ⟨hfallible, cause, rfl, id, rfl, hread⟩
  | stopped => exact .inl rfl
  | passed _ _ _ ih =>
    refine ih.imp_right ?_
    rintro ⟨hfallible, cause, hfailure, id, hid, hread⟩
    exact ⟨hfallible, cause, hfailure, id, hid, hread⟩

/-- A scan that nobody stops comes to all slots. -/
theorem ids_eq (h : Passes contract layout stop session ids steps none) (hgoOn : ∀ step ∈ steps, step.goOn = true) :
    steps.map (·.slot.id) = ids := by
  generalize hfailure : none = failure at h
  induction h with
  | done => rfl
  | failed => cases hfailure
  | @stopped _ id ids step hstep hstop => simp [hstop] at hgoOn
  | @passed _ id ids step steps _ hstep _ _ ih =>
    obtain ⟨now, -, -, hslot⟩ := hstep
    have hid : step.slot.id = id := congrArg ScannedSlot.id hslot
    rw [List.map_cons, hid, ih (fun other hother => hgoOn other (List.mem_cons_of_mem _ hother)) hfailure]

end Passes

end ScanStep

namespace Session

variable {σ τ : Type} [PagedStorage σ] {contract : StorageContract σ} {layout : Layout} {session : Session σ}
  {id : RecordId} {cursor : Cursor}

/-- The session serves a store whose slots have grown from those of the layout. -/
def Outgrows (contract : StorageContract σ) (layout : Layout) (session : Session σ) : Prop :=
  ∃ now store, contract.Usable session.storage ∧ (session.seen contract.toStorageView).Serves now store ∧
    now.Filled store.pageSize ∧ layout.GrowsTo now

/-- Requests add to the slots, whatever becomes of them. -/
theorem Outgrows.requests (h : session.Outgrows contract layout) (requests : List Request) :
    (runAll perform requests session).2.Outgrows contract layout := by
  obtain ⟨now, store, husable, hserves, hfilled, hgrows⟩ := h
  have hrun := runAll_map (handle contract.reopen) Event.request requests session
  have hreopened : ∀ policy options result, (Event.reopen policy options, result) ∈
      (requests.map Event.request).zip (runAll (handle contract.reopen) (requests.map Event.request) session).1 →
        result = .ok .done := by
    intro policy options result hmem
    simpa using (List.of_mem_zip hmem).1
  obtain ⟨later, last, husable', hserves', hfilled', hgrows', -⟩ :=
    run_growsTo husable hserves hfilled (by simp) hreopened
  rw [hrun] at husable' hserves'
  exact ⟨later, last, husable', hserves', hfilled', hgrows.trans hgrows'⟩

/-- A step of a scan finds the slot that the layout has there. -/
theorem Outgrows.scanSlot (h : session.Outgrows contract layout) (hid : id ∈ layout.ids)
    (hoffset : cursor.offset = id.offset) (hend : cursor.offset + layout.size id ≤ cursor.stop) :
    (scanSlot cursor session).2.Outgrows contract layout ∧
      match (scanSlot cursor session).1 with
      | .error e => contract.fallible ∧ ∃ cause, e = .io cause ∧ session.StepFails contract cursor cause
      | .ok slot => slot.header.slotSize = layout.size id ∧
          ∀ goOn after, (ScanStep.mk slot (scanSlot cursor session).2 goOn after).Shows contract layout id := by
  obtain ⟨now, store, husable, hserves, hfilled, hgrows⟩ := h
  have hperforms : Performs contract.toStorageView (Session.scanSlot cursor) _ _ :=
    hserves.walks.scanSlot_performs (hgrows.ids.subset hid) hoffset (by rw [hgrows.size hid]; exact hend)
  obtain ⟨husable', hsame, hresult⟩ := hperforms session husable rfl
  have hwalks := hserves.walks
  have hplace : cursor.offset < session.counters.size := hoffset ▸ hwalks.tracks.offset_lt (hgrows.ids.subset hid)
  rw [← hsame] at hserves
  refine ⟨⟨now, store, husable', hserves, hfilled, hgrows⟩, ?_⟩
  rcases hscan : (Session.scanSlot cursor session).1 with e | slot
  · rw [hscan] at hresult
    obtain ⟨hfallible, cause, hcause⟩ := hresult.resolve_left nofun
    obtain rfl : e = .io cause := by simpa using hcause
    exact ⟨hfallible, cause, rfl, hwalks.scanSlot_eq_io husable hplace hscan⟩
  · rw [hscan] at hresult
    have hslot : slot = now.scanned id := by
      rcases hresult with hresult | ⟨-, cause, hresult⟩
      · simpa using hresult
      · cases hresult
    refine ⟨?_, fun goOn after => ⟨now, hgrows, hserves.paved hfilled, hslot⟩⟩
    rw [hslot]
    exact hgrows.size hid

/-- A scan that is somewhere in the layout passes the slots that are left of it. -/
private theorem forEachFrom_passes {visitor : ScannedSlot → τ → StateM (Session σ) (Bool × τ)}
    (hvisitor : Requesting visitor) (h : session.Outgrows contract layout) {ids : List RecordId}
    (hids : ∀ id ∈ ids, id ∈ layout.ids) {pageSize : Nat}
    (htiles : layout.Tiles pageSize cursor.offset ids cursor.stop) (seen : τ) (before : List (ScanStep σ)) :
    let scan := forEachFrom cursor (recording visitor) (seen, before) session
    ∃ steps, scan.1.2.2 = steps.reverse ++ before ∧
      ScanStep.Passes contract layout cursor.stop session ids steps scan.1.1 := by
  -- the slots in front of the cursor stay, whatever the visitor asks for
  induction ids generalizing cursor session seen before with
  | nil =>
    have hend : cursor.offset = cursor.stop := htiles
    rw [forEachFrom, if_neg (by omega)]
    exact ⟨[], rfl, .done⟩
  | cons id ids ih =>
    have hlt : cursor.offset < cursor.stop := htiles.lt
    obtain ⟨hoffset, -, htiles⟩ := htiles
    obtain ⟨hfound, hscan⟩ := h.scanSlot (hids id List.mem_cons_self) hoffset.symm htiles.le
    rw [forEachFrom_of_lt _ hlt]
    rcases hresult : scanSlot cursor session with ⟨e | slot, found⟩
    · rw [hresult] at hscan
      obtain ⟨hfallible, cause, rfl, hread⟩ := hscan
      exact ⟨[], rfl, .failed hfallible (by rwa [hoffset])⟩
    · rw [hresult] at hscan hfound
      obtain ⟨hsize, hshows⟩ := hscan
      obtain ⟨requests, hafter⟩ := hvisitor slot seen found
      dsimp only
      rcases hvisit : visitor slot seen found with ⟨⟨_ | _, seen'⟩, after⟩
      · rw [recording_apply hvisit]
        exact ⟨[_], rfl, .stopped (hshows _ _) rfl⟩
      · rw [recording_apply hvisit]
        rw [hvisit] at hafter
        have houtgrows := hfound.requests requests
        rw [← hafter] at houtgrows
        rw [← hsize] at htiles
        let next : Cursor := { cursor with offset := cursor.offset + slot.header.slotSize }
        have hrest : layout.Tiles pageSize next.offset ids next.stop := htiles
        obtain ⟨steps, hsteps, hpasses⟩ :=
          ih houtgrows (fun other hother => hids other (List.mem_cons_of_mem _ hother)) hrest seen'
          ({ slot, session := found, goOn := true, after } :: before)
        exact ⟨{ slot, session := found, goOn := true, after } :: steps, by simpa using hsteps,
          .passed (hshows _ _) rfl hpasses⟩

/-- Whatever calls fail in a run from a blank storage, a scan that begins after it comes to the slots that are there by
then, each once and in file order, and to no others, although requests may be made before every step of the scan.  Each
slot is found as it is at its step.  Unless a read that the scan makes itself fails, it ends without an error, and if
its visitor does not stop it, behind the last slot. -/
theorem scan_passes_all_slots {storage : σ} (husable : contract.Usable storage)
    (hblank : (contract.image storage).Blank) {policy : CapacityPolicy} {options : Options}
    (hopen : openOn storage policy options = .ok session) {events : List Event} (hrecover : .recover ∉ events)
    (hreopened : ∀ policy options result, (.reopen policy options, result) ∈
      events.zip (runAll (handle contract.reopen) events session).1 → result = .ok .done)
    (requests : List Request) {visitor : ScannedSlot → τ → StateM (Session σ) (Bool × τ)}
    (hvisitor : Requesting visitor) (seen : τ) :
    let start := (runAll (handle contract.reopen) events session).2
    let changed := (runAll perform requests start).2
    let scan := (forEachFrom start.cursor (recording visitor) (seen, []) changed).1
    let steps := scan.2.2.reverse
    ∃ layout : Layout,
      layout.Paved (contract.image start.storage) start.counters.size ∧
      ScanStep.Passes contract layout start.counters.size changed layout.ids steps scan.1 ∧
      steps.map (·.slot.id) <+: layout.ids ∧
      (scan.1 = none → (∀ step ∈ steps, step.goOn = true) → steps.map (·.slot.id) = layout.ids) ∧
      ((∀ cause, ¬ScanStep.Fails contract start.counters.size changed layout.ids steps cause) →
        scan.1 = none ∧ ((∀ step ∈ steps, step.goOn = true) → steps.map (·.slot.id) = layout.ids)) := by
  obtain ⟨husable', hserves, -⟩ := (openOn_blank husable hblank policy options).of_eq_ok hopen
  have hempty : Layout.empty.Filled (contract.image storage).pageSize := fun id hid => absurd hid List.not_mem_nil
  obtain ⟨layout, store, hstartUsable, hstart, hfilled, -⟩ := run_growsTo husable' hserves hempty hrecover hreopened
  intro start changed scan steps
  have hpaved := hstart.paved hfilled
  have houtgrows : start.Outgrows contract layout := ⟨layout, store, hstartUsable, hstart, hfilled, .refl layout⟩
  have htiles : layout.Tiles _ start.cursor.offset layout.ids start.cursor.stop := hpaved.tracks.tiles
  obtain ⟨passed, hpassed, hpasses⟩ :=
    forEachFrom_passes hvisitor (houtgrows.requests requests) (fun _ hid => hid) htiles seen []
  have hsteps : steps = passed := by
    change scan.2.2.reverse = passed
    rw [show scan.2.2 = passed.reverse ++ [] from hpassed, List.append_nil, List.reverse_reverse]
  rw [hsteps]
  have hpasses : ScanStep.Passes contract layout start.counters.size changed layout.ids passed scan.1 := hpasses
  have hall : scan.1 = none → (∀ step ∈ passed, step.goOn = true) → passed.map (·.slot.id) = layout.ids :=
    fun hend => ScanStep.Passes.ids_eq (hend ▸ hpasses)
  refine ⟨layout, hpaved, hpasses, hpasses.ids_prefix, hall, fun hreads => ?_⟩
  have hend : scan.1 = none := hpasses.failure_cases.resolve_right fun ⟨_, cause, _, hfails⟩ => hreads cause hfails
  exact ⟨hend, hall hend⟩

/-- A visitor that moves the record of every slot that it sees to a new slot. -/
def movingVisitor : ScannedSlot → Nat → StateM (Session (Unreliable Memory)) (Bool × Nat) := fun slot length session =>
  ((true, length + 8), (perform (.update slot.id ⟨Array.replicate length 7⟩) session).2)

private theorem run_movingVisitor : (openOn failingMemory .exactDefault .default).toOption.map (fun session =>
    let start := (runAll (handle (Unreliable.contract Memory.contract).reopen) retriedEvents session).2
    let changed := (runAll perform [.insert ⟨#[2]⟩] start).2
    let scan := (forEachFrom start.cursor (recording movingVisitor) (16, []) changed).1
    scan.2.2.reverse.map fun step => (step.slot.id, step.goOn, step.after.counters.allocated)) =
      some [(firstId, true, 4), (secondId, true, 5)] := by
  decide +kernel

theorem requesting_movingVisitor : Requesting movingVisitor :=
  fun slot length _ => ⟨[.update slot.id ⟨Array.replicate length 7⟩], rfl⟩

theorem scan_passes_all_slots_in_memory : ∃ session, openOn failingMemory .exactDefault .default = .ok session ∧
    let start := (runAll (handle (Unreliable.contract Memory.contract).reopen) retriedEvents session).2
    let changed := (runAll perform [.insert ⟨#[2]⟩] start).2
    let scan := (forEachFrom start.cursor (recording movingVisitor) (16, []) changed).1
    let steps := scan.2.2.reverse
    scan.1 = none ∧ steps.map (fun step => (step.slot.id, step.goOn, step.after.counters.allocated)) =
      [(firstId, true, 4), (secondId, true, 5)] ∧
    ∃ layout : Layout, layout.ids = [firstId, secondId] ∧
      layout.Paved ((Unreliable.contract Memory.contract).image start.storage) start.counters.size ∧
      ScanStep.Passes (Unreliable.readableContract Memory.contract) layout start.counters.size changed layout.ids steps
        none := by
  have hrun := run_movingVisitor
  rcases hopen : openOn failingMemory .exactDefault .default with e | session
  · rw [hopen] at hrun
    cases hrun
  · rw [hopen] at hrun
    have hsteps := Option.some.inj hrun
    have husable : (Unreliable.readableContract Memory.contract).Usable failingMemory :=
      ⟨usable_failingMemory, readable_failingMemory⟩
    obtain ⟨layout, hpaved, hpasses, -, -, hends⟩ :=
      scan_passes_all_slots husable blank_failingMemory hopen
        (show Event.recover ∉ retriedEvents by simp [retriedEvents])
        (fun policy options result hmem => by simpa [retriedEvents] using List.of_mem_zip hmem) [.insert ⟨#[2]⟩]
        requesting_movingVisitor 16
    -- only a write fails
    obtain ⟨hfailure, hall⟩ := hends fun cause hfails => by
      obtain ⟨id, -, hstep⟩ := hfails
      obtain ⟨storage, offset, length, hread⟩ := hstep.exists_read
      exact Unreliable.not_failsToRead not_false hread
    refine ⟨session, rfl, ?_⟩
    intro start changed scan steps
    have hids : steps.map (·.slot.id) = [firstId, secondId] := by
      have h := congrArg (List.map Prod.fst) hsteps
      rwa [List.map_map] at h
    have hgoOns : steps.map (·.goOn) = [true, true] := by
      have h := congrArg (List.map fun step => step.2.1) hsteps
      rwa [List.map_map] at h
    have hgoOn : ∀ step ∈ steps, step.goOn = true := by
      intro step hstep
      have hmem : step.goOn ∈ steps.map (·.goOn) := List.mem_map_of_mem hstep
      rw [hgoOns] at hmem
      simpa using hmem
    refine ⟨hfailure, hsteps, layout, (hall hgoOn).symm.trans hids, hpaved, ?_⟩
    rw [← show scan.1 = none from hfailure]
    exact hpasses

end Session

end RecordStore
