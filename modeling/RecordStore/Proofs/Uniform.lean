import RecordStore.Proofs.Dialogue

/-!
# Operations as dialogues

The operations of a session make the same calls on every storage, and go on in the same way from the same answers.
`Uniform` says so of work on slots and `UniformIn` of an operation of a session, with one rule for each way in which
such work is put together; `handle_uniform` is the result for the events that do not end the session, and opening
(`loadHeader_uniform`, `start_uniform`) and the steps of a scan (`scanSlot_uniform`) are dialogues as well.
-/

namespace RecordStore

variable {α β : Type}

/-- Work on slots that is one dialogue, whatever the storage. -/
def Uniform (act : ∀ (σ : Type) [PagedStorage σ], SlotM σ α) : Prop :=
  ∃ dialogue : Dialogue (Except StoreError α), ∀ (σ : Type) [PagedStorage σ] (storage : σ),
    act σ storage = dialogue.run storage

namespace Uniform

variable {act : ∀ (σ : Type) [PagedStorage σ], SlotM σ α}

theorem pure (a : α) : Uniform fun σ _ => (Pure.pure a : SlotM σ α) := ⟨.done (.ok a), fun _ _ _ => rfl⟩

theorem throw (e : StoreError) : Uniform fun σ _ => (MonadExcept.throw e : SlotM σ α) :=
  ⟨.done (.error e), fun _ _ _ => rfl⟩

theorem ofExcept (result : Except StoreError α) : Uniform fun σ _ => (liftExcept result : SlotM σ α) := by
  cases result with
  | error e => exact throw e
  | ok a => exact pure a

/-- The dialogue after one with the result `result`. -/
private def goOn (rest : α → Dialogue (Except StoreError β)) : Except StoreError α → Dialogue (Except StoreError β)
  | .ok a => rest a
  | .error e => .done (.error e)

theorem bind {next : ∀ (σ : Type) [PagedStorage σ], α → SlotM σ β} (h : Uniform act)
    (hnext : ∀ a, Uniform fun σ _ => next σ a) : Uniform fun σ _ => act σ >>= next σ := by
  obtain ⟨dialogue, hdialogue⟩ := h
  choose rest hrest using hnext
  refine ⟨dialogue.bind (goOn rest), fun σ _ storage => ?_⟩
  change (act σ >>= next σ) storage = _
  rw [bind_apply, hdialogue, Dialogue.run_bind]
  rcases dialogue.run storage with ⟨e | a, after⟩
  · rfl
  · exact hrest a σ after

theorem attempt (h : Uniform act) : Uniform fun σ _ => SlotM.attempt (act σ) := by
  obtain ⟨dialogue, hdialogue⟩ := h
  refine ⟨dialogue.bind fun result => .done (.ok result), fun σ _ storage => ?_⟩
  change (match act σ storage with | (result, after) => (Except.ok result, after)) = _
  rw [hdialogue, Dialogue.run_bind]
  rfl

theorem ite {act' : ∀ (σ : Type) [PagedStorage σ], SlotM σ α} {c : Prop} [Decidable c] (h : c → Uniform act)
    (h' : ¬c → Uniform act') : Uniform fun σ _ => if c then act σ else act' σ := by
  by_cases hc : c
  · simp only [if_pos hc]
    exact h hc
  · simp only [if_neg hc]
    exact h' hc

private theorem call (call : SlotCall) : Uniform fun _ _ => SlotM.onStorage call.run :=
  ⟨.ask call fun answer => .done (answer.mapError StoreError.io), fun _ _ _ => rfl⟩

theorem read (offset length : Nat) : Uniform fun σ _ =>
    (SlotM.onStorage (PagedStorage.read offset length) : SlotM σ ByteArray) := call (.read offset length)

theorem write (offset : Nat) (data : ByteArray) : Uniform fun σ _ =>
    (SlotM.onStorage (PagedStorage.write offset data) : SlotM σ Unit) := call (.write offset data)

theorem size : Uniform fun σ _ => (SlotM.onStorage PagedStorage.size : SlotM σ Nat) := call .size

theorem grow {target : Nat} (h : target ≤ reach) : Uniform fun σ _ =>
    (SlotM.onStorage (PagedStorage.grow target) : SlotM σ Unit) := call (.grow target h)

theorem flush : Uniform fun σ _ => (SlotM.onStorage PagedStorage.flush : SlotM σ Unit) := call .flush

end Uniform

/-! ### Work on slots -/

namespace Region

variable (region : Region)

theorem slotAt_uniform (offset : Nat) : Uniform fun σ _ => (region.slotAt offset : SlotM σ SlotHeader) := by
  unfold slotAt
  apply Uniform.bind (.read _ _)
  intro raw
  cases SlotHeader.decode offset raw.data.toList with
  | error fault => exact .throw _
  | ok header =>
    apply Uniform.ite
    · exact fun _ => .throw _
    · exact fun _ => .pure _

theorem isSlot_uniform (id : RecordId) : Uniform fun σ _ => (region.isSlot id : SlotM σ Bool) := by
  unfold isSlot
  refine .ite (fun _ => ?_) fun _ => .pure _
  unfold isSlotStart
  refine .ite (fun _ => .pure _) fun _ => ?_
  exact .bind (.read _ _) fun page => .ofExcept _

theorem redirectCapacity_uniform (id : RecordId) :
    Uniform fun σ _ => (region.redirectCapacity id : SlotM σ Nat) := by
  unfold redirectCapacity
  apply Uniform.bind (region.slotAt_uniform _)
  intro header
  cases header with
  | moved capacity target => exact .pure _
  | live capacity length origin => exact .throw _
  | deleted capacity length relocated => exact .throw _
  | padding capacity => exact .throw _

theorem follow_uniform (maxHops : Nat) (id current : RecordId) (header : SlotHeader) (passed : List Redirect) :
    Uniform fun σ _ => (region.follow maxHops id current header passed : SlotM σ Resolution) := by
  induction hn : maxHops - passed.length generalizing current header passed with
  | zero =>
    unfold follow
    cases header with
    | live capacity length origin => exact .pure _
    | deleted capacity length relocated => exact .pure _
    | padding capacity => cases passed.getLast? <;> exact .throw _
    | moved capacity target =>
      refine .ite (fun _ => .throw _) fun _ => .ite (fun hlt => ?_) fun _ => .throw _
      omega
  | succ n ih =>
    unfold follow
    cases header with
    | live capacity length origin => exact .pure _
    | deleted capacity length relocated => exact .pure _
    | padding capacity => cases passed.getLast? <;> exact .throw _
    | moved capacity target =>
      refine .ite (fun _ => .throw _) fun _ => .ite (fun hlt => ?_) fun _ => .throw _
      apply Uniform.bind (region.isSlot_uniform target)
      intro found
      refine .ite (fun _ => ?_) fun _ => .throw _
      apply Uniform.bind (region.slotAt_uniform _)
      intro next
      apply ih
      rw [List.length_append, List.length_singleton]
      omega

theorem resolve_uniform (maxHops : Nat) (id : RecordId) :
    Uniform fun σ _ => (region.resolve maxHops id : SlotM σ Resolution) := by
  unfold resolve
  apply Uniform.bind (region.isSlot_uniform id)
  intro found
  refine .ite (fun _ => ?_) fun _ => .throw _
  exact .bind (region.slotAt_uniform _) fun header => region.follow_uniform maxHops id id header []

theorem takeCensus_uniform (census : Census) :
    Uniform fun σ _ => (region.takeCensus census : SlotM σ Census) := by
  induction hn : region.stop - census.offset using Nat.strongRecOn generalizing census with
  | ind n ih =>
    unfold takeCensus
    refine .ite (fun hlt => ?_) fun _ => .pure _
    apply Uniform.bind (region.slotAt_uniform _)
    intro header
    apply ih (region.stop - (census.count header).offset) _ _ rfl
    have hpos := header.slotSize_pos
    change region.stop - (census.offset + header.slotSize) < n
    omega

theorem extendCensus_uniform (census : Census) :
    Uniform fun σ _ => (region.extendCensus census : SlotM σ Census) := by
  induction hn : region.stop - census.offset using Nat.strongRecOn generalizing census with
  | ind n ih =>
    unfold extendCensus
    refine .ite (fun hlt => ?_) fun _ => .pure _
    apply Uniform.bind (.attempt (region.slotAt_uniform _))
    intro found
    cases found with
    | error e =>
      cases e with
      | corruption offset damage => exact .pure _
      | _ => exact .throw _
    | ok header =>
      refine .ite (fun _ => .pure _) fun _ => ?_
      apply ih (region.stop - (census.count header).offset) _ _ rfl
      have hpos := header.slotSize_pos
      change region.stop - (census.offset + header.slotSize) < n
      omega

theorem recount_uniform : Uniform fun σ _ => (region.recount : SlotM σ Counters) := by
  unfold recount
  refine .bind (region.takeCensus_uniform _) fun census => .bind .size fun size => ?_
  exact .bind (extendCensus_uniform _ _) fun census => .pure _

theorem writeHeader_uniform (offset : Nat) (header : SlotHeader) :
    Uniform fun σ _ => (writeHeader offset header : SlotM σ Unit) := .write _ _

theorem append_uniform {header : SlotHeader} (hsize : header.slotSize ≤ 2 ^ 32) (payload : ByteArray) :
    Uniform fun σ _ => (region.append header payload : SlotM σ (RecordId × Nat)) := by
  unfold append
  dsimp only
  cases hid : RecordId.ofOffset? (region.placement header.slotSize).offset with
  | none => exact .throw _
  | some id =>
    have hreach : (region.placement header.slotSize).offset + header.slotSize ≤ reach :=
      RecordId.offset_of_ofOffset? hid ▸ id.offset_add_le_reach hsize
    have hwrite : Uniform fun σ _ => (do
        SlotM.onStorage (PagedStorage.grow ((region.placement header.slotSize).offset + header.slotSize))
        writeSlot (region.placement header.slotSize).offset header payload
        return (id, (region.placement header.slotSize).offset + header.slotSize) : SlotM σ (RecordId × Nat)) :=
      .bind (.grow hreach) fun _ => .bind (.write _ _) fun _ => .pure _
    cases (region.placement header.slotSize).padding with
    | none => exact hwrite
    | some capacity => exact .bind (writeHeader_uniform _ _) fun _ => hwrite

end Region

/-! ### Sessions -/

namespace Session

variable {τ σ : Type}

/-- The session on another storage. -/
def on (frame : Session τ) (storage : σ) : Session σ := { frame with storage }

@[simp] theorem header_on (frame : Session τ) (storage : σ) : (frame.on storage).header = frame.header := rfl

@[simp] theorem region_on (frame : Session τ) (storage : σ) : (frame.on storage).region = frame.region := rfl

@[simp] theorem counters_on (frame : Session τ) (storage : σ) : (frame.on storage).counters = frame.counters := rfl

@[simp] theorem policy_on (frame : Session τ) (storage : σ) : (frame.on storage).policy = frame.policy := rfl

@[simp] theorem maxHops_on (frame : Session τ) (storage : σ) : (frame.on storage).maxHops = frame.maxHops := rfl

@[simp] theorem pageSize_on (frame : Session τ) (storage : σ) : (frame.on storage).pageSize = frame.pageSize := rfl

@[simp] theorem wasClosedProperly_on (frame : Session τ) (storage : σ) :
    (frame.on storage).wasClosedProperly = frame.wasClosedProperly := rfl

@[simp] theorem closed_on (frame : Session τ) (storage : σ) : (frame.on storage).closed = frame.closed := rfl

@[simp] theorem capacityFor_on (frame : Session τ) (storage : σ) (length desired : Nat) :
    (frame.on storage).capacityFor length desired = frame.capacityFor length desired := rfl

/-- A slot for a capacity that is given out fits a page. -/
theorem slotSize_le_of_capacityFor {frame : Session τ} (hfits : frame.pageSize < 2 ^ 32) {length desired capacity : Nat}
    (h : frame.capacityFor length desired = .ok capacity) (origin : Option RecordId) :
    (SlotHeader.live capacity length origin).slotSize ≤ 2 ^ 32 := by
  obtain ⟨-, hfit⟩ := capacityFor_eq_ok h
  apply alignUp_le
  · change SlotHeader.fullSize + capacity ≤ 2 ^ 32
    unfold SlotHeader.fullSize at *
    omega
  · decide

/-- An operation that is one dialogue in sessions that differ in their storage only.  The operation may look at the
storage that it starts from, as it does when it looks at the session. -/
def UniformIn (frame : Session Unit) (act : ∀ (σ : Type) [PagedStorage σ], σ → SessionM σ α) : Prop :=
  ∃ dialogue : Dialogue (Except StoreError α × Session Unit), ∀ (σ : Type) [PagedStorage σ] (storage : σ),
    (dialogue.run storage).1.2.pageSize = frame.pageSize ∧
      act σ storage (frame.on storage) =
        ((dialogue.run storage).1.1, (dialogue.run storage).1.2.on (dialogue.run storage).2)

namespace UniformIn

variable {frame : Session Unit} {act : ∀ (σ : Type) [PagedStorage σ], SessionM σ α}

theorem pure (a : α) : UniformIn frame fun σ _ _ => (Pure.pure a : SessionM σ α) :=
  ⟨.done (.ok a, frame), fun _ _ _ => ⟨rfl, rfl⟩⟩

theorem throw (e : StoreError) : UniformIn frame fun σ _ _ => (MonadExcept.throw e : SessionM σ α) :=
  ⟨.done (.error e, frame), fun _ _ _ => ⟨rfl, rfl⟩⟩

/-- The dialogue after one that ends so. -/
private def goOn (rest : α → (frame' : Session Unit) → frame'.pageSize = frame.pageSize →
    Dialogue (Except StoreError β × Session Unit)) :
    Except StoreError α × Session Unit → Dialogue (Except StoreError β × Session Unit)
  | (.ok a, frame') => if h : frame'.pageSize = frame.pageSize then rest a frame' h else .done (.error .closed, frame)
  | (.error e, frame') => .done (.error e, frame')

theorem bind {next : ∀ (σ : Type) [PagedStorage σ], α → SessionM σ β} (h : UniformIn frame fun σ _ _ => act σ)
    (hnext : ∀ a frame', frame'.pageSize = frame.pageSize → UniformIn frame' fun σ _ _ => next σ a) :
    UniformIn frame fun σ _ _ => act σ >>= next σ := by
  obtain ⟨dialogue, hdialogue⟩ := h
  choose rest hrest using hnext
  refine ⟨dialogue.bind (goOn rest), fun σ _ storage => ?_⟩
  obtain ⟨hpageSize, happly⟩ := hdialogue σ storage
  dsimp only at happly
  change _ ∧ (act σ >>= next σ) (frame.on storage) = _
  rw [bind_apply, happly, Dialogue.run_bind]
  rcases hended : dialogue.run storage with ⟨⟨e | a, frame'⟩, after⟩
  · rw [hended] at hpageSize
    exact ⟨hpageSize, rfl⟩
  · rw [hended] at hpageSize
    dsimp only at hpageSize ⊢
    rw [show goOn rest (.ok a, frame') = rest a frame' hpageSize from dif_pos hpageSize]
    obtain ⟨hpageSize', happly'⟩ := hrest a frame' hpageSize σ after
    exact ⟨hpageSize'.trans hpageSize, happly'⟩

theorem get_bind {next : ∀ (σ : Type) [PagedStorage σ], Session σ → SessionM σ β}
    (h : UniformIn frame fun σ _ storage => next σ (frame.on storage)) : UniformIn frame fun σ _ _ => get >>= next σ :=
  h

theorem ofExcept_bind {result : Except StoreError α} {next : ∀ (σ : Type) [PagedStorage σ], α → SessionM σ β}
    (h : ∀ a, result = .ok a → UniformIn frame fun σ _ _ => next σ a) :
    UniformIn frame fun σ _ _ => liftExcept result >>= next σ := by
  cases result with
  | error e => exact ⟨.done (.error e, frame), fun _ _ _ => ⟨rfl, rfl⟩⟩
  | ok a => exact h a rfl

theorem onSlots {act : ∀ (σ : Type) [PagedStorage σ], SlotM σ α} (h : Uniform act) :
    UniformIn frame fun σ _ _ => Session.onSlots (act σ) := by
  obtain ⟨dialogue, hdialogue⟩ := h
  refine ⟨dialogue.bind fun result => .done (result, frame), fun σ _ storage => ?_⟩
  rw [Dialogue.run_bind]
  refine ⟨rfl, ?_⟩
  unfold Session.onSlots
  change (match act σ storage with | (result, after) => (result, frame.on after)) = _
  rw [hdialogue]
  rfl

theorem setCounters (counters : Counters) : UniformIn frame fun _ _ _ => Session.setCounters counters :=
  ⟨.done (.ok (), { frame with header := { frame.header with counters } }), fun _ _ _ => ⟨rfl, rfl⟩⟩

theorem ensureOpen : UniformIn frame fun σ _ _ => (Session.ensureOpen : SessionM σ Unit) := by
  unfold Session.ensureOpen
  refine get_bind ?_
  cases hclosed : frame.closed with
  | true =>
    simp only [closed_on, hclosed, if_true]
    exact throw _
  | false =>
    simp only [closed_on, hclosed]
    exact pure _

end UniformIn

/-! ### Operations -/

variable {frame : Session Unit}

theorem resolveSlot_uniform (id : RecordId) :
    UniformIn frame fun σ _ _ => (resolveSlot id : SessionM σ Resolution) := by
  unfold resolveSlot
  refine .get_bind ?_
  simp only [region_on, maxHops_on]
  exact .onSlots (Region.resolve_uniform _ _ _)

theorem resolve_uniform (id : RecordId) : UniformIn frame fun σ _ _ => (resolve id : SessionM σ RecordId) := by
  unfold resolve
  refine .bind .ensureOpen fun _ _ _ => .bind (resolveSlot_uniform id) fun found _ _ => ?_
  cases found.header with
  | live capacity length origin => exact .pure _
  | moved capacity target => exact .throw _
  | deleted capacity length relocated => exact .throw _
  | padding capacity => exact .throw _

theorem read_uniform (id : RecordId) : UniformIn frame fun σ _ _ => (read id : SessionM σ ByteArray) := by
  unfold read
  refine .bind .ensureOpen fun _ _ _ => .bind (resolveSlot_uniform id) fun found _ _ => ?_
  cases found.header with
  | live capacity length origin => exact .onSlots (.read _ _)
  | moved capacity target => exact .throw _
  | deleted capacity length relocated => exact .throw _
  | padding capacity => exact .throw _

theorem insert_uniform (hfits : frame.pageSize < 2 ^ 32) (payload : ByteArray) :
    UniformIn frame fun σ _ _ => (insert payload : SessionM σ RecordId) := by
  unfold insert
  refine .bind .ensureOpen fun _ frame' hpageSize => ?_
  rw [← hpageSize] at hfits
  refine .get_bind ?_
  simp only [region_on, counters_on, policy_on, capacityFor_on]
  refine .ofExcept_bind fun capacity hcapacity => ?_
  have hsize := slotSize_le_of_capacityFor hfits hcapacity none
  refine .bind (.onSlots (Region.append_uniform _ hsize payload)) fun ⟨id, stop⟩ _ _ => ?_
  exact .bind (.setCounters _) fun _ _ _ => .pure _

theorem overwriteRedirects_uniform (header : Redirect → SlotHeader) (redirects : List Redirect) :
    Uniform fun σ _ => (overwriteRedirects header redirects : SlotM σ Unit) := by
  induction redirects with
  | nil => exact .pure _
  | cons redirect rest ih =>
    unfold overwriteRedirects
    exact .bind (.attempt (Region.writeHeader_uniform _ _)) fun _ => ih

theorem shortenChain_uniform (region : Region) (origin : RecordId) (previous : Redirect) (target : RecordId)
    (passed : List Redirect) :
    Uniform fun σ _ => (shortenChain region origin previous target passed : SlotM σ Unit) := by
  unfold shortenChain
  have hpoint : ∀ capacity, Uniform fun σ _ =>
      (Region.writeHeader origin.offset (.moved capacity target) : SlotM σ Unit) :=
    fun capacity => Region.writeHeader_uniform _ _
  refine .bind (.attempt ?_) fun shortened => ?_
  · cases passed.find? (·.id = origin) with
    | some redirect => exact .bind (.pure _) hpoint
    | none => exact .bind (region.redirectCapacity_uniform origin) hpoint
  · cases shortened with
    | error e => exact .pure _
    | ok => exact overwriteRedirects_uniform _ _

theorem redirectsToBury_uniform (region : Region) (origin : Option RecordId) (passed : List Redirect) :
    Uniform fun σ _ => (redirectsToBury region origin passed : SlotM σ (List Redirect)) := by
  unfold redirectsToBury
  cases origin.filter fun origin => !passed.any (·.id = origin) with
  | none => exact .pure _
  | some origin =>
    refine .bind (.attempt (region.redirectCapacity_uniform origin)) fun found => ?_
    cases found with
    | error e => exact .pure _
    | ok capacity => exact .pure _

theorem relocate_uniform (hfits : frame.pageSize < 2 ^ 32) (found : Resolution) (oldCapacity oldLength : Nat)
    (origin : Option RecordId) (payload : ByteArray) :
    UniformIn frame fun σ _ _ => (relocate found oldCapacity oldLength origin payload : SessionM σ RecordId) := by
  unfold relocate
  refine .get_bind ?_
  simp only [region_on, counters_on, policy_on, capacityFor_on]
  refine .ofExcept_bind fun capacity hcapacity => .ofExcept_bind fun livePayload _ => .ofExcept_bind
    fun liveCapacity _ => ?_
  have hsize := slotSize_le_of_capacityFor hfits hcapacity (some (origin.getD found.id))
  refine .bind (.onSlots (Region.append_uniform _ hsize payload)) fun ⟨id, stop⟩ _ _ => ?_
  refine .bind (.onSlots (Region.writeHeader_uniform _ _)) fun _ _ _ => .bind (.setCounters _) fun _ _ _ => ?_
  by_cases hfirst : origin.getD found.id ≠ found.id
  · simp only [if_pos hfirst]
    exact .bind (.onSlots (shortenChain_uniform _ _ _ _ _)) fun _ _ _ => .pure _
  · simp only [if_neg hfirst]
    exact .pure _

theorem update_uniform (hfits : frame.pageSize < 2 ^ 32) (id : RecordId) (payload : ByteArray) :
    UniformIn frame fun σ _ _ => (update id payload : SessionM σ RecordId) := by
  unfold update
  refine .bind .ensureOpen fun _ frame₁ h₁ => .bind (resolveSlot_uniform id) fun found frame₂ h₂ => ?_
  rw [← h₁, ← h₂] at hfits
  cases found.header with
  | live capacity length origin =>
    dsimp only
    by_cases hfit : payload.size ≤ capacity
    · simp only [if_pos hfit]
      refine .get_bind ?_
      simp only [counters_on]
      refine .ofExcept_bind fun livePayload _ => .bind (.onSlots (.write _ _)) fun _ _ _ => ?_
      exact .bind (.setCounters _) fun _ _ _ => .pure _
    · simp only [if_neg hfit]
      exact relocate_uniform hfits _ _ _ _ _
  | moved capacity target => exact .throw _
  | deleted capacity length relocated => exact .throw _
  | padding capacity => exact .throw _

theorem delete_uniform (id : RecordId) : UniformIn frame fun σ _ _ => (delete id : SessionM σ Unit) := by
  unfold delete
  refine .bind .ensureOpen fun _ _ _ => .bind (resolveSlot_uniform id) fun found _ _ => ?_
  cases found.header with
  | live capacity length origin =>
    refine .get_bind ?_
    simp only [region_on, counters_on]
    refine .ofExcept_bind fun livePayload _ => .ofExcept_bind fun liveCapacity _ => ?_
    refine .bind (.onSlots (Region.writeHeader_uniform _ _)) fun _ _ _ => .bind (.setCounters _) fun _ _ _ => ?_
    exact .onSlots (.bind (redirectsToBury_uniform _ _ _) fun redirects => overwriteRedirects_uniform _ _)
  | moved capacity target => exact .throw _
  | deleted capacity length relocated => exact .throw _
  | padding capacity => exact .throw _

theorem countSlots_uniform : UniformIn frame fun σ _ _ => (countSlots : SessionM σ Counters) := by
  unfold countSlots
  refine .bind .ensureOpen fun _ _ _ => .get_bind ?_
  simp only [region_on]
  exact .onSlots (.bind (Region.takeCensus_uniform _ _) fun census => .pure _)

theorem persist_uniform : UniformIn frame fun σ _ _ => (persist : SessionM σ Unit) := by
  unfold persist
  refine .bind ?_ fun _ _ _ => .onSlots .flush
  unfold writeHeader
  refine .get_bind ?_
  simp only [header_on]
  exact .onSlots (.write _ _)

theorem flush_uniform : UniformIn frame fun σ _ _ => (flush : SessionM σ Unit) := by
  unfold flush
  exact .bind .ensureOpen fun _ _ _ => persist_uniform

theorem recount_uniform : UniformIn frame fun σ _ _ => (recount : SessionM σ Unit) := by
  unfold recount
  refine .get_bind ?_
  simp only [region_on]
  exact .bind (.onSlots (Region.recount_uniform _)) fun counters _ _ => .setCounters counters

theorem recover_uniform : UniformIn frame fun σ _ _ => (recover : SessionM σ Counters) := by
  unfold recover
  refine .bind .ensureOpen fun _ _ _ => .bind recount_uniform fun _ _ _ => .bind persist_uniform fun _ _ _ => ?_
  refine .get_bind ?_
  simp only [counters_on]
  exact .pure _

/-! ### Opening -/

theorem setUp_uniform {pageSize : Nat} (h : pageSize ≤ reach) :
    Uniform fun σ _ => (setUp pageSize : SlotM σ FileHeader) := by
  unfold setUp
  exact .bind (.grow h) fun _ => .bind (.write _ _) fun _ => .bind .flush fun _ => .pure _

theorem loadHeader_uniform (pageSize : Nat) :
    Uniform fun σ _ => (loadHeader pageSize : SlotM σ (FileHeader × Bool)) := by
  unfold loadHeader
  refine .ite (fun _ => .throw _) fun hsupported => ?_
  have hreach : pageSize ≤ reach := by
    have hshift : 1 <<< 32 = 2 ^ 32 := rfl
    unfold reach
    omega
  have hsetUp : Uniform fun σ _ => (do return (← setUp pageSize, true) : SlotM σ (FileHeader × Bool)) :=
    .bind (setUp_uniform hreach) fun _ => .pure _
  refine .bind .size fun size => .ite (fun _ => hsetUp) fun _ => .ite (fun _ => .throw _) fun _ => ?_
  refine .bind (.read _ _) fun raw => ?_
  cases FileHeader.decode raw.data.toList with
  | error fault => exact .throw _
  | ok found =>
    cases found with
    | none => exact hsetUp
    | some header => exact .ite (fun _ => .throw _) fun _ => .ite (fun _ => .throw _) fun _ => .pure _

theorem start_uniform (recover : Bool) : UniformIn frame fun σ _ _ => (start recover : SessionM σ Unit) := by
  have hrest : ∀ frame : Session Unit, UniformIn frame fun σ _ _ => (do
      modify fun session => { session with header := { session.header with status := .opened } }
      persist : SessionM σ Unit) := fun frame =>
    .bind ⟨.done (.ok (), { frame with header := { frame.header with status := .opened } }), fun _ _ _ => ⟨rfl, rfl⟩⟩
      fun _ _ _ => persist_uniform
  unfold start
  refine .get_bind ?_
  cases hcut : !frame.wasClosedProperly && recover with
  | false =>
    simp only [wasClosedProperly_on, hcut, Bool.false_eq_true, if_false]
    exact hrest frame
  | true =>
    simp only [wasClosedProperly_on, hcut, if_true]
    exact .bind recount_uniform fun _ frame' _ => hrest frame'

/-! ### Scanning -/

theorem scanSlot_uniform (cursor : Cursor) :
    UniformIn frame fun σ _ _ => (scanSlot cursor : SessionM σ ScannedSlot) := by
  unfold scanSlot
  refine .bind .ensureOpen fun _ _ _ => .get_bind ?_
  simp only [pageSize_on]
  refine .bind (.onSlots (Region.slotAt_uniform _ _)) fun header _ _ => ?_
  cases RecordId.ofOffset? cursor.offset with
  | none => exact .throw _
  | some id =>
    cases header with
    | live capacity length origin => exact .bind (.onSlots (.read _ _)) fun _ _ _ => .pure _
    | moved capacity target => exact .pure _
    | deleted capacity length relocated => exact .pure _
    | padding capacity => exact .pure _

end Session

/-- Whether the event writes the file header, and flushes the storage then. -/
def Event.Syncs : Event → Prop
  | .request .flush => True
  | .request _ => False
  | .count => False
  | .recover => True
  | .reopen .. => True

namespace Session

/-- What does not end the session is a dialogue. -/
theorem handle_uniform {frame : Session Unit} (hfits : frame.pageSize < 2 ^ 32) {event : Event}
    (hreopen : ∀ policy options, event ≠ .reopen policy options) :
    UniformIn frame fun σ _ _ => (handle (fun storage => storage) event : SessionM σ Reply) := by
  cases event with
  | request request =>
    cases request with
    | insert payload => exact .bind (insert_uniform hfits payload) fun _ _ _ => .pure _
    | update id payload => exact .bind (update_uniform hfits id payload) fun _ _ _ => .pure _
    | delete id => exact .bind (delete_uniform id) fun _ _ _ => .pure _
    | read id => exact .bind (read_uniform id) fun _ _ _ => .pure _
    | resolve id => exact .bind (resolve_uniform id) fun _ _ _ => .pure _
    | flush => exact .bind flush_uniform fun _ _ _ => .pure _
  | recover => exact .bind recover_uniform fun _ _ _ => .pure _
  | count => exact .bind countSlots_uniform fun _ _ _ => .pure _
  | reopen policy options => exact absurd rfl (hreopen policy options)

end Session

end RecordStore
