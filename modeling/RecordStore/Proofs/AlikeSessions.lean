import RecordStore.Proofs.Salvage
import RecordStore.Proofs.SameSlots

/-!
# Sessions on files with the same slots

Two sessions that hold the same header and rules, on files with the same slots, answer alike and stay alike, whatever
the headers in their files say (`perform_matched`, `recover_matched`, `scan_matched`).  Of the slots themselves this
needs one thing only, which every session knows that serves a store: no record has its origin in the file header
(`Anchored`).
-/

namespace RecordStore

open Bytes

/-! ### Two runs side by side -/

section

variable {ε α β s : Type} {related : s → s → Prop}

/-- From two states the two end with the same result, in states that are related. -/
def Matched (related : s → s → Prop) (act act' : ExceptT ε (StateM s) α) (state state' : s) : Prop :=
  (act' state').1 = (act state).1 ∧ related (act state).2 (act' state').2

namespace Matched

variable {act act' : ExceptT ε (StateM s) α} {state state' : s}

theorem pure (h : related state state') (a : α) :
    Matched related (Pure.pure a : ExceptT ε (StateM s) α) (Pure.pure a) state state' := ⟨rfl, h⟩

theorem throw (h : related state state') (e : ε) :
    Matched related (MonadExcept.throw e : ExceptT ε (StateM s) α) (MonadExcept.throw e) state state' := ⟨rfl, h⟩

theorem bind {next next' : α → ExceptT ε (StateM s) β} (h : Matched related act act' state state')
    (hnext : ∀ a, (act state).1 = .ok a → related (act state).2 (act' state').2 →
      Matched related (next a) (next' a) (act state).2 (act' state').2) :
    Matched related (act >>= next) (act' >>= next') state state' := by
  obtain ⟨hresult, hafter⟩ := h
  unfold Matched at hnext ⊢
  rw [bind_apply, bind_apply]
  rcases hact : act state with ⟨e | a, after⟩
  · rcases hact' : act' state' with ⟨result', after'⟩
    rw [hact, hact'] at hresult hafter
    obtain rfl : result' = .error e := hresult
    exact ⟨rfl, hafter⟩
  · rcases hact' : act' state' with ⟨result', after'⟩
    rw [hact, hact'] at hresult hafter hnext
    obtain rfl : result' = .ok a := hresult
    exact hnext a rfl hafter

theorem get_bind {next next' : s → ExceptT ε (StateM s) β}
    (h : Matched related (next state) (next' state') state state') :
    Matched related (get >>= next) (get >>= next') state state' := h

theorem ofExcept_bind (h : related state state') {result : Except ε α} {next next' : α → ExceptT ε (StateM s) β}
    (hnext : ∀ a, result = .ok a → Matched related (next a) (next' a) state state') :
    Matched related (liftExcept result >>= next) (liftExcept result >>= next') state state' := by
  cases result with
  | error e => exact throw h e
  | ok a => exact hnext a rfl

end Matched

end

/-! ### Alike sessions -/

namespace Session

/-- The rules of a session, which last for its life. -/
structure Rules where
  policy : CapacityPolicy
  maxHops : Nat
  pageSize : Nat

def rules {σ : Type} (session : Session σ) : Rules :=
  { policy := session.policy, maxHops := session.maxHops, pageSize := session.pageSize }

/-- Two sessions with these rules that differ in the header of their file and in the size of their cache at most. -/
structure Alike (rules : Rules) (session session' : Session CachedFile) : Prop where
  storage : session.storage.Alike session'.storage
  left : session.rules = rules
  right : session'.rules = rules
  header : session'.header = session.header
  closed : session'.closed = session.closed
  fits : rules.pageSize < 2 ^ 32

variable {α β : Type} {rules : Rules} {session session' : Session CachedFile}

namespace Alike

theorem policy (h : Alike rules session session') : session'.policy = session.policy :=
  congrArg Rules.policy (h.right.trans h.left.symm)

theorem maxHops (h : Alike rules session session') : session'.maxHops = session.maxHops :=
  congrArg Rules.maxHops (h.right.trans h.left.symm)

theorem pageSize (h : Alike rules session session') : session'.pageSize = session.pageSize :=
  congrArg Rules.pageSize (h.right.trans h.left.symm)

theorem pageSize_lt (h : Alike rules session session') : session.pageSize < 2 ^ 32 := by
  rw [show session.pageSize = rules.pageSize from congrArg Rules.pageSize h.left]
  exact h.fits

theorem counters (h : Alike rules session session') : session'.counters = session.counters :=
  congrArg FileHeader.counters h.header

theorem region (h : Alike rules session session') : session'.region = session.region := by
  unfold Session.region
  rw [h.pageSize, h.header]

theorem capacityFor (h : Alike rules session session') : session'.capacityFor = session.capacityFor := by
  funext length desired
  unfold Session.capacityFor maxPayload
  rw [h.policy, h.pageSize]

theorem setHeader (h : Alike rules session session') (header : FileHeader) :
    Alike rules { session with header } { session' with header } :=
  ⟨h.storage, h.left, h.right, rfl, h.closed, h.fits⟩

end Alike

theorem onSlots_matched (h : Alike rules session session') {act : SlotM CachedFile α} {post : α → Prop} (hact : Blind act post) :
    Matched (Alike rules) (onSlots act) (onSlots act) session session' := by
  obtain ⟨hresult, hafter, -⟩ := hact _ _ h.storage
  exact ⟨hresult, hafter, h.left, h.right, h.header, h.closed, h.fits⟩

theorem setCounters_matched (h : Alike rules session session') (counters : Counters) :
    Matched (Alike rules) (setCounters counters) (setCounters counters) session session' := by
  refine ⟨rfl, ?_⟩
  have hset := h.setHeader { session.header with counters }
  nth_rewrite 2 [← h.header] at hset
  exact hset

theorem ensureOpen_bind_matched (h : Alike rules session session') {next next' : SessionM CachedFile β}
    (hnext : session.closed = false → Matched (Alike rules) next next' session session') :
    Matched (Alike rules) (do ensureOpen; next) (do ensureOpen; next') session session' := by
  cases hclosed : session.closed with
  | false =>
    unfold Matched
    rw [ensureOpen_bind hclosed, ensureOpen_bind (h.closed.trans hclosed)]
    exact hnext hclosed
  | true =>
    unfold Matched
    rw [ensureOpen_bind_of_closed hclosed, ensureOpen_bind_of_closed (h.closed.trans hclosed)]
    exact ⟨rfl, h⟩

/-! ### Records -/

/-- No record that is found has its origin in the file header. -/
def Anchored (session : Session CachedFile) : Prop :=
  ∀ id found capacity length origin, (resolveSlot id session).1 = .ok found →
    found.header = .live capacity length (some origin) → FileHeader.size ≤ origin.offset

theorem resolveSlot_matched (h : Alike rules session session') (id : RecordId) :
    Matched (Alike rules) (resolveSlot id) (resolveSlot id) session session' := by
  unfold resolveSlot
  refine .get_bind ?_
  rw [h.region, h.maxHops]
  exact onSlots_matched h (session.region.resolve_blind session.maxHops id)

/-- What is found lies behind the file header. -/
theorem behind_of_resolveSlot (h : session.storage.Usable) {id : RecordId} {found : Resolution}
    (hfound : (resolveSlot id session).1 = .ok found) : found.Behind session.pageSize :=
  (session.region.resolve_blind session.maxHops id _ _ ⟨h, h, .refl _⟩).2.2 found hfound

theorem resolve_matched (h : Alike rules session session') (id : RecordId) :
    Matched (Alike rules) (resolve id) (resolve id) session session' := by
  unfold resolve
  refine ensureOpen_bind_matched h fun _ => .bind (resolveSlot_matched h id) fun found _ hafter => ?_
  cases found.header with
  | live capacity length origin => exact .pure hafter _
  | moved capacity target => exact .throw hafter _
  | deleted capacity length relocated => exact .throw hafter _
  | padding capacity => exact .throw hafter _

theorem read_matched (h : Alike rules session session') (id : RecordId) :
    Matched (Alike rules) (read id) (read id) session session' := by
  unfold read
  refine ensureOpen_bind_matched h fun _ => .bind (resolveSlot_matched h id) fun found hfound hafter => ?_
  have hlow := (behind_of_resolveSlot h.storage.left hfound).low
  cases found.header with
  | live capacity length origin => exact onSlots_matched hafter (.read (Nat.le_trans hlow (Nat.le_add_right _ _)) _)
  | moved capacity target => exact .throw hafter _
  | deleted capacity length relocated => exact .throw hafter _
  | padding capacity => exact .throw hafter _

/-- Two payloads of one size that are the same if a page has room for them. -/
def StandsFor (pageSize : Nat) (payload payload' : ByteArray) : Prop :=
  payload'.size = payload.size ∧ (payload.size ≤ pageSize - SlotHeader.fullSize → payload' = payload)

theorem StandsFor.refl (pageSize : Nat) (payload : ByteArray) : StandsFor pageSize payload payload :=
  ⟨rfl, fun _ => rfl⟩

/-- A payload that is given room is given room in a page. -/
private theorem StandsFor.eq_of_capacityFor {payload payload' : ByteArray}
    (h : StandsFor session.pageSize payload payload') {desired capacity : Nat}
    (hcapacity : session.capacityFor payload.size desired = .ok capacity) : payload' = payload := by
  obtain ⟨hle, hfit⟩ := capacityFor_eq_ok hcapacity
  exact h.2 (Nat.le_trans hle hfit)

theorem insert_matched (h : Alike rules session session') {payload payload' : ByteArray}
    (hpayload : StandsFor session.pageSize payload payload') :
    Matched (Alike rules) (insert payload) (insert payload') session session' := by
  unfold insert
  refine ensureOpen_bind_matched h fun _ => .get_bind ?_
  rw [h.region, h.counters, h.policy, h.capacityFor, hpayload.1]
  refine .ofExcept_bind h fun capacity hcapacity => ?_
  obtain rfl := hpayload.eq_of_capacityFor hcapacity
  have hsize := slotSize_le_of_capacityFor h.pageSize_lt hcapacity none
  refine .bind (onSlots_matched h (session.region.append_blind hsize payload')) fun ⟨id, stop⟩ _ hafter => ?_
  exact .bind (setCounters_matched hafter _) fun _ _ hafter => .pure hafter _

theorem overwriteRedirects_blind (header : Redirect → SlotHeader) (redirects : List Redirect) :
    Blind (overwriteRedirects header redirects) fun _ => True := by
  induction redirects with
  | nil => exact .pure trivial
  | cons redirect rest ih =>
    unfold overwriteRedirects
    exact .bind (.attempt (.write _ _)) fun _ _ => ih

theorem shortenChain_blind (region : Region) {origin : RecordId} (hlow : FileHeader.size ≤ origin.offset)
    (previous : Redirect) (target : RecordId) (passed : List Redirect) :
    Blind (shortenChain region origin previous target passed) fun _ => True := by
  unfold shortenChain
  have hpoint : ∀ capacity, True →
      Blind (Region.writeHeader origin.offset (.moved capacity target)) fun _ => True := fun _ _ => .write _ _
  refine .bind (.attempt (show Blind _ fun _ => True from ?_)) fun shortened _ => ?_
  · cases passed.find? (·.id = origin) with
    | some redirect => exact .bind (.pure trivial) hpoint
    | none => exact .bind (region.redirectCapacity_blind hlow) hpoint
  · cases shortened with
    | error e => exact .pure trivial
    | ok => exact overwriteRedirects_blind _ _

theorem redirectsToBury_blind (region : Region) {origin : Option RecordId}
    (hlow : ∀ id, origin = some id → FileHeader.size ≤ id.offset) (passed : List Redirect) :
    Blind (redirectsToBury region origin passed) fun _ => True := by
  unfold redirectsToBury
  cases hfilter : origin.filter fun origin => !passed.any (·.id = origin) with
  | none => exact .pure trivial
  | some id =>
    have horigin := hlow id (Option.filter_eq_some_iff.1 hfilter).1
    refine .bind (.attempt (region.redirectCapacity_blind horigin)) fun found _ => ?_
    cases found with
    | error e => exact .pure trivial
    | ok capacity => exact .pure trivial

private theorem relocate_matched (h : Alike rules session session') {found : Resolution}
    (hbehind : found.Behind session.pageSize) (oldCapacity oldLength : Nat) {origin : Option RecordId}
    (hlow : ∀ id, origin = some id → FileHeader.size ≤ id.offset) {payload payload' : ByteArray}
    (hpayload : StandsFor session.pageSize payload payload') :
    Matched (Alike rules) (relocate found oldCapacity oldLength origin payload) (relocate found oldCapacity oldLength origin payload')
      session session' := by
  have hfirst : FileHeader.size ≤ (origin.getD found.id).offset := by
    cases origin with
    | none => exact hbehind.low
    | some id => exact hlow id rfl
  unfold relocate
  refine .get_bind ?_
  dsimp only
  rw [h.region, h.counters, h.policy, h.capacityFor, hpayload.1]
  refine .ofExcept_bind h fun capacity hcapacity => ?_
  obtain rfl := hpayload.eq_of_capacityFor hcapacity
  refine .ofExcept_bind h fun livePayload _ => .ofExcept_bind h fun liveCapacity _ => ?_
  have hsize := slotSize_le_of_capacityFor h.pageSize_lt hcapacity (some (origin.getD found.id))
  refine .bind (onSlots_matched h (session.region.append_blind hsize payload')) fun ⟨id, stop⟩ _ h => ?_
  refine .bind (onSlots_matched h (.write _ _)) fun _ _ h => .bind (setCounters_matched h _) fun _ _ h => ?_
  by_cases hmoved : origin.getD found.id ≠ found.id
  · simp only [if_pos hmoved]
    exact .bind (onSlots_matched h (shortenChain_blind _ hfirst _ _ _)) fun _ _ h => .pure h _
  · simp only [if_neg hmoved]
    exact .pure h _

theorem update_matched (h : Alike rules session session') (hanchored : Anchored session) (id : RecordId)
    {payload payload' : ByteArray} (hpayload : StandsFor session.pageSize payload payload') :
    Matched (Alike rules) (update id payload) (update id payload') session session' := by
  unfold update
  refine ensureOpen_bind_matched h fun _ => ?_
  refine .bind (resolveSlot_matched h id) fun found hfound hafter => ?_
  have hbehind := behind_of_resolveSlot h.storage.left hfound
  have horigin := hanchored id found
  obtain ⟨at', header, passed⟩ := found
  cases header with
  | live capacity length origin =>
    dsimp only
    rw [hpayload.1]
    by_cases hfit : payload.size ≤ capacity
    · have hslot := (SlotHeader.live capacity length origin).size_le_slotSize
      have hpage : (SlotHeader.live capacity length origin).slotSize ≤ session.pageSize := hbehind.fits
      have hroom : payload.size ≤ session.pageSize - SlotHeader.fullSize := by
        change SlotHeader.fullSize + capacity ≤ _ at hslot
        omega
      obtain rfl := hpayload.2 hroom
      rw [if_pos hfit]
      refine .get_bind ?_
      rw [hafter.counters]
      refine .ofExcept_bind hafter fun livePayload _ => .bind (onSlots_matched hafter (.write _ _)) fun _ _ h => ?_
      exact .bind (setCounters_matched h _) fun _ _ h => .pure h _
    · rw [if_neg hfit, if_neg hfit]
      refine relocate_matched hafter hbehind capacity length (fun origin' ho => ?_) hpayload
      exact horigin capacity length origin' hfound (by rw [ho])
  | moved capacity target => exact .throw hafter _
  | deleted capacity length relocated => exact .throw hafter _
  | padding capacity => exact .throw hafter _

theorem delete_matched (h : Alike rules session session') (hanchored : Anchored session) (id : RecordId) :
    Matched (Alike rules) (delete id) (delete id) session session' := by
  unfold delete
  refine ensureOpen_bind_matched h fun _ => .bind (resolveSlot_matched h id) fun found hfound h => ?_
  have horigin := hanchored id found
  obtain ⟨at', header, passed⟩ := found
  cases header with
  | live capacity length origin =>
    refine .get_bind ?_
    dsimp only
    rw [h.region, h.counters]
    refine .ofExcept_bind h fun livePayload _ => .ofExcept_bind h fun liveCapacity _ => ?_
    refine .bind (onSlots_matched h (.write _ _)) fun _ _ h => .bind (setCounters_matched h _) fun _ _ h => ?_
    have hlow : ∀ id, origin = some id → FileHeader.size ≤ id.offset := fun origin' ho =>
      horigin capacity length origin' hfound (by rw [ho])
    exact onSlots_matched h (.bind (redirectsToBury_blind _ hlow _) fun redirects _ => overwriteRedirects_blind _ _)
  | moved capacity target => exact .throw h _
  | deleted capacity length relocated => exact .throw h _
  | padding capacity => exact .throw h _

/-! ### The file header -/

theorem persist_matched (h : Alike rules session session') : Matched (Alike rules) persist persist session session' := by
  unfold persist writeHeader
  refine .bind (.get_bind ?_) fun _ _ h => onSlots_matched h .flush
  rw [h.header]
  exact onSlots_matched h (.write _ _)

theorem flush_matched (h : Alike rules session session') : Matched (Alike rules) flush flush session session' := by
  unfold flush
  exact ensureOpen_bind_matched h fun _ => persist_matched h

theorem recover_matched (h : Alike rules session session') : Matched (Alike rules) recover recover session session' := by
  unfold recover recount
  refine ensureOpen_bind_matched h fun _ => .bind (.get_bind ?_) fun _ _ h => ?_
  · rw [h.region]
    exact .bind (onSlots_matched h session.region.recount_blind) fun counters _ h => setCounters_matched h counters
  · refine .bind (persist_matched h) fun _ _ h => .get_bind ?_
    rw [h.counters]
    exact .pure h _

theorem countSlots_matched (h : Alike rules session session') : Matched (Alike rules) countSlots countSlots session session' := by
  unfold countSlots
  refine ensureOpen_bind_matched h fun _ => .get_bind ?_
  rw [h.region]
  exact onSlots_matched h session.region.count_blind

theorem perform_matched (h : Alike rules session session') (hanchored : Anchored session) (request : Request) :
    Matched (Alike rules) (perform request) (perform request) session session' := by
  cases request with
  | insert payload => exact .bind (insert_matched h (.refl _ payload)) fun _ _ h => .pure h _
  | update id payload => exact .bind (update_matched h hanchored id (.refl _ payload)) fun _ _ h => .pure h _
  | delete id => exact .bind (delete_matched h hanchored id) fun _ _ h => .pure h _
  | read id => exact .bind (read_matched h id) fun _ _ h => .pure h _
  | resolve id => exact .bind (resolve_matched h id) fun _ _ h => .pure h _
  | flush => exact .bind (flush_matched h) fun _ _ h => .pure h _

/-! ### Scans -/

theorem scanSlot_matched (h : Alike rules session session') {cursor : Cursor} (hlow : FileHeader.size ≤ cursor.offset) :
    Matched (Alike rules) (scanSlot cursor) (scanSlot cursor) session session' := by
  unfold scanSlot
  refine ensureOpen_bind_matched h fun _ => .get_bind ?_
  rw [h.pageSize]
  refine .bind (onSlots_matched h (Region.slotAt_blind _ hlow)) fun header _ h => ?_
  cases RecordId.ofOffset? cursor.offset with
  | none => exact .throw h _
  | some id =>
    cases header with
    | live capacity length origin =>
      exact .bind (onSlots_matched h (.read (Nat.le_trans hlow (Nat.le_add_right _ _)) _)) fun _ _ h => .pure h _
    | moved capacity target => exact .pure h _
    | deleted capacity length relocated => exact .pure h _
    | padding capacity => exact .pure h _

/-- What a visitor of a scan does in alike sessions is alike. -/
def Even (rules : Rules) {τ : Type} (visitor : ScannedSlot → τ → StateM (Session CachedFile) (Bool × τ)) : Prop :=
  ∀ slot seen session session', Alike rules session session' →
    (visitor slot seen session').1 = (visitor slot seen session).1 ∧
      Alike rules (visitor slot seen session).2 (visitor slot seen session').2

theorem forEachFrom_matched {τ : Type} {visitor : ScannedSlot → τ → StateM (Session CachedFile) (Bool × τ)}
    (hvisitor : Even rules visitor) {cursor : Cursor} (hlow : FileHeader.size ≤ cursor.offset) (seen : τ)
    {session session' : Session CachedFile} (h : Alike rules session session') :
    (forEachFrom cursor visitor seen session').1 = (forEachFrom cursor visitor seen session).1 ∧
      Alike rules (forEachFrom cursor visitor seen session).2 (forEachFrom cursor visitor seen session').2 := by
  -- both scans read the same slot, and so step on by the same size
  induction hn : cursor.stop - cursor.offset using Nat.strongRecOn generalizing cursor seen session session' with
  | ind n ih =>
    by_cases hlt : cursor.offset < cursor.stop
    · obtain ⟨hresult, hafter⟩ := scanSlot_matched h hlow
      rw [forEachFrom_of_lt _ hlt, forEachFrom_of_lt _ hlt]
      rcases hscan : scanSlot cursor session with ⟨result, after⟩
      rcases hscan' : scanSlot cursor session' with ⟨result', after'⟩
      rw [hscan, hscan'] at hresult hafter
      obtain rfl : result' = result := hresult
      cases result' with
      | error e => exact ⟨rfl, hafter⟩
      | ok slot =>
        dsimp only
        obtain ⟨hvisited, hafter'⟩ := hvisitor slot seen after after' hafter
        generalize visitor slot seen after = visited at hvisited hafter' ⊢
        generalize visitor slot seen after' = visited' at hvisited hafter' ⊢
        obtain ⟨⟨goOn, seen'⟩, after₂⟩ := visited
        obtain ⟨_, after₂'⟩ := visited'
        obtain rfl := hvisited
        cases goOn with
        | false => exact ⟨rfl, hafter'⟩
        | true =>
          have hpos := slot.header.slotSize_pos
          have hlow' : FileHeader.size ≤ cursor.offset + slot.header.slotSize := by omega
          exact ih _ (by dsimp only; omega) hlow' seen' hafter' rfl
    · rw [forEachFrom, if_neg hlt]
      exact ⟨rfl, h⟩

theorem forEach_matched {τ : Type} {visitor : ScannedSlot → τ → StateM (Session CachedFile) (Bool × τ)}
    (hvisitor : Even rules visitor) (seen : τ) (h : Alike rules session session') :
    (forEach visitor seen session').1 = (forEach visitor seen session).1 ∧
      Alike rules (forEach visitor seen session).2 (forEach visitor seen session').2 := by
  have hcursor : session'.cursor = session.cursor := by
    unfold cursor
    rw [h.counters]
  change (forEachFrom session'.cursor visitor seen session').1 = (forEachFrom session.cursor visitor seen session).1 ∧
    Alike rules (forEachFrom session.cursor visitor seen session).2
      (forEachFrom session'.cursor visitor seen session').2
  rw [hcursor]
  exact forEachFrom_matched hvisitor (Nat.le_refl _) seen h

end Session

end RecordStore
