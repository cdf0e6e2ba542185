import RecordStore.Proofs.Contract
import RecordStore.Session.Basic

/-!
# Operations of sessions

`Performs` does for the operations of a session what `Runs` does for work on slots: it says what holds of the result
and of the session afterwards, whatever calls fail on the way.  The session is seen with the image of its storage in
place of the storage.
-/

namespace RecordStore

open StorageView

namespace SessionM

variable {σ α β : Type}

theorem bind_pure_apply (act : SessionM σ α) (f : α → β) (session : Session σ) :
    (act >>= fun a => pure (f a)) session = ((act session).1.map f, (act session).2) := by
  rw [bind_apply]
  rcases act session with ⟨_ | a, session'⟩ <;> rfl

end SessionM

namespace Session

variable {σ α β : Type}

/-- The session with what its storage holds in place of the storage. -/
def seen (view : StorageView σ) (session : Session σ) : Session Image :=
  { session with storage := view.image session.storage }

/-- `act`, started in a session that looks like `before`, ends with a result and a session as `post` says. -/
def Performs (view : StorageView σ) (act : SessionM σ α) (before : Session Image)
    (post : Except StoreError α → Session Image → Prop) : Prop :=
  ∀ session : Session σ, view.Usable session.storage → session.seen view = before →
    view.Usable (act session).2.storage ∧ post (act session).1 ((act session).2.seen view)

theorem ensureOpen_apply {session : Session σ} (hopened : session.closed = false) :
    ensureOpen session = (.ok (), session) := by
  unfold ensureOpen
  rw [bind_apply]
  change (if session.closed then _ else _ : SessionM σ Unit) session = _
  rw [hopened]
  rfl

theorem ensureOpen_bind {session : Session σ} (hopened : session.closed = false) (next : SessionM σ α) :
    (do ensureOpen; next) session = next session := by
  rw [bind_apply, ensureOpen_apply hopened]

/-- A closed session refuses what needs it to be open. -/
theorem ensureOpen_bind_of_closed {session : Session σ} (hclosed : session.closed = true) (next : SessionM σ α) :
    (do ensureOpen; next) session = (.error .closed, session) := by
  have hrefused : ensureOpen session = (.error .closed, session) := by
    unfold ensureOpen
    rw [bind_apply]
    change (if session.closed then _ else _ : SessionM σ Unit) session = _
    rw [hclosed]
    rfl
  rw [bind_apply, hrefused]

namespace Performs

variable {view : StorageView σ} {before : Session Image}

theorem mono {act : SessionM σ α} {post post' : Except StoreError α → Session Image → Prop}
    (h : Performs view act before post) (himp : ∀ result after, post result after → post' result after) :
    Performs view act before post' :=
  fun session husable hseen => ⟨(h session husable hseen).1, himp _ _ (h session husable hseen).2⟩

theorem pure {a : α} {post : Except StoreError α → Session Image → Prop} (h : post (.ok a) before) :
    Performs view (Pure.pure a) before post := by
  rintro session husable rfl
  exact ⟨husable, h⟩

theorem throw {e : StoreError} {post : Except StoreError α → Session Image → Prop} (h : post (.error e) before) :
    Performs view (MonadExcept.throw e) before post := by
  rintro session husable rfl
  exact ⟨husable, h⟩

theorem step {act : SessionM σ α} {next : α → SessionM σ β} {post : Except StoreError β → Session Image → Prop}
    (h : Performs view act before fun result after =>
      match result with
      | .ok a => Performs view (next a) after post
      | .error e => post (.error e) after) : Performs view (act >>= next) before post := by
  intro session husable hseen
  obtain ⟨husable', hpost⟩ := h session husable hseen
  rw [bind_apply]
  rcases hact : act session with ⟨e | a, session'⟩
  · rw [hact] at husable' hpost
    exact ⟨husable', hpost⟩
  · rw [hact] at husable' hpost
    exact hpost session' husable' rfl

/-- An operation whose answer is put another way. -/
theorem answering {act : SessionM σ α} (f : α → β) {post : Except StoreError β → Session Image → Prop}
    (h : Performs view act before fun result after => post (result.map f) after) :
    Performs view (act >>= fun a => Pure.pure (f a)) before post := by
  intro session husable hseen
  rw [SessionM.bind_pure_apply]
  exact h session husable hseen

theorem get_bind {next : Session σ → SessionM σ β} {post : Except StoreError β → Session Image → Prop}
    (h : ∀ session, session.seen view = before → Performs view (next session) before post) :
    Performs view (get >>= next) before post := by
  rintro session husable rfl
  exact h session rfl session husable rfl

theorem setCounters {counters : Counters} {post : Except StoreError Unit → Session Image → Prop}
    (h : post (.ok ()) { before with header := { before.header with counters } }) :
    Performs view (Session.setCounters counters) before post := by
  rintro session husable rfl
  exact ⟨husable, h⟩

theorem ensureOpen {post : Except StoreError Unit → Session Image → Prop} (hopen : before.closed = false)
    (h : post (.ok ()) before) : Performs view Session.ensureOpen before post := by
  rintro session husable rfl
  rw [ensureOpen_apply (show session.closed = false from hopen)]
  exact ⟨husable, h⟩

theorem ofExcept {result : Except StoreError α} {post : Except StoreError α → Session Image → Prop}
    (h : post result before) : Performs view (liftExcept result) before post := by
  rintro session husable rfl
  cases result <;> exact ⟨husable, h⟩

theorem onSlots {act : SlotM σ α} {post : Except StoreError α → Session Image → Prop}
    (h : view.Runs act before.storage fun result img => post result { before with storage := img }) :
    Performs view (Session.onSlots act) before post := by
  rintro session husable rfl
  exact h session.storage husable rfl

end Performs

end Session

end RecordStore
