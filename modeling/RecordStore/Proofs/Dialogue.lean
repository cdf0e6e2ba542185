import RecordStore.Proofs.Recovery

/-!
# Dialogues with a storage

The calls of an operation, each with what the operation does about every answer that it may get.  A dialogue can be
had with any storage, so what is known of one storage says something of another: the states that a storage goes through
between two calls (`Dialogue.moments`) are those in which the same dialogue leaves it when it is cut off
(`Dialogue.exists_cutOff`).
-/

namespace RecordStore

variable {σ α β : Type}

/-- A call that an operation makes.  Closing a storage is not among them. -/
inductive SlotCall
  | read (offset length : Nat)
  | write (offset : Nat) (data : ByteArray)
  | size
  | grow (target : Nat) (h : target ≤ reach)
  | flush

namespace SlotCall

def Answer : SlotCall → Type
  | .read .. => ByteArray
  | .write .. => Unit
  | .size => Nat
  | .grow .. => Unit
  | .flush => Unit

def run [PagedStorage σ] : (call : SlotCall) → StorageM σ call.Answer
  | .read offset length => PagedStorage.read offset length
  | .write offset data => PagedStorage.write offset data
  | .size => PagedStorage.size
  | .grow target _ => PagedStorage.grow target
  | .flush => PagedStorage.flush

end SlotCall

inductive Dialogue (α : Type)
  | done (result : α)
  | ask (call : SlotCall) (next : Except StorageError call.Answer → Dialogue α)

namespace Dialogue

def bind : Dialogue α → (α → Dialogue β) → Dialogue β
  | .done result, next => next result
  | .ask call rest, next => .ask call fun answer => (rest answer).bind next

/-- The dialogue with `storage`: its result, and the storage after it. -/
def run [PagedStorage σ] : Dialogue α → σ → α × σ
  | .done result, storage => (result, storage)
  | .ask call next, storage => (next (call.run storage).1).run (call.run storage).2

/-- The states of the storage before and after every call. -/
def moments [PagedStorage σ] : Dialogue α → σ → List σ
  | .done _, storage => [storage]
  | .ask call next, storage => storage :: (next (call.run storage).1).moments (call.run storage).2

variable [PagedStorage σ]

theorem run_bind (dialogue : Dialogue α) (next : α → Dialogue β) (storage : σ) :
    (dialogue.bind next).run storage = (next (dialogue.run storage).1).run (dialogue.run storage).2 := by
  induction dialogue generalizing storage with
  | done result => rfl
  | ask call rest ih => exact ih _ _

/-- What every call keeps between two moments with the property `P`, a dialogue keeps all of whose moments have it. -/
theorem run_induction {P Q : σ → Prop} {dialogue : Dialogue α} {storage : σ}
    (hmoments : ∀ moment ∈ dialogue.moments storage, P moment)
    (hstep : ∀ (call : SlotCall) (storage : σ), P storage → P (call.run storage).2 → Q storage →
      Q (call.run storage).2)
    (h : Q storage) : Q (dialogue.run storage).2 := by
  induction dialogue generalizing storage with
  | done result => exact h
  | ask call next ih =>
    have hrest : ∀ moment ∈ (next (call.run storage).1).moments (call.run storage).2, P moment :=
      fun moment hmoment => hmoments moment (List.mem_cons_of_mem _ hmoment)
    -- the storage before the next call is a moment of what is left to say
    have hhead : ∀ (dialogue : Dialogue α) (storage : σ), storage ∈ dialogue.moments storage := by
      intro dialogue storage
      cases dialogue <;> exact List.mem_cons_self
    apply ih _ hrest
    apply hstep
    · exact hmoments _ List.mem_cons_self
    · exact hrest _ (hhead _ _)
    · exact h

end Dialogue

/-! ### Cutting a dialogue off -/

namespace Unreliable

/-- So many calls of the storage are still to come, and all others fail. -/
structure Left (storage : Unreliable σ) (n : Nat) : Prop where
  kept : storage.lost = false
  plan : ∃ total, storage.faults.plan = .cutOff total ∧ total - storage.faults.decided.length = n

theorem left_cutOff (storage : σ) (n : Nat) : (cutOff storage n).Left n := ⟨rfl, n, rfl, rfl⟩

variable {storage : Unreliable σ} {n : Nat}

/-- The call does what `act` does behind it, and is one of those that were left. -/
private def Passes (storage : Unreliable σ) (n : Nat) (call : StorageM (Unreliable σ) α) (act : StorageM σ α) : Prop :=
  (call storage).1 = (act storage.inner).1 ∧ (call storage).2.inner = (act storage.inner).2 ∧ (call storage).2.Left n

/-- The call does nothing. -/
private def Drops (storage : Unreliable σ) (call : StorageM (Unreliable σ) α) : Prop :=
  (call storage).2.inner = storage.inner ∧ (call storage).2.Left 0

private theorem guarded_apply (h : storage.Left n) (call : StorageCall) (offset : Option Nat) (act : StorageM σ α) :
    ∃ faults, Left { storage with faults } (n - 1) ∧ guarded call offset act storage =
      if n = 0 then (.error (.io (.injected call)), { storage with faults })
      else ((act storage.inner).1, { storage with faults, inner := (act storage.inner).2 }) := by
  obtain ⟨inner, reported, ⟨plan, decided, log⟩, lost⟩ := storage
  obtain ⟨hkept, total, hplan, htotal⟩ := h
  dsimp only at hkept hplan htotal
  subst hkept hplan
  refine ⟨⟨.cutOff total, call :: decided, log⟩, ⟨rfl, total, rfl, ?_⟩, ?_⟩
  · change total - (decided.length + 1) = n - 1
    omega
  · unfold guarded
    have hdecide : decide call offset { inner, reported, faults := ⟨.cutOff total, decided, log⟩, lost := false } =
        (.ok (FaultPlan.cutOff total decided call offset),
          { inner, reported, faults := ⟨.cutOff total, call :: decided, log⟩, lost := false }) := rfl
    rw [bind_apply, hdecide]
    by_cases hn : n = 0
    · rw [if_pos hn, show FaultPlan.cutOff total decided call offset = .fail from if_neg (by omega)]
      rfl
    · rw [if_neg hn, show FaultPlan.cutOff total decided call offset = .proceed from if_pos (by omega)]
      rfl

private theorem guarded_passes (h : storage.Left (n + 1)) (call : StorageCall) (offset : Option Nat)
    (act : StorageM σ α) : Passes storage n (guarded call offset act) act := by
  obtain ⟨faults, hleft, happly⟩ := guarded_apply h call offset act
  unfold Passes
  rw [happly, if_neg (Nat.succ_ne_zero n)]
  exact ⟨rfl, rfl, hleft.kept, hleft.plan⟩

private theorem guarded_drops (h : storage.Left 0) (call : StorageCall) (offset : Option Nat) (act : StorageM σ α) :
    Drops storage (guarded call offset act) := by
  obtain ⟨faults, hleft, happly⟩ := guarded_apply h call offset act
  unfold Drops
  rw [happly, if_pos rfl]
  exact ⟨rfl, hleft⟩

/-- Writing a call down changes nothing else. -/
private theorem logged_apply_of_left {act : StorageM (Unreliable σ) α} (h : (act storage).2.Left n)
    (call : StorageCall) (target length : Nat) : (logged call target length act storage).1 = (act storage).1 ∧
      (logged call target length act storage).2.inner = (act storage).2.inner ∧
      (logged call target length act storage).2.Left n := by
  unfold logged
  rcases hact : act storage with ⟨result, after⟩
  rw [hact] at h
  dsimp only at h ⊢
  rw [if_neg (by simp [h.kept])]
  exact ⟨rfl, rfl, h.kept, h.plan⟩

private theorem logged_passes {act : StorageM (Unreliable σ) α} {inner : StorageM σ α} (h : Passes storage n act inner)
    (call : StorageCall) (target length : Nat) : Passes storage n (logged call target length act) inner := by
  obtain ⟨hanswer, hinner, hleft⟩ := h
  obtain ⟨hanswer', hinner', hleft'⟩ := logged_apply_of_left hleft call target length
  exact ⟨hanswer'.trans hanswer, hinner'.trans hinner, hleft'⟩

private theorem logged_drops {act : StorageM (Unreliable σ) α} (h : Drops storage act) (call : StorageCall)
    (target length : Nat) : Drops storage (logged call target length act) := by
  obtain ⟨hinner, hleft⟩ := h
  obtain ⟨-, hinner', hleft'⟩ := logged_apply_of_left hleft call target length
  exact ⟨hinner'.trans hinner, hleft'⟩

variable [PagedStorage σ]

private theorem size_apply_of_left (h : storage.Left n) :
    (PagedStorage.size : StorageM (Unreliable σ) Nat) storage = guarded .size none PagedStorage.size storage := by
  obtain ⟨-, total, hplan, -⟩ := h
  refine size_apply fun before call offset value => ?_
  rw [hplan]
  unfold FaultPlan.cutOff
  split <;> nofun

/-- A call before the end does what it does on the storage behind. -/
theorem run_of_left_succ (h : storage.Left (n + 1)) (call : SlotCall) :
    (call.run storage).1 = (call.run storage.inner).1 ∧ (call.run storage).2.inner = (call.run storage.inner).2 ∧
      (call.run storage).2.Left n := by
  cases call with
  | read offset length => exact guarded_passes h .read (some offset) (PagedStorage.read offset length)
  | write offset data =>
    exact logged_passes (guarded_passes h .write (some offset) (PagedStorage.write offset data)) _ _ _
  | size =>
    obtain ⟨hanswer, hinner, hleft⟩ := guarded_passes h .size none PagedStorage.size
    rw [← size_apply_of_left h] at hanswer hinner hleft
    exact ⟨hanswer, hinner, hleft⟩
  | grow target =>
    exact logged_passes (guarded_passes h .grow (some target) (PagedStorage.grow target)) _ _ _
  | flush => exact logged_passes (guarded_passes h .flush none PagedStorage.flush) _ _ _

/-- A call behind the end does nothing. -/
theorem run_of_left_zero (h : storage.Left 0) (call : SlotCall) :
    (call.run storage).2.inner = storage.inner ∧ (call.run storage).2.Left 0 := by
  cases call with
  | read offset length => exact guarded_drops h .read (some offset) (PagedStorage.read offset length)
  | write offset data =>
    exact logged_drops (guarded_drops h .write (some offset) (PagedStorage.write offset data)) _ _ _
  | size =>
    obtain ⟨hinner, hleft⟩ := guarded_drops h .size none PagedStorage.size
    rw [← size_apply_of_left h] at hinner hleft
    exact ⟨hinner, hleft⟩
  | grow target => exact logged_drops (guarded_drops h .grow (some target) (PagedStorage.grow target)) _ _ _
  | flush => exact logged_drops (guarded_drops h .flush none PagedStorage.flush) _ _ _

omit [PagedStorage σ] in
theorem inner_guarded (call : StorageCall) (offset : Option Nat) (act : StorageM σ α) (storage : Unreliable σ) :
    (guarded call offset act storage).2.inner = storage.inner ∨
      (guarded call offset act storage).2.inner = (act storage.inner).2 := by
  obtain ⟨faults, -, happly | happly⟩ := guarded_cases call offset act storage
  · rw [happly]
    exact .inl rfl
  · rw [happly]
    exact .inr rfl

omit [PagedStorage σ] in
theorem inner_logged (call : StorageCall) (target length : Nat) (act : StorageM (Unreliable σ) α)
    (storage : Unreliable σ) : (logged call target length act storage).2.inner = (act storage).2.inner := by
  obtain ⟨faults, -, happly⟩ := logged_apply call target length act storage
  rw [happly]

omit [PagedStorage σ] in
/-- A call that is answered was made. -/
theorem inner_of_ok {call : StorageCall} {offset : Option Nat} {target length : Nat} {act : StorageM σ α}
    {storage : Unreliable σ} {a : α}
    (h : (logged call target length (guarded call offset act) storage).1 = .ok a) :
    (logged call target length (guarded call offset act) storage).2.inner = (act storage.inner).2 := by
  obtain ⟨faults, -, hlogged⟩ := logged_apply call target length (guarded call offset act) storage
  rw [hlogged] at h ⊢
  obtain ⟨faults, -, hguarded | hguarded⟩ := guarded_cases call offset act storage
  · rw [hguarded] at h
    cases h
  · rw [hguarded]

/-- A call does to the storage behind what it does there, or nothing. -/
theorem inner_run (h : storage.faults.plan.Plain) (call : SlotCall) :
    (call.run storage).2.inner = storage.inner ∨ (call.run storage).2.inner = (call.run storage.inner).2 := by
  cases call with
  | read offset length => exact inner_guarded .read (some offset) (PagedStorage.read offset length) storage
  | write offset data =>
    have hinner := inner_guarded .write (some offset) (PagedStorage.write offset data) storage
    rwa [← inner_logged .write offset data.size] at hinner
  | size =>
    have hinner := inner_guarded .size none PagedStorage.size storage
    rwa [← size_apply h] at hinner
  | grow target =>
    have hinner := inner_guarded .grow (some target) (PagedStorage.grow target) storage
    rwa [← inner_logged .grow target 0] at hinner
  | flush =>
    have hinner := inner_guarded .flush none PagedStorage.flush storage
    rwa [← inner_logged .flush 0 0] at hinner

end Unreliable

namespace Dialogue

variable [PagedStorage σ]

private theorem inner_run_of_left_zero (dialogue : Dialogue α) {storage : Unreliable σ} (h : storage.Left 0) :
    (dialogue.run storage).2.inner = storage.inner := by
  induction dialogue generalizing storage with
  | done result => rfl
  | ask call next ih =>
    obtain ⟨hinner, hleft⟩ := Unreliable.run_of_left_zero h call
    exact (ih _ hleft).trans hinner

private theorem exists_left {dialogue : Dialogue α} {storage moment : σ} (h : moment ∈ dialogue.moments storage) :
    ∃ n, ∀ unreliable : Unreliable σ, unreliable.inner = storage → unreliable.Left n →
      (dialogue.run unreliable).2.inner = moment := by
  induction dialogue generalizing storage with
  | done result =>
    refine ⟨0, fun unreliable hinner hleft => ?_⟩
    rw [List.mem_singleton.1 h]
    exact hinner
  | ask call next ih =>
    rcases List.mem_cons.1 h with rfl | h
    · -- cut off before the first call
      exact ⟨0, fun unreliable hinner hleft => (inner_run_of_left_zero _ hleft).trans hinner⟩
    · obtain ⟨n, hn⟩ := ih _ h
      refine ⟨n + 1, fun unreliable hinner hleft => ?_⟩
      obtain ⟨hanswer, hinner', hleft'⟩ := Unreliable.run_of_left_succ hleft call
      rw [run, hanswer, hinner]
      apply hn _ _ hleft'
      rw [hinner', hinner]

/-- Every moment of a dialogue is where it leaves the storage if it is cut off there. -/
theorem exists_cutOff {dialogue : Dialogue α} {storage moment : σ} (h : moment ∈ dialogue.moments storage) :
    ∃ n, (dialogue.run (Unreliable.cutOff storage n)).2.inner = moment := by
  obtain ⟨n, hn⟩ := exists_left h
  exact ⟨n, hn _ rfl (Unreliable.left_cutOff storage n)⟩

end Dialogue

end RecordStore
