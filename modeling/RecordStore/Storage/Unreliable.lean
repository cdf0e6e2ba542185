import RecordStore.Storage.Basic

/-!
# Unreliable storages

A storage whose calls fail according to a plan.  A call that fails does nothing to the storage behind it, so a plan
shows how the layers above cope with every pattern of failures.  Calls that change something are written down in the
order in which they were made.  A storage that is lost fails every call from then on.
-/

namespace RecordStore

inductive Verdict
  | proceed
  | fail
  /-- Only for calls that answer a number: answer this one. -/
  | answer (value : Nat)

/-- Decides on a call from the calls decided on before it, its kind, and the offset it is made at, if it has one. -/
abbrev FaultPlan := List StorageCall → StorageCall → Option Nat → Verdict

/-- Which calls of one kind fail. -/
inductive FaultRule
  | always
  | atOffset (offset : Nat)
  /-- So many calls of the kind pass, and none after them. -/
  | after (passing : Nat)
  | answering (value : Nat)

namespace FaultPlan

def allPass : FaultPlan := fun _ _ _ => .proceed

/-- The plan in which calls of every kind follow the rule for that kind. -/
def ofRules (ruleFor : StorageCall → Option FaultRule) : FaultPlan := fun before call offset =>
  match ruleFor call with
  | none => .proceed
  | some .always => .fail
  | some (.atOffset place) => if offset = some place then .fail else .proceed
  | some (.after passing) => if before.count call < passing then .proceed else .fail
  | some (.answering value) => .answer value

end FaultPlan

/-- A call that would have changed the storage, and whether it failed. -/
structure LoggedCall where
  call : StorageCall
  /-- The offset of a write or the size to grow to. -/
  target : Nat
  length : Nat
  failed : Bool

def LoggedCall.text (entry : LoggedCall) : String :=
  let words := match entry.call with
    | .write => s!"write {entry.target} {entry.length}"
    | .grow => s!"grow {entry.target}"
    | call => call.name
  if entry.failed then words ++ " !" else words

/-- A plan in force, and what became of the calls it was asked about. -/
structure Faults where
  plan : FaultPlan
  /-- The calls decided on since the plan was set, last first. -/
  decided : List StorageCall
  /-- The calls made that would have changed the storage, last first. -/
  log : List LoggedCall

namespace Faults

def none : Faults := { plan := .allPass, decided := [], log := [] }

def setPlan (faults : Faults) (plan : FaultPlan) : Faults := { faults with plan, decided := [] }

/-- The verdict on a call, which counts as decided on from then. -/
def decide (faults : Faults) (call : StorageCall) (offset : Option Nat) : Verdict × Faults :=
  (faults.plan faults.decided call offset, { faults with decided := call :: faults.decided })

end Faults

structure Unreliable (σ : Type) where
  inner : σ
  /-- The page size to report in place of the inner one. -/
  reported : Option Nat
  faults : Faults
  lost : Bool

namespace Unreliable

variable {σ : Type}

/-- From now on every call fails and none is written down. -/
def lose (storage : Unreliable σ) : Unreliable σ := { storage with lost := true }

/-- The verdict on a call; a lost storage fails it without asking the plan. -/
def decide (call : StorageCall) (offset : Option Nat) : StorageM (Unreliable σ) Verdict := do
  let storage ← get
  if storage.lost then return .fail
  let (verdict, faults) := storage.faults.decide call offset
  set { storage with faults }
  return verdict

def onInner {α : Type} (act : StorageM σ α) : StorageM (Unreliable σ) α := fun storage =>
  match act storage.inner with
  | (result, inner) => (result, { storage with inner })

/-- Writes the call down once its outcome is known. -/
def logged {α : Type} (call : StorageCall) (target length : Nat) (act : StorageM (Unreliable σ) α) :
    StorageM (Unreliable σ) α := fun storage =>
  match act storage with
  | (result, storage) =>
    let failed := match result with
      | .ok _ => false
      | .error _ => true
    (result, if storage.lost then storage
      else { storage with
        faults := { storage.faults with log := { call, target, length, failed } :: storage.faults.log } })

def guarded {α : Type} (call : StorageCall) (offset : Option Nat) (act : StorageM σ α) :
    StorageM (Unreliable σ) α := do
  match ← decide call offset with
  | .fail => throw (.io (.injected call))
  | _ => onInner act

instance [PagedStorage σ] : PagedStorage (Unreliable σ) where
  pageSize storage := storage.reported.getD (PagedStorage.pageSize storage.inner)
  read offset length := guarded .read (some offset) (PagedStorage.read offset length)
  write offset data := logged .write offset data.size (guarded .write (some offset) (PagedStorage.write offset data))
  size := do
    match ← decide .size none with
    | .fail => throw (.io (.injected .size))
    | .answer value => return value
    | .proceed => onInner PagedStorage.size
  grow target := logged .grow target 0 (guarded .grow (some target) (PagedStorage.grow target))
  flush := logged .flush 0 0 (guarded .flush none PagedStorage.flush)
  close := logged .close 0 0 (guarded .close none PagedStorage.close)

end Unreliable

end RecordStore
