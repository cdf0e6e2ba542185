import RecordStore.Command.Arguments
import RecordStore.Command.Failure
import RecordStore.Session.Lifecycle
import RecordStore.Session.Records
import RecordStore.Session.Scan
import RecordStore.Text.Column

/-!
# Commands

One call of the program is one session on one file: it is opened, the action is carried out, and it is closed even if
the action failed.
-/

namespace RecordStore.Command

/-- What a call of the program finds around it. -/
structure Surroundings where
  /-- What stands under the path of the store. -/
  entry : Entry
  /-- What stands under the path that a payload is read from; `none` if that is the file of the store itself. -/
  input : Option Entry
  standardInput : ByteArray

/-- What a call of the program leaves behind. -/
structure Outcome where
  output : ByteArray
  failure : Option Failure
  /-- The file of the store, if it was opened. -/
  file : Option SparseFile

def Outcome.code (outcome : Outcome) : Nat := if outcome.failure.isSome then 1 else 0

/-- An action in progress: what it printed stays printed if it fails. -/
abbrev ActionM := ExceptT Failure (StateM (Session CachedFile × ByteArray))

def inSession {α : Type} (act : SessionM CachedFile α) : ActionM α := fun (session, output) =>
  match act session with
  | (.ok a, session) => (.ok a, session, output)
  | (.error e, session) => (.error (.store e), session, output)

def printBytes (bytes : ByteArray) : ActionM Unit :=
  modify fun (session, output) => (session, output ++ bytes)

def printLine (line : String) : ActionM Unit := printBytes (line ++ "\n").toUTF8

def recordId (index : Nat) : Except Failure RecordId :=
  match RecordId.ofIndex? index with
  | some id => .ok id
  | none => .error (.invalidId index)

def payload (around : Surroundings) : Option Source → ActionM ByteArray
  | none => throw .noPayload
  | some (.text value) => return value.toUTF8
  | some .standardInput => return around.standardInput
  | some (.file path) => do
    let own := (← get).1.storage.onDisk
    match around.input.getD (.regular own) with
    | .regular file => return file.read 0 file.length
    | .missing => throw (.unreadableInput path .noSuchFile)
    | .blocked cause => throw (.unreadableInput path cause)

def describe : SlotHeader → String
  | .live capacity length none => s!"length={length} capacity={capacity}"
  | .live capacity length (some origin) => s!"length={length} capacity={capacity} origin={origin.text}"
  | .moved capacity target => s!"-> {target.text} capacity={capacity}"
  | .deleted capacity _ false => s!"capacity={capacity}"
  | .deleted capacity _ true => s!"capacity={capacity} (was redirect)"
  | .padding capacity => s!"capacity={capacity}"

def slotLine (slot : ScannedSlot) : String :=
  Column.alignRight 10 (toString slot.id.index) ++ " " ++ Column.alignLeft 8 slot.header.state.name ++ " " ++
    describe slot.header

def scan : ActionM Unit := fun (session, output) =>
  let ((failure, slots), session) := Session.records session
  let output := slots.foldl (fun output slot => output ++ (slotLine slot ++ "\n").toUTF8) output
  match failure with
  | none => (.ok (), session, output)
  | some e => (.error (.store e), session, output)

def carryOut (around : Surroundings) : Action → ActionM Unit
  | .put index source => do
    let bytes ← payload around source
    let id ← match index with
      | none => inSession (Session.insert bytes)
      | some index => do inSession (Session.update (← liftExcept (recordId index)) bytes)
    printLine (toString id.index)
  | .get index => do printBytes (← inSession (Session.read (← liftExcept (recordId index))))
  | .delete index => do inSession (Session.delete (← liftExcept (recordId index)))
  | .stats => do
    let session := (← get).1
    printLine s!"version: {session.header.version}"
    printLine s!"page size: {session.pageSize}"
    printLine session.counters.text
  | .scan => scan
  | .recover => do printLine (← inSession Session.recover).text

/-- Carries the action out on an open session and closes it.  Closing that fails is what is reported, whatever became
of the action. -/
def finish (around : Surroundings) (action : Action) (session : Session CachedFile) : Outcome :=
  let (result, session, output) := carryOut around action (session, ByteArray.empty)
  let (closed, session) := (Session.close : SessionM CachedFile Unit) session
  let failure := match closed, result with
    | .error e, _ => some (.closing e)
    | .ok (), .error failure => some failure
    | .ok (), .ok () => none
  { output, failure, file := some session.storage.onDisk }

def run (arguments : Arguments) (around : Surroundings) : Outcome :=
  let options : Options := { Options.default with pageSize := arguments.pageSize, frames := arguments.frames }
  match Session.openFile arguments.file around.entry arguments.strategy.policy options with
  | .ok session => finish around arguments.action session
  | .error (e, file) =>
    { output := ByteArray.empty, failure := some (.opening arguments.file e), file := file.map (·.onDisk) }

end RecordStore.Command
