import RecordStore.Error

/-!
# Failed commands

A command that fails is reported with the causes behind it, outermost first: one cause stands alone, several are
numbered.
-/

namespace RecordStore

/-- What lies behind a storage error. -/
def StorageError.causes : StorageError → List String
  | .file _ cause => [cause.message]
  | .io cause => [cause.message]
  | _ => []

/-- What lies behind a store error. -/
def StoreError.causes : StoreError → List String
  | .io cause => cause.message :: cause.causes
  | _ => []

namespace Command

inductive Failure
  | opening (path : String) (cause : StoreError)
  | closing (cause : StoreError)
  | store (cause : StoreError)
  | invalidId (index : Nat)
  | unreadableInput (path : String) (cause : OsError)
  | noPayload

namespace Failure

def message : Failure → String
  | .opening path _ => s!"Failed to open blob storage at {Quoted.text path}"
  | .closing _ => "Failed to close blob storage"
  | .store cause => cause.message
  | .invalidId index => s!"invalid record id {index}"
  | .unreadableInput path _ => s!"Failed to read payload from {Quoted.text path}"
  | .noPayload => "put needs --value or --input"

def causes : Failure → List String
  | .opening _ cause => cause.message :: cause.causes
  | .closing cause => cause.message :: cause.causes
  | .store cause => cause.causes
  | .invalidId _ => []
  | .unreadableInput _ cause => [cause.message]
  | .noPayload => []

def report (failure : Failure) : String :=
  let behind := match failure.causes with
    | [] => ""
    | [cause] => s!"\nCaused by:\n    {cause}\n"
    | causes => "\nCaused by:\n" ++ String.join (causes.mapIdx fun k cause => s!"    {k}: {cause}\n")
  s!"Error: {failure.message}\n{behind}"

end Failure

end Command

end RecordStore
