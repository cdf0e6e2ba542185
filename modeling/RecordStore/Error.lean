import RecordStore.FileHeader
import RecordStore.Storage.Error

/-!
# Store errors

Why an operation on a store fails.
-/

namespace RecordStore

inductive StoreError
  | io (cause : StorageError)
  | format (fault : FormatFault)
  | corruption (offset : Nat) (damage : Damage)
  | notFound (id : RecordId)
  | deleted (id : RecordId)
  | capacity (requested limit : Nat)
  | full (offset : Nat)
  | closed
deriving DecidableEq

def StoreError.message : StoreError → String
  | .io cause => s!"I/O error: {cause.message}"
  | .format fault => s!"Unrecognized storage format: {fault.message}"
  | .corruption offset damage => s!"Corrupted record at offset {offset}: {damage.message}"
  | .notFound id => s!"Record {id.text} not found"
  | .deleted id => s!"Record {id.text} has been deleted"
  | .capacity requested limit => s!"Payload of {requested} bytes exceeds maximum record capacity of {limit} bytes"
  | .full offset => s!"Storage is full: no record id for offset {offset}"
  | .closed => "Blob storage is closed"

end RecordStore
