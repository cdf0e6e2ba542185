import RecordStore.Page.File

/-!
# Options

How a store is opened.
-/

namespace RecordStore

structure Options where
  /-- Page size of the file, fixed for its life. -/
  pageSize : Nat
  /-- Pages kept in memory. -/
  frames : Nat
  /-- Redirects followed at most from one identifier to its record. -/
  maxHops : Nat
  /-- Whether the counters are taken from a scan if the last session did not close the file. -/
  recover : Bool
deriving DecidableEq

def defaultFrames : Nat := 64

def Options.default : Options :=
  { pageSize := defaultPageSize, frames := defaultFrames, maxHops := 16, recover := true }

end RecordStore
