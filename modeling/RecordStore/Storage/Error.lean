import RecordStore.Disk.Entry
import RecordStore.Page.Number
import RecordStore.Text.Quoted

/-!
# Storage errors

Why a call on a paged file, its cache or a byte storage fails.  `StorageError.message` words every cause once.
-/

namespace RecordStore

inductive PageSizeFault
  | notPowerOfTwo
  | tooSmall
  | tooLarge
deriving DecidableEq

def PageSizeFault.message : PageSizeFault → String
  | .notPowerOfTwo => "must be a power of two"
  | .tooSmall => "below minimum of 256 bytes"
  | .tooLarge => "above maximum of 16 MiB"

/-- The calls a byte storage answers. -/
inductive StorageCall
  | read
  | write
  | size
  | grow
  | flush
  | close
deriving DecidableEq

def StorageCall.name : StorageCall → String
  | .read => "read"
  | .write => "write"
  | .size => "size"
  | .grow => "grow"
  | .flush => "flush"
  | .close => "close"

inductive IoFault
  /-- The file ends inside a page that is being read. -/
  | unexpectedEnd
  /-- A file would become longer than a file can be. -/
  | lengthTooLarge
  | injected (call : StorageCall)
deriving DecidableEq

def IoFault.message : IoFault → String
  | .unexpectedEnd => "failed to fill whole buffer"
  | .lengthTooLarge => "number too large to fit in target type"
  | .injected call => s!"injected {call.name} failure"

inductive StorageError
  | file (path : String) (cause : OsError)
  | io (cause : IoFault)
  | pageNotFound (page : PageNumber)
  | cacheFull (frames : Nat)
  | outOfBounds (offset length size : Nat)
  | invalidPageSize (pageSize : Nat) (fault : PageSizeFault)
  | bufferSizeMismatch (expected actual : Nat)
  | closed
deriving DecidableEq

def StorageError.message : StorageError → String
  | .file path cause => s!"IO error on {Quoted.text path}: {cause.message}"
  | .io cause => s!"IO error: {cause.message}"
  | .pageNotFound page => s!"Page not found: {page.text}"
  | .cacheFull frames => s!"Buffer pool is full: all {frames} frames are pinned"
  | .outOfBounds offset length size =>
    s!"Access [{offset}, {offset}+{length}) is outside storage of {size} bytes"
  | .invalidPageSize pageSize fault => s!"Invalid page size {pageSize}: {fault.message}"
  | .bufferSizeMismatch expected actual => s!"Buffer size must be the page size ({expected}), got {actual}"
  | .closed => "Storage is closed"

end RecordStore
