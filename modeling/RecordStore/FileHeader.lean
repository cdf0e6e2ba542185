import RecordStore.Bytes.LittleEndian
import RecordStore.Counters

/-!
# File headers

The first 64 bytes of a store: what kind of file it is, whether the last session closed it, and its counters.  A
header of zeros belongs to a file that was grown and never set up.
-/

namespace RecordStore

inductive FileStatus
  | closed
  | opened
deriving DecidableEq

namespace FileStatus

def code : FileStatus → Nat
  | .closed => 1
  | .opened => 2

def ofCode? : Nat → Option FileStatus
  | 1 => some .closed
  | 2 => some .opened
  | _ => none

end FileStatus

/-- Why a file is not taken for a store. -/
inductive FormatFault
  | headerCut (available : Nat)
  | badMagic (magic : Nat)
  | unknownVersion (version : Nat)
  | unknownStatus (code : Nat)
  | unsupportedPageSize (pageSize : Nat)
  | tooSmall (size : Nat)
  | otherPageSize (created opened : Nat)
  | badEnd (stop size : Nat)
deriving DecidableEq

structure FileHeader where
  version : Nat
  pageSize : Nat
  status : FileStatus
  counters : Counters
deriving DecidableEq

namespace FileHeader

/-- Bytes of the header; the first slot starts behind it. -/
def size : Nat := 64

/-- The bytes "BLBS". -/
def magic : Nat := 0x53424c42

def currentVersion : Nat := 1

/-- The header of a store without slots, in its first session. -/
def new (pageSize : Nat) : FileHeader :=
  { version := currentVersion, pageSize, status := .opened, counters := { Counters.zero with size } }

def encode (header : FileHeader) : List UInt8 :=
  LittleEndian.encode 4 magic ++ LittleEndian.encode 4 header.version ++ LittleEndian.encode 4 header.pageSize ++
  LittleEndian.encode 4 header.status.code ++ LittleEndian.encode 8 header.counters.size ++
  LittleEndian.encode 8 header.counters.allocated ++ LittleEndian.encode 8 header.counters.deleted ++
  LittleEndian.encode 8 header.counters.relocated ++ LittleEndian.encode 8 header.counters.payload ++
  LittleEndian.encode 8 header.counters.capacity

@[simp] theorem length_encode (header : FileHeader) : header.encode.length = size := by
  simp [encode, size]

/-- The word of `width` bytes at `position`. -/
def word (bytes : List UInt8) (position width : Nat) : Nat :=
  LittleEndian.decode ((bytes.drop position).take width)

/-- The header that `bytes` start with, or `none` for a file that was never set up. -/
def decode (bytes : List UInt8) : Except FormatFault (Option FileHeader) := do
  if bytes.length < size then throw (.headerCut bytes.length)
  if (bytes.take size).all (· = 0) then return none
  if word bytes 0 4 ≠ magic then throw (.badMagic (word bytes 0 4))
  if word bytes 4 4 ≠ currentVersion then throw (.unknownVersion (word bytes 4 4))
  match FileStatus.ofCode? (word bytes 12 4) with
  | none => throw (.unknownStatus (word bytes 12 4))
  | some status =>
    return some {
      version := word bytes 4 4
      pageSize := word bytes 8 4
      status
      counters := {
        size := word bytes 16 8
        allocated := word bytes 24 8
        deleted := word bytes 32 8
        relocated := word bytes 40 8
        payload := word bytes 48 8
        capacity := word bytes 56 8 } }

end FileHeader

def FormatFault.message : FormatFault → String
  | .headerCut available => s!"storage header truncated: {available} of {FileHeader.size} bytes"
  | .badMagic magic => s!"bad magic {Hexadecimal.text 8 magic}"
  | .unknownVersion version => s!"unsupported version {version}, expected {FileHeader.currentVersion}"
  | .unknownStatus code => s!"unknown file status {code}"
  | .unsupportedPageSize pageSize => s!"unsupported page size {pageSize}"
  | .tooSmall size => s!"storage of {size} bytes is too small for a header"
  | .otherPageSize created opened => s!"storage was created with page size {created}, opened with {opened}"
  | .badEnd stop size => s!"records end at {stop} but storage holds {size} bytes"

end RecordStore
