import RecordStore.Disk.SparseFile

/-!
# Directory entries

What stands under a path, and the reasons for which a path cannot be opened.
-/

namespace RecordStore

inductive OsError
  | noSuchFile
  | permissionDenied
  | notADirectory
  | isADirectory
  | nameTooLong
deriving DecidableEq

def OsError.message : OsError → String
  | .noSuchFile => "No such file or directory (os error 2)"
  | .permissionDenied => "Permission denied (os error 13)"
  | .notADirectory => "Not a directory (os error 20)"
  | .isADirectory => "Is a directory (os error 21)"
  | .nameTooLong => "File name too long (os error 36)"

inductive Entry
  | missing
  | regular (file : SparseFile)
  /-- Nothing that can be opened as a file, for the reason given. -/
  | blocked (cause : OsError)

def Entry.directory : Entry := .blocked .isADirectory

end RecordStore
