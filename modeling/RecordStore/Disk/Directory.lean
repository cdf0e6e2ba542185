import RecordStore.Disk.Entry

/-!
# Directories

A tree of files and directories.  A path is walked name by name from the top of the tree, which is its own parent;
`locate` says which place it leads to, and `find` what opening it finds there: the way to a place has to exist, the
place itself need not.  Setting an entry changes that place and no other (`entryAt_set_self`, `entryAt_set_of_ne`).
-/

namespace RecordStore

/-- A place in a tree, given by the names on the way down to it. -/
abbrev Place := List String

structure Directory where
  entries : List (Place × Entry)

/-- What a path is opened for.  A store is created where nothing stands. -/
inductive Access
  | reading
  | creating

namespace Directory

def empty : Directory := ⟨[]⟩

def entryAt (tree : Directory) (place : Place) : Entry :=
  if place = [] then .directory else (tree.entries.lookup place).getD .missing

def set (tree : Directory) (place : Place) (entry : Entry) : Directory :=
  ⟨(place, entry) :: tree.entries.filter (·.1 ≠ place)⟩

/-- A name has at most 255 bytes. -/
def maxNameSize : Nat := 255

/-- A path has at most 4095 bytes. -/
def maxPathSize : Nat := 4095

/-- Where `name` leads from the directory at `place`. -/
def follow (place : Place) (name : String) : Except OsError Place :=
  if name = "." then .ok place
  else if name = ".." then .ok place.dropLast
  else if maxNameSize < name.utf8ByteSize then .error .nameTooLong
  else .ok (place ++ [name])

def descend (tree : Directory) (place : Place) (name : String) : Except OsError Place :=
  match tree.entryAt place with
  | .missing => .error .noSuchFile
  | .regular _ => .error .notADirectory
  | .blocked .isADirectory => follow place name
  | .blocked cause => .error cause

def walk (tree : Directory) (names : List String) : Except OsError Place := names.foldlM tree.descend []

/-- A slash at the end asks for a directory, as a last name `.` does; where a file could be created it is refused
before anything is looked up there. -/
def locate (tree : Directory) (access : Access) (path : String) : Except OsError Place :=
  if maxPathSize < path.utf8ByteSize then .error .nameTooLong
  else
    let names := (path.splitOn "/").filter (· ≠ "")
    match path.endsWith "/", access with
    | false, _ => tree.walk names
    | true, .reading => tree.walk (names ++ ["."])
    | true, .creating => do
      let _ ← tree.walk (names.dropLast ++ ["."])
      .error .isADirectory

def find (tree : Directory) (access : Access) (path : String) : Entry :=
  match tree.locate access path with
  | .ok place => tree.entryAt place
  | .error cause => .blocked cause

theorem entryAt_set_self (tree : Directory) {place : Place} (h : place ≠ []) (entry : Entry) :
    (tree.set place entry).entryAt place = entry := by
  simp [entryAt, set, h]

private theorem lookup_filter_ne {place other : Place} (h : other ≠ place) (entries : List (Place × Entry)) :
    (entries.filter (·.1 ≠ place)).lookup other = entries.lookup other := by
  induction entries with
  | nil => rfl
  | cons head rest ih =>
    obtain ⟨first, entry⟩ := head
    by_cases same : first = place
    · have : (other == first) = false := by simpa [same] using h
      rw [List.filter_cons_of_neg (by simpa using same), List.lookup_cons, this, ih]
    · rw [List.filter_cons_of_pos (by simpa using same), List.lookup_cons, List.lookup_cons, ih]

theorem entryAt_set_of_ne (tree : Directory) {place other : Place} (h : other ≠ place) (entry : Entry) :
    (tree.set place entry).entryAt other = tree.entryAt other := by
  have : (other == place) = false := by simpa using h
  simp only [entryAt, set, List.lookup_cons, this, lookup_filter_ne h]

end Directory

end RecordStore
