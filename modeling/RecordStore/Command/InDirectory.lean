import RecordStore.Command.Run
import RecordStore.Disk.Directory

/-!
# Commands in a directory

A call of the program as a step on a tree of files: it finds its store and its payload there, and leaves the store
behind.
-/

namespace RecordStore.Command

/-- What `path` holds when a payload is read from it; `none` if it leads to the store itself.  By then the store is
open, so there is a file in its place. -/
def inputAt (tree : Directory) (store path : String) : Option Entry :=
  match tree.locate .creating store with
  | .error _ => some (tree.find .reading path)
  | .ok place =>
    let tree := match tree.entryAt place with
      | .missing => tree.set place (.regular SparseFile.empty)
      | _ => tree
    match tree.locate .reading path with
    | .error cause => some (.blocked cause)
    | .ok source => if source = place then none else some (tree.entryAt source)

def Surroundings.inDirectory (tree : Directory) (arguments : Arguments) (standardInput : ByteArray) : Surroundings where
  entry := tree.find .creating arguments.file
  input := match arguments.action with
    | .put _ (some (.file path)) => inputAt tree arguments.file path
    | _ => some .missing
  standardInput := standardInput

def runIn (tree : Directory) (arguments : Arguments) (standardInput : ByteArray) : Outcome × Directory :=
  let outcome := run arguments (.inDirectory tree arguments standardInput)
  match outcome.file, tree.locate .creating arguments.file with
  | some file, .ok place => (outcome, tree.set place (.regular file))
  | _, _ => (outcome, tree)

end RecordStore.Command
