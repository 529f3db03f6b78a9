import WikiSync.Document.Basic

/-!
# The change queue

Outside changes wait in a queue until the synchronizer drains it. A title waits either as a
modification or as a deletion, the latest change winning; each kind keeps its titles in the
order they first arrived since the last drain, and a title queued again keeps its place.
Draining hands over both title lists and forgets the deletions; the data needed to load a
modified document stays until it is taken.
-/

namespace WikiSync

/-- What happened to a file. -/
inductive ChangeKind where
  | add
  | change
  | delete
  deriving BEq, DecidableEq, Inhabited, Repr

/-- The name of a change kind. -/
def ChangeKind.name : ChangeKind → String
  | .add => "Add"
  | .change => "Change"
  | .delete => "Delete"

/-- One outside change: the file it happened to and, when caching is on, the fields read when
it was seen. -/
structure PendingChange where
  /-- The file's absolute path. -/
  absolutePath : String
  /-- The file's path relative to its root. -/
  relativePath : String
  /-- What happened. -/
  kind : ChangeKind
  /-- The fields read when the change was seen. -/
  cachedFields : Option Fields
  deriving BEq, Inhabited

/-- A deletion of a file. -/
def PendingChange.deleted (absolutePath relativePath : String) : PendingChange :=
  ⟨absolutePath, relativePath, .delete, none⟩

/-- The titles handed over by one drain. -/
structure Drained where
  /-- Titles modified, in arrival order. -/
  modifications : List String
  /-- Titles deleted, in arrival order. -/
  deletions : List String

/-- Modified and deleted titles waiting for the synchronizer. -/
structure ChangeQueue where
  /-- Modified titles, in arrival order. -/
  modifications : List String := []
  /-- Deleted titles, in arrival order. -/
  deletions : List String := []
  /-- The change to load for each modified title. -/
  loads : List (String × PendingChange) := []
  /-- The change behind each deleted title. -/
  removals : List (String × PendingChange) := []
  deriving Inhabited

namespace ChangeQueue

/-- Append a title unless present. -/
def addTitle (ts : List String) (t : String) : List String :=
  if ts.contains t then ts else ts ++ [t]

/-- Set the change of a title. -/
def setChange (l : List (String × PendingChange)) (t : String) (c : PendingChange) :
    List (String × PendingChange) :=
  (l.filter (·.1 != t)) ++ [(t, c)]

/-- The change of a title. -/
def changeOf (l : List (String × PendingChange)) (t : String) : Option PendingChange :=
  (l.find? (·.1 == t)).map (·.2)

/-- Queue a modification; it replaces a waiting deletion of the title. -/
def queueModification (q : ChangeQueue) (t : String) (c : PendingChange) : ChangeQueue :=
  { q with
    deletions := q.deletions.filter fun x => x != t
    removals := q.removals.filter fun e => e.1 != t
    loads := setChange q.loads t c
    modifications := addTitle q.modifications t }

/-- Queue a deletion; it replaces a waiting modification of the title. -/
def queueDeletion (q : ChangeQueue) (t : String) (c : PendingChange) : ChangeQueue :=
  { q with
    modifications := q.modifications.filter fun x => x != t
    loads := q.loads.filter fun e => e.1 != t
    removals := setChange q.removals t c
    deletions := addTitle q.deletions t }

/-- Hand over both title lists; load data stays until taken. -/
def drain (q : ChangeQueue) : ChangeQueue × Drained :=
  ({ q with modifications := [], deletions := [], removals := [] }, ⟨q.modifications, q.deletions⟩)

/-- Take the load data of a title. -/
def takeLoad (q : ChangeQueue) (t : String) : ChangeQueue × Option PendingChange :=
  ({ q with loads := q.loads.filter (·.1 != t) }, changeOf q.loads t)

/-- The change waiting for a title, in whichever list holds it. -/
def pending (q : ChangeQueue) (t : String) : Option PendingChange :=
  if q.deletions.contains t then changeOf q.removals t
  else if q.modifications.contains t then changeOf q.loads t
  else none

/-- Whether a title waits as a modification. -/
def isModified (q : ChangeQueue) (t : String) : Bool :=
  q.modifications.contains t

/-- Whether a title waits as a deletion. -/
def isDeleted (q : ChangeQueue) (t : String) : Bool :=
  q.deletions.contains t

/-- Whether no title waits. -/
def isEmpty (q : ChangeQueue) : Bool :=
  q.modifications.isEmpty && q.deletions.isEmpty

/-- Forget everything. -/
def clear (_ : ChangeQueue) : ChangeQueue := {}

end ChangeQueue

end WikiSync
