/-!
# Change events

A watcher reports what happened to paths as notices of a kind; the pipeline wants only four
events: a path was created, modified or removed, or renamed from one path to another. A notice
becomes events path by path: creations and removals map to themselves, every modification to a
modification, the two halves of a rename to a removal and a creation, and a rename notice that
names exactly its two sides to one rename. A rename notice that does not say which side a path
is on asks the disk: a path that exists was created, one that does not was removed. Accesses and
other notices bring no events.
-/

namespace WikiSync

/-- A change the pipeline handles. -/
inductive RawEvent where
  | created (path : String)
  | modified (path : String)
  | removed (path : String)
  | renamed (src dst : String)
  deriving BEq, DecidableEq, Inhabited, Repr

/-- The paths an event touches. -/
def RawEvent.paths : RawEvent → List String
  | .created p | .modified p | .removed p => [p]
  | .renamed a b => [a, b]

/-- The kind of a watcher's notice. -/
inductive NoticeKind where
  | create
  | remove
  /-- A rename naming its old and new path, in that order. -/
  | renameBoth
  /-- The old side of a rename. -/
  | renameFrom
  /-- The new side of a rename. -/
  | renameTo
  /-- A rename that does not say which side a path is on. -/
  | renameUnknown
  /-- Any change of contents or metadata. -/
  | modify
  | access
  | other
  deriving BEq, DecidableEq, Inhabited, Repr

/-- A watcher's notice: what kind of change, to which paths. -/
structure Notice where
  kind : NoticeKind
  paths : List String
  deriving Inhabited

/-- The events a notice stands for; `exists` tells whether a path exists now. -/
def Notice.events (n : Notice) (pathExists : String → Bool) : List RawEvent :=
  let guess := n.paths.map fun p => if pathExists p then RawEvent.created p else .removed p
  match n.kind with
  | .create => n.paths.map .created
  | .remove => n.paths.map .removed
  | .renameBoth =>
    match n.paths with
    | [a, b] => [.renamed a b]
    | _ => guess
  | .renameFrom => n.paths.map .removed
  | .renameTo => n.paths.map .created
  | .renameUnknown => guess
  | .modify => n.paths.map .modified
  | .access | .other => []

end WikiSync
