import WikiSync.Index.FileIndex

/-!
# The indexes of all watched roots

An index set holds one file index per registered root. The root that owns an absolute path is
the registered root with the most components among those whose components begin the path's.
Inserting a record tracks it in its owning root under the path relative to that root, and drops
its title from every other root first, so that a title is tracked at one path in the whole set.
-/

namespace WikiSync

/-- One file index per registered root. -/
structure IndexSet where
  /-- The indexes, one per root; roots are pairwise different. -/
  indexes : List FileIndex := []
  deriving Inhabited

namespace IndexSet

/-- The registered roots. -/
def roots (s : IndexSet) : List String :=
  s.indexes.map (·.root)

/-- Whether a root is registered. -/
def isRegistered (s : IndexSet) (root : String) : Bool :=
  s.indexes.any fun ix => Path.same ix.root root

/-- Register a root; false when it was registered already. -/
def registerRoot (s : IndexSet) (root : String) : IndexSet × Bool :=
  if s.isRegistered root then (s, false) else (⟨s.indexes ++ [FileIndex.new root]⟩, true)

/-- A set with one registered root. -/
def withRoot (root : String) : IndexSet :=
  ⟨[FileIndex.new root]⟩

/-- The index of a registered root. -/
def index? (s : IndexSet) (root : String) : Option FileIndex :=
  s.indexes.find? fun ix => Path.same ix.root root

/-- Drop a root and all it tracks; its index, when it was registered. -/
def deregisterRoot (s : IndexSet) (root : String) : IndexSet × Option FileIndex :=
  (⟨s.indexes.filter fun ix => !Path.same ix.root root⟩, s.index? root)

/-- Replace the index of a root. -/
def update (s : IndexSet) (ix : FileIndex) : IndexSet :=
  ⟨s.indexes.map fun old => if Path.same old.root ix.root then ix else old⟩

/-- The root owning an absolute path: of the roots beginning it, the one with most components. -/
def owningRoot? (s : IndexSet) (p : String) : Option String :=
  let candidates := s.roots.filter (Path.startsWith p)
  candidates.foldl (fun best r => match best with
    | none => some r
    | some b => if (Path.components r).length ≥ (Path.components b).length then some r else some b)
    none

/-- An absolute path split into its owning root and the path relative to it. -/
def split (s : IndexSet) (p : String) : Except IndexError (String × String) :=
  match s.owningRoot? p with
  | some root => match Path.stripPrefix? p root with
    | some rel => .ok (root, rel)
    | none => .error (.noOwningRoot p)
  | none => .error (.noOwningRoot p)

/-- The record tracked for a title in any root. -/
def recordForTitle? (s : IndexSet) (t : String) : Option FileRecord :=
  s.indexes.findSome? fun ix => (ix.pathForTitle? t).bind ix.get?

/-- The record tracked at an absolute path. -/
def recordAt? (s : IndexSet) (p : String) : Option FileRecord :=
  match s.split p with
  | .ok (root, rel) => (s.index? root).bind (·.get? rel)
  | .error _ => none

/-- Record the other titles stored in the file at an absolute path. -/
def setBundled (s : IndexSet) (p : String) (titles : List String) : IndexSet :=
  match s.split p with
  | .ok (root, rel) => match s.index? root with
    | some ix => s.update (ix.setBundled rel titles)
    | none => s
  | .error _ => s

/-- The other titles stored in the file at an absolute path. -/
def bundledAt (s : IndexSet) (p : String) : List String :=
  match s.split p with
  | .ok (root, rel) => ((s.index? root).map (·.bundled rel)).getD []
  | .error _ => []

/-- The title tracked at an absolute path. -/
def titleAt (s : IndexSet) (p : String) : Except IndexError String :=
  match s.split p with
  | .ok (root, rel) => match s.index? root with
    | some ix => ix.titleByPath rel
    | none => .error (.notFound p)
  | .error e => .error e

/-- Track a record at its absolute path, under the path relative to its owning root; its title
is dropped from every other root first. The record displaced from the path, if it belonged to
another title. -/
def insert (s : IndexSet) (r : FileRecord) : Except IndexError (IndexSet × Option FileRecord) :=
  match s.split r.absolutePath with
  | .error e => .error e
  | .ok (root, rel) =>
    let r := { r with relativePath := rel }
    let s : IndexSet := ⟨s.indexes.map fun ix =>
      if Path.same ix.root root then ix else (ix.removeTitle r.title).1⟩
    match s.index? root with
    | some ix =>
      let (ix, displaced) := ix.set rel r
      .ok (s.update ix, displaced)
    | none => .error (.noOwningRoot r.absolutePath)

/-- Stop tracking the document at an absolute path. -/
def removePath (s : IndexSet) (p : String) : IndexSet × Option FileRecord :=
  match s.split p with
  | .ok (root, rel) => match s.index? root with
    | some ix =>
      let (ix, r) := ix.delete rel
      (s.update ix, r)
    | none => (s, none)
  | .error _ => (s, none)

/-- Stop tracking a title wherever it lives. -/
def removeTitle (s : IndexSet) (t : String) : IndexSet × Option FileRecord :=
  match s.indexes.find? (fun ix => (ix.pathForTitle? t).isSome) with
  | some ix =>
    let (ix, r) := ix.removeTitle t
    (s.update ix, r)
  | none => (s, none)

/-- The number of tracked documents. -/
def len (s : IndexSet) : Nat :=
  (s.indexes.map FileIndex.len).foldl (· + ·) 0

/-- Whether a path is tracked at all. -/
def isTrackedPath (s : IndexSet) (p : String) : Bool :=
  (s.recordAt? p).isSome

/-- The indexes in path order of their roots. -/
def sortedIndexes (s : IndexSet) : List FileIndex :=
  s.indexes.mergeSort fun a b => Path.compare a.root b.root != .gt

end IndexSet

end WikiSync
