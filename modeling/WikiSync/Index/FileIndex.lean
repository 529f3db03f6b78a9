import WikiSync.Index.Record

/-!
# The index of one root

A file index maps paths relative to one watched root to the records of the documents stored
there, and back from titles to paths: a path holds at most one tracked title and a title lives at
at most one path. Tracking a title at a new path drops its old path; tracking it at a path held by
another title displaces that title. A multi-document file tracks its first document and lists the
titles of the others as bundled with it; the list lives only while the path is tracked, and any
new record at the path clears it.

Paths are compared by their components, so `a//b` and `a/b` are one key. A key keeps the
spelling it was first given, while the path answered for a title is spelt as it was given when
the title was last tracked.
-/

namespace WikiSync

/-- Why an index lookup failed. -/
inductive IndexError where
  /-- No document is tracked at the path. -/
  | notFound (path : String)
  /-- No registered root contains the path. -/
  | noOwningRoot (path : String)
  deriving BEq, Inhabited, Repr

/-- The message of an index error. -/
def IndexError.message : IndexError → String
  | .notFound p => "No document tracked at " ++ p
  | .noOwningRoot p => "No watched root owns " ++ p

/-- The kind name of an index error. -/
def IndexError.kind : IndexError → String
  | .notFound _ => "NotFound"
  | .noOwningRoot _ => "NoOwningRoot"

/-- The tracked files under one root. -/
structure FileIndex where
  /-- The root the keys are relative to. -/
  root : String
  /-- Each tracked path with its record; titles are pairwise different. -/
  entries : List (String × FileRecord) := []
  /-- The other titles stored in tracked multi-document files. -/
  bundledTitles : List (String × List String) := []
  /-- Each tracked title with its path as last given when the title was tracked; the path is
  always the key of the title's entry, possibly spelt differently. -/
  titlePaths : List (String × String) := []
  deriving Inhabited

namespace FileIndex

/-- An empty index of a root. -/
def new (root : String) : FileIndex := ⟨root, [], [], []⟩

/-- Drop the entry of a path from a keyed list. -/
def eraseKey {α : Type} (l : List (String × α)) (p : String) : List (String × α) :=
  l.filter fun e => !Path.same e.1 p

/-- Set the value of a path in a keyed list, keeping the key's first spelling. -/
def setKey {α : Type} (l : List (String × α)) (p : String) (v : α) : List (String × α) :=
  if l.any (fun e => Path.same e.1 p) then l.map fun e => if Path.same e.1 p then (e.1, v) else e
  else l ++ [(p, v)]

/-- The record tracked at a path. -/
def get? (ix : FileIndex) (p : String) : Option FileRecord :=
  (ix.entries.find? fun e => Path.same e.1 p).map (·.2)

/-- Whether a path is tracked. -/
def has (ix : FileIndex) (p : String) : Bool :=
  ix.entries.any fun e => Path.same e.1 p

/-- Drop the entry of a title from a list keyed by titles. -/
def eraseTitle {α : Type} (l : List (String × α)) (t : String) : List (String × α) :=
  l.filter fun e => e.1 != t

/-- The path a title is tracked at, spelt as when the title was last tracked. -/
def pathForTitle? (ix : FileIndex) (t : String) : Option String :=
  (ix.titlePaths.find? fun e => e.1 == t).map (·.2)

/-- Track a record at a path. The title's old path, if different, is dropped with its bundled
titles; the record that held the path is answered when it belonged to another title, whose
title is then no longer tracked. -/
def set (ix : FileIndex) (p : String) (r : FileRecord) : FileIndex × Option FileRecord :=
  let bundled := eraseKey ix.bundledTitles p
  let (entries, bundled) := match ix.pathForTitle? r.title with
    | some q => if Path.same q p then (ix.entries, bundled) else (eraseKey ix.entries q, eraseKey bundled q)
    | none => (ix.entries, bundled)
  let displaced := (entries.find? fun e => Path.same e.1 p).map (·.2)
  let titles := eraseTitle ix.titlePaths r.title ++ [(r.title, p)]
  let ix' : FileIndex := { ix with entries := setKey entries p r, bundledTitles := bundled }
  match displaced with
  | some old =>
    if old.title != r.title then ({ ix' with titlePaths := eraseTitle titles old.title }, some old)
    else ({ ix' with titlePaths := titles }, none)
  | none => ({ ix' with titlePaths := titles }, none)

/-- Stop tracking a path; its record, if it had one. -/
def delete (ix : FileIndex) (p : String) : FileIndex × Option FileRecord :=
  let ix' := { ix with bundledTitles := eraseKey ix.bundledTitles p }
  match ix.get? p with
  | some r =>
    ({ ix' with entries := eraseKey ix.entries p, titlePaths := eraseTitle ix.titlePaths r.title },
      some r)
  | none => (ix', none)

/-- Record the other titles stored in a tracked file; an empty list or an untracked path clears
them. -/
def setBundled (ix : FileIndex) (p : String) (titles : List String) : FileIndex :=
  if titles.isEmpty || !ix.has p then { ix with bundledTitles := eraseKey ix.bundledTitles p }
  else { ix with bundledTitles := setKey ix.bundledTitles p titles }

/-- The other titles stored in the file at a path. -/
def bundled (ix : FileIndex) (p : String) : List String :=
  ((ix.bundledTitles.find? fun e => Path.same e.1 p).map (·.2)).getD []

/-- The title tracked at a path. -/
def titleByPath (ix : FileIndex) (p : String) : Except IndexError String :=
  match ix.get? p with
  | some r => .ok r.title
  | none => .error (.notFound p)

/-- Stop tracking a title; its record, if it had one. -/
def removeTitle (ix : FileIndex) (t : String) : FileIndex × Option FileRecord :=
  match ix.pathForTitle? t with
  | some p =>
    ({ ix with entries := eraseKey ix.entries p, bundledTitles := eraseKey ix.bundledTitles p,
               titlePaths := eraseTitle ix.titlePaths t }, ix.get? p)
  | none => (ix, none)

/-- The number of tracked paths. -/
def len (ix : FileIndex) : Nat :=
  ix.entries.length

/-- The tracked paths in path order, each with its record and bundled titles. -/
def sortedEntries (ix : FileIndex) : List (String × FileRecord × List String) :=
  (ix.entries.mergeSort fun a b => Path.compare a.1 b.1 != .gt).map fun (p, r) => (p, r, ix.bundled p)

end FileIndex

end WikiSync
