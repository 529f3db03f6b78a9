import WikiSync.Disk.Basic
import WikiSync.Text.Utf8

/-!
# File stores

A file store writes whole files atomically, making their directories first, removes files and
tells whether a path exists. A write replaces what the path itself holds, so a link at the path
is replaced rather than written through.

A store may also be told in advance how its coming operations turn out: a list of outcomes for
the next writes, each either a failure of some kind or the real write, and one failure for every
removal. Such a store counts its writes and removals.
-/

namespace WikiSync

/-- A store of files on a disk, with scripted outcomes. -/
structure FileStore where
  /-- The disk written to. -/
  disk : Disk
  /-- The outcomes of the coming writes: a kind fails the write, none performs it. -/
  plannedWrites : List (Option IoKind) := []
  /-- A failure for every removal, when set. -/
  failingRemovals : Option IoKind := none
  /-- Whether writes and removals are counted. -/
  counted : Bool := true
  /-- Writes attempted so far. -/
  writes : Nat := 0
  /-- Removals attempted so far. -/
  removes : Nat := 0
  deriving Inhabited

namespace FileStore

/-- Write a file atomically, making its directory first. -/
def writeNow (d : Disk) (p : String) (contents : String) : Except IoError Disk := do
  match Path.parent? p with
  | none => throw (.custom .invalidInput "path has no parent")
  | some dir =>
    let d ← d.createDirAll dir
    d.replaceVia dir p (Utf8.encode contents)

/-- Write a file, or fail as planned. -/
def write (s : FileStore) (p : String) (contents : String) : FileStore × Except IoError Unit :=
  let s := if s.counted then { s with writes := s.writes + 1 } else s
  let (plan, rest) := match s.plannedWrites with
    | o :: rest => (o, rest)
    | [] => (none, [])
  let s := { s with plannedWrites := rest }
  match plan with
  | some k => (s, .error (.bare k))
  | none => match writeNow s.disk p contents with
    | .ok d => ({ s with disk := d }, .ok ())
    | .error e => (s, .error e)

/-- Remove a file, or fail as planned. -/
def remove (s : FileStore) (p : String) : FileStore × Except IoError Unit :=
  let s := if s.counted then { s with removes := s.removes + 1 } else s
  match s.failingRemovals with
  | some k => (s, .error (.bare k))
  | none => match s.disk.removeFile p with
    | .ok d => ({ s with disk := d }, .ok ())
    | .error e => (s, .error e)

/-- Whether a path exists. -/
def pathExists (s : FileStore) (p : String) : Bool :=
  s.disk.pathExists p

end FileStore

end WikiSync
