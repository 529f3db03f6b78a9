import WikiSync.Path
import WikiSync.Text.Utf8
import WikiSync.Disk.Error

/-!
# The disk

A disk is a tree of places named from the root down. A place holds a file (its bytes and the
time it was last modified), a directory, or a symbolic link to another path; the root is always
a directory. Operations take paths as text and resolve them the way the operating system does.

A path is read as its components: names, `.` and `..`, with runs of separators counting as
one; a separator after the last component asks for a directory. Every component but the last
must lead to a directory: a missing entry there is `noSuchEntry`, a file is `notADirectory`, and
a link is followed, relative to the directory it sits in. `..` climbs from the directory
actually reached. Following more than forty links in one resolution is a loop.

The last component is each operation's own business, as the system's calls treat it: a lookup
follows a link there when asked to, or when a separator follows it; creating a file follows a
link and refuses a directory, `.` or `..`; making a directory or a link refuses anything that
exists there; removing a file refuses directories; removing a directory refuses `.` (invalid)
and `..` (not empty); a rename refuses `.` and `..` on either side (busy), a directory moved
below itself (invalid), and a target above the source (not empty).

Writes stamp files with the disk's clock, which moves forward by one at every write, so that
two writes never leave the same time behind.
-/

namespace WikiSync

/-- What a place of the disk holds. -/
inductive Node where
  /-- A regular file: its bytes and its modification time in nanoseconds. -/
  | file (bytes : List UInt8) (modified : Nat)
  /-- A directory; its entries are the places one name below it. -/
  | dir
  /-- A symbolic link and the path it points to. -/
  | link (target : String)
  deriving BEq, Inhabited, Repr

/-- A place of the disk: the names from the root down to it. -/
abbrev Place := List String

/-- One component of a path. -/
inductive Step where
  /-- `..`: the parent of the directory reached. -/
  | up
  /-- `.`: the directory reached itself. -/
  | here
  /-- A named entry. -/
  | name (n : String)
  deriving BEq, DecidableEq, Inhabited, Repr

/-- A path as the system reads it: whether it starts at the root, its components, and whether
a separator follows the last of them. -/
structure Pathname where
  /-- Whether the path starts with a separator. -/
  absolute : Bool
  /-- The components, in order. -/
  steps : List Step
  /-- Whether a separator follows the last component, which must then be a directory. -/
  dirOnly : Bool
  deriving DecidableEq, Inhabited, Repr

/-- Read a path's text: the pieces between separators, empty ones dropped. -/
def Pathname.ofText (p : String) : Pathname :=
  let pieces := ((p.toList.splitOn '/').map String.ofList).filter (· != "")
  { absolute := p.startsWith "/"
    steps := pieces.map fun piece =>
      if piece == "." then Step.here else if piece == ".." then Step.up else Step.name piece
    dirOnly := p.endsWith "/" && !pieces.isEmpty }

/-- Where the walk of a path ends: at its last component, with the directory reached before
it. -/
inductive Final where
  /-- A name in a directory; `dirOnly` when a separator follows it. -/
  | entry (dir : Place) (name : String) (dirOnly : Bool)
  /-- The path ends in `.`: the directory reached. -/
  | here (dir : Place)
  /-- The path ends in `..`: the directory above the one reached. -/
  | up (dir : Place)
  /-- The path is the root itself. -/
  | root
  deriving BEq, Inhabited, Repr

/-- The place the end of a walk names. -/
def Final.place : Final → Place
  | .entry dir n _ => dir ++ [n]
  | .here dir => dir
  | .up dir => dir
  | .root => []

/-- The text of a place, as an absolute path. -/
def Place.text (pl : Place) : String :=
  "/" ++ "/".intercalate pl

/-- Files, directories and links below a root directory. -/
structure Disk where
  /-- Every place but the root, with what it holds. -/
  nodes : List (Place × Node) := []
  /-- The modification time the next write stamps. -/
  clock : Nat := 1700000000000000000
  deriving Inhabited

namespace Disk

/-- What a place holds. -/
def lookup (d : Disk) (pl : Place) : Option Node :=
  if pl.isEmpty then some .dir else (d.nodes.find? (·.1 == pl)).map (·.2)

/-- Put a node at a place, replacing what was there. -/
def setNode (d : Disk) (pl : Place) (n : Node) : Disk :=
  if d.nodes.any (·.1 == pl) then
    { d with nodes := d.nodes.map fun e => if e.1 == pl then (pl, n) else e }
  else { d with nodes := d.nodes ++ [(pl, n)] }

/-- Whether a place lies at or below another. -/
def Place.within (pl base : Place) : Bool :=
  base.isPrefixOf pl

/-- Drop a place and everything below it. -/
def eraseTree (d : Disk) (pl : Place) : Disk :=
  { d with nodes := d.nodes.filter fun e => !Place.within e.1 pl }

/-- Drop everything strictly below a place, keeping the place itself. -/
def clearBelow (d : Disk) (pl : Place) : Disk :=
  { d with nodes := d.nodes.filter fun e => !(Place.within e.1 pl && e.1.length > pl.length) }

/-- The entries of a directory place: names and nodes, by name. -/
def entries (d : Disk) (pl : Place) : List (String × Node) :=
  let below := d.nodes.filterMap fun (q, n) =>
    if q.length == pl.length + 1 && pl.isPrefixOf q then q.getLast?.map (·, n) else none
  below.mergeSort fun a b => a.1 ≤ b.1

/-- The most components any link's target adds to a resolution. -/
def longestTarget (d : Disk) : Nat :=
  d.nodes.foldl (fun m e => match e.2 with
    | .link t => max m (Pathname.ofText t).steps.length
    | _ => m) 0

/-- The most links one resolution may follow. -/
def linkLimit : Nat := 40

/-- The longest path text, in bytes, that the operating system takes. -/
def pathMax : Nat := 4095

/-- The longest name, in bytes, that a directory holds. -/
def nameMax : Nat := 255

/-- Enough steps for any walk of a path: its own components and those of every link it may
follow. -/
def walkFuel (d : Disk) (t : Pathname) : Nat :=
  t.steps.length + (linkLimit + 1) * (d.longestTarget + 2) + 1

/-- Walk every component of a path but the last, from a directory: each must lead to a
directory, a link on the way being followed in its place. Answers where the walk ends and the
links followed so far. -/
def approach (d : Disk) : Nat → Nat → Place → List Step → Bool → Except OsError (Final × Nat)
  | 0, _, _, _, _ => .error .symlinkLoop
  | _ + 1, links, cur, [], _ => .ok (if cur.isEmpty then .root else .here cur, links)
  | _ + 1, links, cur, [.here], _ => .ok (.here cur, links)
  | _ + 1, links, cur, [.up], _ => .ok (.up cur.dropLast, links)
  | _ + 1, links, cur, [.name n], dirOnly =>
    if n.utf8ByteSize > nameMax then .error .nameTooLong else .ok (.entry cur n dirOnly, links)
  | fuel + 1, links, cur, .here :: rest, dirOnly => approach d fuel links cur rest dirOnly
  | fuel + 1, links, cur, .up :: rest, dirOnly => approach d fuel links cur.dropLast rest dirOnly
  | fuel + 1, links, cur, .name n :: rest, dirOnly =>
    if n.utf8ByteSize > nameMax then .error .nameTooLong
    else match d.lookup (cur ++ [n]) with
      | none => .error .noSuchEntry
      | some .dir => approach d fuel links (cur ++ [n]) rest dirOnly
      | some (.file _ _) => .error .notADirectory
      | some (.link target) =>
        if links ≥ linkLimit then .error .symlinkLoop
        else if target.isEmpty then .error .noSuchEntry
        else
          let t := Pathname.ofText target
          approach d fuel (links + 1) (if t.absolute then [] else cur) (t.steps ++ rest) dirOnly

/-- Follow the link a walk ended at, and the links it leads to in turn, while `follow` asks for
it or a separator follows the name. -/
def settle (d : Disk) (follow : Bool) (fuel : Nat) : Nat → Nat → Final → Except OsError (Final × Nat)
  | 0, _, _ => .error .symlinkLoop
  | rounds + 1, links, f =>
    match f with
    | .entry dir n dirOnly =>
      match d.lookup (dir ++ [n]) with
      | some (.link target) =>
        if !(follow || dirOnly) then .ok (f, links)
        else if links ≥ linkLimit then .error .symlinkLoop
        else if target.isEmpty then .error .noSuchEntry
        else
          let t := Pathname.ofText target
          match d.approach fuel (links + 1) (if t.absolute then [] else dir) t.steps
              (dirOnly || t.dirOnly) with
          | .ok (f', links') => d.settle follow fuel rounds links' f'
          | .error e => .error e
      | _ => .ok (f, links)
    | _ => .ok (f, links)

/-- Walk a path up to its last component. Relative paths start at the root. A path text longer
than `pathMax` bytes is refused before any of it is looked at, and the empty path names
nothing. -/
def locate (d : Disk) (p : String) : Except OsError (Final × Nat) :=
  if p.utf8ByteSize > pathMax then .error .nameTooLong
  else
    let t := Pathname.ofText p
    if p.isEmpty then .error .noSuchEntry
    else d.approach (d.walkFuel t) 0 [] t.steps t.dirOnly

/-- Walk a path to what it names, following a link at its end when `follow` asks for it or a
separator follows it. -/
def reach (d : Disk) (p : String) (follow : Bool) : Except OsError Final := do
  let (f, links) ← d.locate p
  let (f, _) ← d.settle follow (d.walkFuel (Pathname.ofText p)) (linkLimit + 1) links f
  pure f

/-- What the end of a walk holds; a missing entry is `noSuchEntry`, and a name followed by a
separator must be a directory. -/
def found (d : Disk) (f : Final) : Except OsError (Place × Node) :=
  match d.lookup f.place with
  | none => .error .noSuchEntry
  | some .dir => .ok (f.place, .dir)
  | some n => match f with
    | .entry _ _ true => .error .notADirectory
    | _ => .ok (f.place, n)

/-- What a path leads to, following a link at its end unless told not to. -/
def stat (d : Disk) (p : String) (follow : Bool := true) : Except IoError (Place × Node) :=
  (do d.found (← d.reach p follow)).mapError .os

/-- Whether a path leads to a regular file, following links. -/
def isFile (d : Disk) (p : String) : Bool :=
  match d.stat p with
  | .ok (_, .file _ _) => true
  | _ => false

/-- Whether a path leads to a directory, following links. -/
def isDir (d : Disk) (p : String) : Bool :=
  match d.stat p with
  | .ok (_, .dir) => true
  | _ => false

/-- Whether a path leads to anything, following links. -/
def pathExists (d : Disk) (p : String) : Bool :=
  match d.stat p with
  | .ok _ => true
  | _ => false

/-- Whether a path names anything, a link at its end counted as itself. -/
def holds (d : Disk) (p : String) : Bool :=
  match d.stat p false with
  | .ok _ => true
  | .error _ => false

/-- Whether a path itself is a symbolic link. -/
def isLink (d : Disk) (p : String) : Bool :=
  match d.stat p false with
  | .ok (_, .link _) => true
  | _ => false

/-- The bytes of a file; reading a directory is refused. -/
def read (d : Disk) (p : String) : Except IoError (List UInt8) := do
  match ← d.stat p with
  | (_, .file bs _) => pure bs
  | (_, .dir) => throw (.os .isADirectory)
  | (_, .link _) => throw (.os .symlinkLoop)

/-- The text of a file, which must be UTF-8. -/
def readText (d : Disk) (p : String) : Except IoError String := do
  match Utf8.decode? (← d.read p) with
  | some s => pure s
  | none => throw .notUtf8

/-- The modification time of what a path leads to; directories answer zero. -/
def modified (d : Disk) (p : String) : Except IoError Nat := do
  match ← d.stat p with
  | (_, .file _ t) => pure t
  | _ => pure 0

/-- Open a path for writing and replace its contents, creating the file when it is missing: a
link at the end is followed, even to a target that does not exist yet, while a directory, a
path ending in `.` or `..`, or a name followed by a separator is refused. -/
def write (d : Disk) (p : String) (bs : List UInt8) : Except IoError Disk :=
  match d.locate p with
  | .error e => .error (.os e)
  | .ok (.entry dir n false, links) =>
    match d.settle true (d.walkFuel (Pathname.ofText p)) (linkLimit + 1) links (.entry dir n false) with
    | .error e => .error (.os e)
    | .ok (.entry dir' n' false, _) =>
      match d.lookup (dir' ++ [n']) with
      | some .dir => .error (.os .isADirectory)
      | _ => .ok { d.setNode (dir' ++ [n']) (.file bs d.clock) with clock := d.clock + 1 }
    | .ok _ => .error (.os .isADirectory)
  | .ok _ => .error (.os .isADirectory)

/-- Set the modification time of a file, opened for writing: a directory is refused. -/
def setModified (d : Disk) (p : String) (t : Nat) : Except IoError Disk := do
  match ← d.stat p with
  | (pl, .file bs _) => pure (d.setNode pl (.file bs t))
  | _ => throw (.os .isADirectory)

/-- Make one directory at a name that holds nothing yet, in a directory that exists. -/
def createDir (d : Disk) (p : String) : Except IoError Disk :=
  match d.locate p with
  | .error e => .error (.os e)
  | .ok (.entry dir n _, _) =>
    if (d.lookup (dir ++ [n])).isSome then .error (.os .fileExists)
    else .ok (d.setNode (dir ++ [n]) .dir)
  | .ok _ => .error (.os .fileExists)

/-- Make a directory and the missing ones above it, walking up the path's text one parent at
a time: a missing parent is made first and the directory tried again, and a directory that
exists already is fine. Directories made before a failure stay. -/
def makeDirsUp (d : Disk) : Nat → String → Disk × Option IoError
  | 0, _ => (d, some (.standard .other "failed to create whole tree"))
  | fuel + 1, p =>
    if p.isEmpty then (d, none)
    else match d.createDir p with
      | .ok d' => (d', none)
      | .error e =>
        if e.kind == .notFound then
          match Path.parent? p with
          | none => (d, some (.standard .other "failed to create whole tree"))
          | some q => match makeDirsUp d fuel q with
            | (d', some e') => (d', some e')
            | (d', none) => match d'.createDir p with
              | .ok d'' => (d'', none)
              | .error e'' => if d'.isDir p then (d', none) else (d', some e'')
        else if d.isDir p then (d, none) else (d, some e)

/-- Make a directory and every missing one above it; an existing directory is fine. The disk
is answered as it is left, with the failure if there is one. -/
def makeDirs (d : Disk) (p : String) : Disk × Option IoError :=
  d.makeDirsUp (p.length + 2) p

/-- Make a directory and every missing one above it; an existing directory is fine. -/
def createDirAll (d : Disk) (p : String) : Except IoError Disk :=
  match d.makeDirs p with
  | (d', none) => .ok d'
  | (_, some e) => .error e

/-- Remove a file or a link at the end of a path; directories, `.` and `..` are refused, and a
name followed by a separator must have been a directory. -/
def removeFile (d : Disk) (p : String) : Except IoError Disk :=
  match d.locate p with
  | .error e => .error (.os e)
  | .ok (.entry dir n dirOnly, _) =>
    match d.lookup (dir ++ [n]) with
    | none => .error (.os .noSuchEntry)
    | some .dir => .error (.os .isADirectory)
    | some _ => if dirOnly then .error (.os .notADirectory) else .ok (d.eraseTree (dir ++ [n]))
  | .ok _ => .error (.os .isADirectory)

/-- Remove an empty directory at the end of a path, which is not followed if it is a link. -/
def removeDir (d : Disk) (p : String) : Except IoError Disk :=
  match d.locate p with
  | .error e => .error (.os e)
  | .ok (.up _, _) => .error (.os .notEmpty)
  | .ok (.here _, _) => .error (.os .invalidArgument)
  | .ok (.root, _) => .error (.os .busy)
  | .ok (.entry dir n _, _) =>
    match d.lookup (dir ++ [n]) with
    | none => .error (.os .noSuchEntry)
    | some .dir =>
      if (d.entries (dir ++ [n])).isEmpty then .ok (d.eraseTree (dir ++ [n]))
      else .error (.os .notEmpty)
    | some _ => .error (.os .notADirectory)

/-- Remove a directory and everything below it; a link is removed itself. The entries below
the directory the path reaches go first, and the directory is then removed by its path: if that
is gone already the removal is done, and if the path names it in a way that cannot be removed
the failure is answered with the entries gone all the same. -/
def removeDirAll (d : Disk) (p : String) : Disk × Option IoError :=
  match d.stat p false with
  | .error e => (d, some e)
  | .ok (_, .link _) => match d.removeFile p with
    | .ok d' => (d', none)
    | .error e => (d, some e)
  | .ok _ =>
    match d.reach p false with
    | .error e => (d, some (.os e))
    | .ok f => match d.lookup f.place with
      | some .dir =>
        let cleared := d.clearBelow f.place
        match cleared.removeDir p with
        | .ok d' => (d', none)
        | .error e => if e == .os .noSuchEntry then (cleared, none) else (cleared, some e)
      | _ => (d, some (.os .notADirectory))

/-- Move the entry at the end of one walk to the end of another, with everything below it.
Both ends must be names: `.` and `..` are busy. A file or link may not be followed by a
separator on either side, a directory may not move below itself, nor an entry onto one of the
directories above it. A directory may only replace an empty directory, and nothing else may
replace a directory; moving an entry onto itself changes nothing. -/
def moveFinal (d : Disk) (source target : Final) : Except IoError Disk :=
  match source, target with
  | .entry odir on oflag, .entry ndir nn nflag =>
    let old := odir ++ [on]
    let new := ndir ++ [nn]
    match d.lookup old with
    | none => .error (.os .noSuchEntry)
    | some onode =>
      let moved (d : Disk) : Disk :=
        { d with nodes := d.nodes.map fun (q, n) =>
          if Place.within q old then (new ++ q.drop old.length, n) else (q, n) }
      if onode != .dir && (oflag || nflag) then .error (.os .notADirectory)
      else if Place.within ndir old then .error (.os .invalidArgument)
      else if Place.within odir new then .error (.os .notEmpty)
      else if old == new then .ok d
      else match onode, d.lookup new with
        | .dir, some .dir =>
          if (d.entries new).isEmpty then .ok (moved (d.eraseTree new)) else .error (.os .notEmpty)
        | .dir, some _ => .error (.os .notADirectory)
        | .dir, none => .ok (moved d)
        | _, some .dir => .error (.os .isADirectory)
        | _, _ => .ok (moved (d.eraseTree new))
  | _, _ => .error (.os .busy)

/-- Rename the entry a path names to another path; neither end is followed if it is a link. -/
def rename (d : Disk) (src dst : String) : Except IoError Disk := do
  let (source, _) ← (d.locate src).mapError .os
  let (target, _) ← (d.locate dst).mapError .os
  d.moveFinal source target

/-- A name no entry of a directory place has yet, for a file about to be renamed away. -/
def freshName (d : Disk) (pl : Place) : String :=
  let taken := (d.entries pl).map (·.1)
  let candidates := (List.range (taken.length + 1)).map fun i => ".tidsync-" ++ toString i
  (candidates.find? fun c => !taken.contains c).getD ".tidsync-"

/-- Write bytes to a fresh file in the directory `dir` and rename it over a path, so that what
the path names changes at once; when the rename fails the fresh file is gone again. -/
def replaceVia (d : Disk) (dir p : String) (bs : List UInt8) : Except IoError Disk := do
  let (pl, node) ← d.stat dir
  if node != .dir then throw (.os .notADirectory)
  let fresh := d.freshName pl
  let staged := { d.setNode (pl ++ [fresh]) (.file bs d.clock) with clock := d.clock + 1 }
  let (target, _) ← (staged.locate p).mapError .os
  staged.moveFinal (.entry pl fresh false) target

/-- Make a symbolic link at a name that holds nothing yet, pointing to a target; a missing name
followed by a separator names a directory, which a link is not. -/
def symlink (d : Disk) (target link : String) : Except IoError Disk :=
  match d.locate link with
  | .error e => .error (.os e)
  | .ok (.entry dir n dirOnly, _) =>
    if (d.lookup (dir ++ [n])).isSome then .error (.os .fileExists)
    else if dirOnly then .error (.os .noSuchEntry)
    else .ok (d.setNode (dir ++ [n]) (.link target))
  | .ok _ => .error (.os .fileExists)

/-- The names in a directory, sorted. -/
def readDir (d : Disk) (p : String) : Except IoError (List String) := do
  match ← d.stat p with
  | (pl, .dir) => pure ((d.entries pl).map (·.1))
  | _ => throw (.os .notADirectory)

/-- Every file and link strictly below a directory place, by the path relative to it, with the
bytes it reads as when links are followed, or none when it cannot be read. Links are not walked
into. -/
def filesUnder (d : Disk) (base : Place) : List (String × Option (List UInt8)) :=
  let found := d.nodes.filterMap fun (q, n) =>
    if n != .dir && Place.within q base && q.length > base.length then
      some ("/".intercalate (q.drop base.length), match d.read (Place.text q) with
        | .ok bs => some bs
        | .error _ => none)
    else none
  found.mergeSort fun a b => a.1 ≤ b.1

end Disk

end WikiSync
