import WikiSync.Script.Basic
import WikiSync.Disk.Basic
import WikiSync.Watch.Event

/-!
# Requests that work on files

Some requests work in a directory of their own on a disk. Their paths that are not absolute are
relative to that directory, and the empty path is the directory itself. Before such a request
runs, it may ask for directories, files (as text or as bytes) and symbolic links to be made.
Its steps may change files as well: write, remove, make directories, rename, link, set a
modification time (the epoch when none is given), and list every file and link with its text.
A step that fails part way keeps what it did before the failure: the directories made above a
file being written or renamed, or the entries removed below a directory that could not be
removed itself.
-/

namespace WikiSync.Script

/-- The disk a request works on, and the directory its relative paths start from. -/
structure Site where
  /-- The directory relative paths start from. -/
  home : String
  /-- The disk. -/
  disk : Disk
  deriving Inhabited

/-- The answer of a failed operation on files: how the failure was made, and its message. -/
def ioFailure (e : IoError) : Failure :=
  ⟨e.origin, e.message⟩

/-- Lift a failed operation on files into a failed request. -/
def liftIo {α : Type} (r : Except IoError α) : Outcome α :=
  r.mapError ioFailure

namespace Site

/-- A disk holding only the home directory. -/
def new (home : String) : Site :=
  let disk := match ({} : Disk).createDirAll home with
    | .ok d => d
    | .error _ => {}
  ⟨home, disk⟩

/-- The path a request means: absolute paths as given, the empty path for home, and other
paths below home. -/
def path (s : Site) (p : String) : String :=
  if p.startsWith "/" then p
  else if p.isEmpty then s.home
  else Path.join s.home p

/-- The disk after making the directory above a path, as written, with the failure if there
is one. -/
def makeParent (d : Disk) (full : String) : Disk × Option IoError :=
  match Path.parent? full with
  | some dir => d.makeDirs dir
  | none => (d, none)

/-- Run an operation on a disk after a first part that may have failed, keeping what the
first part left when either fails. -/
def Disk.andThen (first : Disk × Option IoError) (next : Disk → Except IoError Disk) :
    Disk × Option IoError :=
  match first with
  | (d, some e) => (d, some e)
  | (d, none) => match next d with
    | .ok d' => (d', none)
    | .error e => (d, some e)

/-- Write a file, making its directory first; directories made stay when the write fails. -/
def writeFileKeeping (s : Site) (p : String) (bs : List UInt8) : Disk × Option IoError :=
  let full := s.path p
  Disk.andThen (makeParent s.disk full) (·.write full bs)

/-- Write a file, making its directory first. -/
def writeFile (s : Site) (p : String) (bs : List UInt8) : Except IoError Site :=
  match s.writeFileKeeping p bs with
  | (d, none) => .ok { s with disk := d }
  | (_, some e) => .error e

/-- The bytes a request gives for a file: `bytes` as numbers, or `content` as text. -/
def contentOf (req : Json) : Outcome (List UInt8) :=
  match req.get? "bytes" with
  | some (.arr xs) => xs.mapM fun v => match v.nat? with
    | some n => if n < 256 then .ok n.toUInt8 else .error (badInput "bytes must be 0..255")
    | none => .error (badInput "bytes must be 0..255")
  | _ => match req.get? "content" with
    | some (.str t) => .ok (Utf8.encode t)
    | none | some .null => .ok []
    | some _ => .error (badInput "field 'content' must be a string")

/-- Make what a request asks for before it runs: directories, then files, then links. -/
def prepare (s : Site) (req : Json) : Outcome Site := do
  let dirs ← optStrings req "dirs"
  let s ← dirs.foldlM (fun s p => do pure { s with disk := ← liftIo (s.disk.createDirAll (s.path p)) }) s
  let files ← optArray req "files"
  let s ← files.foldlM (fun s f => do liftIo (s.writeFile (← needStr f "path") (← contentOf f))) s
  let links ← optArray req "symlinks"
  links.foldlM (fun s l => do
    let target := s.path (← needStr l "target")
    let link := s.path (← needStr l "link")
    let d ← match Path.parent? link with
      | some dir => liftIo (s.disk.createDirAll dir)
      | none => pure s.disk
    pure { s with disk := ← liftIo (d.symlink target link) }) s

/-- Every file and link below home with the text it reads as, bytes that are not UTF-8
replaced; null for a link that cannot be read as a file. -/
def filesJson (s : Site) : Json :=
  let home := match s.disk.stat s.home with
    | .ok (pl, _) => pl
    | .error _ => []
  .obj ((s.disk.filesUnder home).map fun (p, bs) => (p, match bs with
    | some bs => .str (Utf8.decodeLossy bs)
    | none => .null))

/-- The site after a step that changes files, and the step's answer: null, or the failure
with the disk as the step left it. -/
def settled (s : Site) (r : Disk × Option IoError) : Site × Outcome Json :=
  ({ s with disk := r.1 }, match r.2 with
    | some e => .error (ioFailure e)
    | none => .ok .null)

/-- One step that changes files, when the step is one. -/
def fileStep? (s : Site) (step : Json) (op : String) : Option (Site × Outcome Json) :=
  let run (r : Outcome (Disk × Option IoError)) : Option (Site × Outcome Json) :=
    some (match r with
      | .ok r => s.settled r
      | .error f => (s, .error f))
  let once (r : Outcome (Except IoError Disk)) : Option (Site × Outcome Json) :=
    run (r.map fun
      | .ok d => (d, none)
      | .error e => (s.disk, some e))
  match op with
  | "write" => run do pure (s.writeFileKeeping (← needStr step "path") (← contentOf step))
  | "remove" => once do pure (s.disk.removeFile (s.path (← needStr step "path")))
  | "remove_dir" => run do pure (s.disk.removeDirAll (s.path (← needStr step "path")))
  | "mkdir" => run do pure (s.disk.makeDirs (s.path (← needStr step "path")))
  | "rename" => run do
    let src := s.path (← needStr step "from")
    let dst := s.path (← needStr step "to")
    pure (Disk.andThen (makeParent s.disk dst) (·.rename src dst))
  | "symlink" => once do
    pure (s.disk.symlink (s.path (← needStr step "target")) (s.path (← needStr step "link")))
  | "set_mtime" => once do
    pure (s.disk.setModified (s.path (← needStr step "path")) ((← natOr step "secs" 0) * 1000000000))
  | "files" => some (s, .ok s.filesJson)
  | _ => none

end Site

/-- The JSON form of a change event. -/
def rawEventJson : RawEvent → Json
  | .created p => .obj [("created", .str p)]
  | .modified p => .obj [("modified", .str p)]
  | .removed p => .obj [("removed", .str p)]
  | .renamed a b => .obj [("renamed", .arr [.str a, .str b])]

/-- A change event from its JSON form, its paths taken from a site: the first of `created`,
`modified`, `removed` and `renamed` that holds a path (two for a rename) decides, and other
members are passed over. -/
def rawEventOf (s : Site) (v : Json) : Outcome RawEvent :=
  match v.get? "created", v.get? "modified", v.get? "removed", v.get? "renamed" with
  | some (.str p), _, _, _ => .ok (.created (s.path p))
  | _, some (.str p), _, _ => .ok (.modified (s.path p))
  | _, _, some (.str p), _ => .ok (.removed (s.path p))
  | _, _, _, some (.arr [.str a, .str b]) => .ok (.renamed (s.path a) (s.path b))
  | _, _, _, _ => .error (badInput "malformed event")

end WikiSync.Script
