import WikiSync.Disk.Walk
import WikiSync.Document.Codec
import WikiSync.Index.IndexSet
import WikiSync.Watch.IgnoreRules

/-!
# Discovering documents on disk

A scan walks a root, leaving out what its rules ignore and following links unless the root says
not to. Every regular file met is read, except a sidecar whose primary file exists, since the
sidecar is read with it. A file of a type that holds no documents is passed over in silence, and
one that cannot be read or decoded is reported as failed. A file with documents is tracked in the
index by its first document, with the titles of the others as bundled, and its documents are
collected.
-/

namespace WikiSync

/-- What a scan found. -/
structure Discovered where
  /-- The documents, in the order their files were met. -/
  documents : List Document := []
  /-- How many files held documents. -/
  files : Nat := 0
  /-- Files that could not be read or decoded. -/
  failed : List String := []
  deriving Inhabited

/-- Whether a walk keeps a path: it is not ignored by the rules. -/
def RootRules.keeps (r : RootRules) (d : Disk) (p : String) : Bool :=
  !(r.ignore.isIgnored p (d.isDir p)).getD false

/-- Take one file met by a scan into the index and the findings. -/
def scanFile (d : Disk) (acc : IndexSet × Discovered) (path : String) : IndexSet × Discovered :=
  let (ix, found) := acc
  match readDocuments d path with
  | .error (.unsupported _) => acc
  | .error _ => (ix, { found with failed := found.failed ++ [path] })
  | .ok docs =>
    let tracked := match docs with
      | first :: rest =>
        let record := FileRecord.discovered path first (d.isFile (sidecarPath path))
        match ix.insert record with
        | .ok (ix', _) => some (ix'.setBundled path (rest.filterMap (·.get? titleField)))
        | .error _ => none
      | [] => some ix
    match tracked with
    | none => acc
    | some ix' =>
      (ix', { found with
        files := found.files + 1
        documents := found.documents ++ docs.filterMap Document.ofFields? })

/-- Scan a root: register it in the index, track every document file below it, and report what
was found. -/
def scanRoot (d : Disk) (ix : IndexSet) (rules : RootRules) : IndexSet × Discovered :=
  let ix := (ix.registerRoot rules.root).1
  let entries := d.walkTree rules.root (!rules.ignoreSymlinks) (rules.keeps d)
  let files := entries.filter fun e =>
    e.isFile && !((primaryForSidecar e.path).any d.isFile)
  files.foldl (fun acc e => scanFile d acc e.path) (ix, {})

end WikiSync
