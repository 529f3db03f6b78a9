import WikiSync.Script.Site
import WikiSync.Script.Documents
import WikiSync.Script.Routing
import WikiSync.Document.Codec
import WikiSync.Watch.IgnoreRules
import WikiSync.Watch.Scan
import WikiSync.Script.Index

/-!
# Script operations on files

Reading the documents of a file, describing a discovered file, judging paths against ignore
rules, and turning watcher notices into change events.
-/

namespace WikiSync.Script

/-- The answer of a request that made the program abort. -/
def panicFailure : Failure :=
  ⟨"Panic", "driver panicked"⟩

/-- The answer of a watch error. -/
def watchFailure (e : WatchError) : Failure :=
  ⟨e.kind, e.message⟩

/-- `read_documents`: the documents of a file. -/
def readDocumentsOp (s : Site) (req : Json) : Outcome Json := do
  match readDocuments s.disk (s.path (← needStr req "path")) with
  | .ok docs => pure (documentsJson docs)
  | .error e => throw (codecFailure e)

/-- `discovered`: the record of a file found on disk. -/
def discoveredOp (s : Site) (req : Json) : Outcome Json := do
  let path := s.path (← needStr req "path")
  let fs ← needFields req "fields"
  pure (recordJson (FileRecord.discovered path fs (s.disk.isFile (sidecarPath path))))

/-- Ignore rules from a request's root and patterns. -/
def ignoreRulesOf (s : Site) (root : String) (patterns : List String) : Outcome IgnoreRules :=
  (IgnoreRules.new (s.path root) patterns).mapError watchFailure

/-- Whether a path is ignored, asking the disk whether it is a directory. -/
def judge (s : Site) (r : IgnoreRules) (p : String) : Outcome Bool :=
  match r.isIgnored p (s.disk.isDir p) with
  | some b => .ok b
  | none => .error panicFailure

/-- `ignore`: judge paths against ignore rules. -/
def ignoreOp (s : Site) (req : Json) : Outcome Json := do
  let root := (← optStr req "root").getD ""
  let rules ← if ← flag req "empty" then pure (IgnoreRules.empty (s.path root))
    else ignoreRulesOf s root (← optStrings req "patterns")
  let paths ← optStrings req "paths"
  let verdicts ← paths.mapM fun p => judge s rules (s.path p)
  pure (.obj [("ignored", .arr (verdicts.map .bool))])

/-- A notice kind from its script name. -/
def noticeKindOf (name : String) : Outcome NoticeKind :=
  match name with
  | "create_any" | "create_file" | "create_folder" => .ok .create
  | "remove_any" | "remove_file" => .ok .remove
  | "modify_any" | "modify_data" | "modify_metadata" | "modify_other" => .ok .modify
  | "rename_both" => .ok .renameBoth
  | "rename_from" => .ok .renameFrom
  | "rename_to" => .ok .renameTo
  | "rename_any" | "rename_other" => .ok .renameUnknown
  | "access" => .ok .access
  | "any" | "other" => .ok .other
  | _ => .error (badInput ("unknown event kind " ++ name))

/-- `convert`: the change events of a watcher's notice. -/
def convertOp (s : Site) (req : Json) : Outcome Json := do
  let kind ← noticeKindOf (← needStr req "kind")
  let paths := (← optStrings req "paths").map s.path
  let events := (Notice.mk kind paths).events s.disk.pathExists
  pure (.obj [("events", .arr (events.map rawEventJson))])

end WikiSync.Script

namespace WikiSync.Script

/-- A watched root from its JSON form, its path taken from a site. -/
def watchRootOf (s : Site) (v : Json) : Outcome WatchRoot := do
  pure { root := s.path (← needStr v "root")
         ignorePatterns := ← optStrings v "ignore_patterns"
         ignoreSymlinks := ← flag v "ignore_symlinks" }

/-- The watched roots of a request, the site's home alone when none are given. -/
def watchRootsOf (s : Site) (req : Json) : Outcome (List WatchRoot) :=
  match req.get? "roots" with
  | none | some .null => .ok [{ root := s.home }]
  | some v => do (← arrayOf "roots" v).mapM (watchRootOf s)

/-- Documents in answer order: by title, then by their JSON text. -/
def sortDocuments (docs : List Document) : List Document :=
  docs.mergeSort fun a b =>
    a.title < b.title || (a.title == b.title && Json.compact (fieldsJson a.fields) ≤ Json.compact (fieldsJson b.fields))

/-- Paths in answer order: by their JSON text, so escaped characters sort by their escapes. -/
def sortByJsonText (ps : List String) : List String :=
  ps.mergeSort fun a b => Json.quote a ≤ Json.quote b

/-- The JSON form of what a scan found. -/
def discoveredJson (found : Discovered) : Json :=
  .obj [("documents", .arr ((sortDocuments found.documents).map (fieldsJson ·.fields))),
    ("files", Json.ofNat found.files), ("failed", Json.ofStrings (sortByJsonText found.failed))]

/-- `scan`: scan each root once, into one shared index. -/
def scanOp (s : Site) (req : Json) : Outcome Json := do
  let roots ← watchRootsOf s req
  let (ix, scans) ← roots.foldlM (fun (ix, scans) w => do
    let rules ← w.rules.mapError watchFailure
    let (ix, found) := scanRoot s.disk ix rules
    pure (ix, scans ++ [discoveredJson found])) (({} : IndexSet), ([] : List Json))
  pure (.obj [("scans", .arr scans), ("index", indexDump ix)])

end WikiSync.Script
