import WikiSync.Script.Routing
import WikiSync.Index.IndexSet

/-!
# Script operations on indexes

A file index and an index set driven step by step, and the JSON dump of their contents: roots in
path order, each with its entries in path order. The key and title pairs of a file index are
listed in the order of their texts, key first.
-/

namespace WikiSync.Script

/-- The answer of an index error. -/
def indexFailure (e : IndexError) : Failure :=
  ⟨e.kind, e.message⟩

/-- The dump of one index's entries. -/
def entriesJson (ix : FileIndex) : Json :=
  .arr (ix.sortedEntries.map fun (k, r, b) =>
    .obj [("key", .str k), ("record", recordJson r), ("bundled", Json.ofStrings b)])

/-- The dump of an index set. -/
def indexDump (s : IndexSet) : Json :=
  .arr (s.sortedIndexes.map fun ix => .obj [("root", .str ix.root), ("entries", entriesJson ix)])

/-- The answer to a displacing insertion. -/
def displacedJson (r : Option FileRecord) : Json :=
  .obj [("displaced", optRecordJson r)]

/-- Sort texts by code point. -/
def sortStrings (xs : List String) : List String :=
  xs.mergeSort fun a b => a ≤ b

/-- Turn a step's outcome into the next state and the step's answer. -/
def settle {σ : Type} (s : σ) (run : Outcome (σ × Json)) : σ × Outcome Json :=
  match run with
  | .ok (s, j) => (s, .ok j)
  | .error f => (s, .error f)

/-- One file index step. -/
def fileIndexStep (ix : FileIndex) (step : Json) : FileIndex × Outcome Json :=
  settle ix do
    match ← stepOp step with
    | "set" =>
      let (ix, d) := ix.set (← needStr step "path") (← recordOf (← need step "record"))
      pure (ix, displacedJson d)
    | "get" => pure (ix, optRecordJson (ix.get? (← needStr step "path")))
    | "has" => pure (ix, .bool (ix.has (← needStr step "path")))
    | "delete" =>
      let (ix, r) := ix.delete (← needStr step "path")
      pure (ix, optRecordJson r)
    | "set_bundled" => pure (ix.setBundled (← needStr step "path") (← needStrings step "titles"), .null)
    | "bundled" => pure (ix, Json.ofStrings (ix.bundled (← needStr step "path")))
    | "title_by_path" =>
      match ix.titleByPath (← needStr step "path") with
      | .ok t => pure (ix, .str t)
      | .error e => pure (ix, (indexFailure e).toJson)
    | "path_for_title" => pure (ix, Json.ofOption (ix.pathForTitle? (← needStr step "title")))
    | "remove_title" =>
      let (ix, r) := ix.removeTitle (← needStr step "title")
      pure (ix, optRecordJson r)
    | "len" => pure (ix, Json.ofNat ix.len)
    | "is_empty" => pure (ix, .bool (ix.len == 0))
    | "root" => pure (ix, .str ix.root)
    | "dump" => pure (ix, entriesJson ix)
    | "values" => pure (ix, Json.ofStrings (sortStrings (ix.entries.map (·.2.title))))
    | "iter" =>
      let pairs := ix.entries.map fun (k, r) => (k, r.title)
      let sorted := pairs.mergeSort fun a b => a.1 < b.1 || (a.1 == b.1 && a.2 ≤ b.2)
      pure (ix, .arr (sorted.map fun (k, t) => .arr [.str k, .str t]))
    | op => throw (unknownStep op)

/-- `file_index`: one root's index driven step by step. -/
def fileIndexOp (req : Json) : Outcome Json := do
  let root := (← optStr req "root").getD "/root"
  let steps ← stepsOf req
  pure (resultsJson (runSteps fileIndexStep (FileIndex.new root) steps).2)

/-- One index set step, when the step is one; none for another operation. -/
def indexSetStep? (s : IndexSet) (step : Json) (op : String) (pathOf : String → String := id) :
    Option (IndexSet × Outcome Json) :=
  let answer (run : Outcome (IndexSet × Json)) := some (settle s run)
  match op with
  | "register_root" => answer do
    let (s, added) := s.registerRoot (pathOf (← needStr step "root"))
    pure (s, .bool added)
  | "deregister_root" => answer do
    let (s, dropped) := s.deregisterRoot (pathOf (← needStr step "root"))
    pure (s, match dropped with
      | some ix => Json.ofNat ix.len
      | none => .null)
  | "roots" => answer do pure (s, Json.ofStrings (Path.sort s.roots))
  | "owning_root" => answer do pure (s, Json.ofOption (s.owningRoot? (pathOf (← needStr step "path"))))
  | "split" => answer do
    match s.split (pathOf (← needStr step "path")) with
    | .ok (root, rel) => pure (s, .obj [("root", .str root), ("relative", .str rel)])
    | .error e => pure (s, (indexFailure e).toJson)
  | "record_for_title" => answer do
    pure (s, optRecordJson (s.recordForTitle? (← needStr step "title")))
  | "record_at" => answer do pure (s, optRecordJson (s.recordAt? (pathOf (← needStr step "path"))))
  | "set_bundled" => answer do
    pure (s.setBundled (pathOf (← needStr step "path")) (← needStrings step "titles"), .null)
  | "bundled_at" => answer do pure (s, Json.ofStrings (s.bundledAt (pathOf (← needStr step "path"))))
  | "title_at" => answer do
    match s.titleAt (pathOf (← needStr step "path")) with
    | .ok t => pure (s, .str t)
    | .error e => pure (s, (indexFailure e).toJson)
  | "insert" => answer do
    let r ← recordOf (← need step "record")
    match s.insert { r with absolutePath := pathOf r.absolutePath } with
    | .ok (s, d) => pure (s, displacedJson d)
    | .error e => pure (s, (indexFailure e).toJson)
  | "remove_path" => answer do
    let (s, r) := s.removePath (pathOf (← needStr step "path"))
    pure (s, optRecordJson r)
  | "remove_title" => answer do
    let (s, r) := s.removeTitle (← needStr step "title")
    pure (s, optRecordJson r)
  | "len" => answer do pure (s, Json.ofNat s.len)
  | "is_empty" => answer do pure (s, .bool (s.len == 0))
  | "dump" => answer do pure (s, indexDump s)
  | "root_len" => answer do
    pure (s, match s.index? (pathOf (← needStr step "root")) with
      | some ix => Json.ofNat ix.len
      | none => .null)
  | _ => none

/-- One step of a bare index set. -/
def indexSetStep (s : IndexSet) (step : Json) : IndexSet × Outcome Json :=
  match stepOp step with
  | .error f => (s, .error f)
  | .ok op => match indexSetStep? s step op with
    | some r => r
    | none => (s, .error (unknownStep op))

/-- `index_set`: the indexes of several roots driven step by step. -/
def indexSetOp (req : Json) : Outcome Json := do
  let roots ← optStrings req "roots"
  let s := roots.foldl (fun s r => (s.registerRoot r).1) ({} : IndexSet)
  let steps ← stepsOf req
  pure (resultsJson (runSteps indexSetStep s steps).2)

end WikiSync.Script
