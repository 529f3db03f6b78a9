import WikiSync.Script.Watching
import WikiSync.Script.Index
import WikiSync.Watch.Notify

/-!
# Script operations on file notifications

A notification source over a site, driven step by step. Each file step is read as the changes
it makes (`Site.changesOf`), and the source reports them once the step has been done; a step
that fails part way reports the directories it made and the entries it removed. The events are
collected until an `events` step takes them, without repeats and in the order of their JSON
text.
-/

namespace WikiSync.Script

/-- The text of a field of a step, or nothing. -/
def stepText (step : Json) (k : String) : String :=
  match step.get? k with
  | some (.str t) => t
  | _ => ""

namespace Site

/-- The directories that making `dir` and its parents would create, from the top down. -/
def missingDirs (s : Site) (dir : String) : List String :=
  ((Path.ancestors dir).filter fun a => !s.disk.pathExists a).reverse

/-- The directories a file at `p` would need made first. -/
def missingParents (s : Site) (p : String) : List String :=
  match Path.parent? p with
  | some dir => s.missingDirs dir
  | none => []

/-- Every entry below a directory, as paths under the directory's own path. -/
def entriesBelow (s : Site) (dir : String) : List String :=
  match s.disk.stat dir false with
  | .ok (pl, _) => s.disk.nodes.filterMap fun (q, _) =>
    if pl.isPrefixOf q && pl.length < q.length then
      some (dir ++ "/" ++ "/".intercalate (q.drop pl.length))
    else none
  | .error _ => []

/-- The changes a file step makes, read off the files before it. -/
def changesOf (s : Site) (step : Json) (op : String) : List FileChange :=
  let full (k : String) : String := s.path (stepText step k)
  match op with
  | "write" =>
    let p := full "path"
    let nonEmpty := match contentOf step with
      | .ok bs => !bs.isEmpty
      | .error _ => false
    (s.missingParents p).map .madeDir ++ [.wrote p (!s.disk.pathExists p) nonEmpty]
  | "remove" => [.removed (full "path")]
  | "remove_dir" =>
    let p := full "path"
    (s.entriesBelow p).map .removed ++ [.removed p]
  | "mkdir" => (s.missingDirs (full "path")).map .madeDir
  | "rename" =>
    let dst := full "to"
    (s.missingParents dst).map .madeDir ++ [.moved (full "from") dst]
  | "symlink" => [.linked (full "link")]
  | "set_mtime" => [.touched (full "path")]
  | _ => []

end Site

/-- Events without repeats, in the order of their JSON text. -/
def sortedEvents (es : List RawEvent) : List Json :=
  let texts := es.map fun e => (Json.compact (rawEventJson e), rawEventJson e)
  let sorted := texts.mergeSort fun a b => a.1 ≤ b.1
  (sorted.foldl (fun acc x => match acc with
    | y :: _ => if y.1 == x.1 then acc else x :: acc
    | [] => [x]) []).reverse.map (·.2)

/-- A notification source over a site, and the events it has reported. -/
structure Watched where
  /-- The site. -/
  site : Site
  /-- The source. -/
  source : NotifySource
  /-- The events reported since the last `events` step, oldest first. -/
  reported : List RawEvent

/-- The answer of a source operation that may fail. -/
def watchOutcome (r : Except WatchError Unit) : Outcome Json :=
  match r with
  | .ok () => .ok .null
  | .error e => .ok (watchFailure e).toJson

/-- One notification source step. -/
def notifyStep (w : Watched) (step : Json) : Watched × Outcome Json :=
  match stepOp step with
  | .error f => (w, .error f)
  | .ok op =>
  let changes := w.site.changesOf step op
  match w.site.fileStep? step op with
  | some (s', .ok j) =>
    let events := changes.flatMap (w.source.deliver s'.disk)
    ({ w with site := s', reported := w.reported ++ events }, .ok j)
  | some (s', .error f) =>
    let done := changes.filter (·.tookEffect w.site.disk s'.disk)
    let events := done.flatMap (w.source.deliver s'.disk)
    ({ w with site := s', reported := w.reported ++ events }, .error f)
  | none =>
  match op with
  | "start" =>
    match needStr step "root" with
    | .ok root =>
      let (src, r) := w.source.start w.site.disk (w.site.path root)
      ({ w with source := src }, watchOutcome r)
    | .error f => (w, .error f)
  | "stop" => ({ w with source := w.source.stop }, .ok .null)
  | "update_exclusions" =>
    match optStrings step "patterns" with
    | .ok patterns =>
      let (src, r) := w.source.updateExclusions patterns
      ({ w with source := src }, watchOutcome r)
    | .error f => (w, .error f)
  | "settle" => (w, .ok .null)
  | "events" => ({ w with reported := [] }, .ok (.arr (sortedEvents w.reported)))
  | _ => (w, .error (unknownStep op))

/-- `notify_source`: a notification source over a site, driven step by step. -/
def notifySourceOp (s : Site) (req : Json) : Outcome Json := do
  let steps ← stepsOf req
  pure (resultsJson (runSteps notifyStep ⟨s, {}, []⟩ steps).2)

end WikiSync.Script
