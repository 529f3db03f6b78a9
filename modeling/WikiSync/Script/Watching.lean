import WikiSync.Script.Files
import WikiSync.Script.Timers
import WikiSync.Watch.Pipeline

/-!
# Script operations on the event pipeline

A pipeline over files in a site, driven step by step: file changes, batches of events, ticks,
the queue, the roots and the exclusions the pipeline shares.
-/

namespace WikiSync.Script

/-- The JSON form of drained titles, without the emptiness flag. -/
def drainedPairJson (d : Drained) : Json :=
  .obj [("modifications", Json.ofStrings d.modifications), ("deletions", Json.ofStrings d.deletions)]

/-- The change events of a step. -/
def rawEventsOf (s : Site) (step : Json) : Outcome (List RawEvent) := do
  (← optArray step "events").mapM (rawEventOf s)

/-- The rules of a watched root, or the pattern failure. -/
def rootRulesOf (w : WatchRoot) : Outcome RootRules :=
  w.rules.mapError watchFailure

/-- The answer of an error that a step reports in its slot. -/
def reported (o : Outcome Json) : Outcome Json :=
  .ok (answerOf o)

/-- One pipeline step. -/
def pipelineStep (st : Site × Pipeline) (step : Json) : (Site × Pipeline) × Outcome Json :=
  let (s, p) := st
  match stepOp step with
  | .error f => (st, .error f)
  | .ok op =>
  match s.fileStep? step op with
  | some (s', out) => ((s', p), out)
  | none =>
  -- the pipeline takes the steps of its exclusions, all but the one asking for their delay
  match (if op == "inclusion_delay" then none else exclusionsStep? p.exclusions step op s.path) with
  | some (x, out) => ((s, { p with exclusions := x }), out)
  | none =>
  let answer (run : Outcome (Pipeline × Json)) : (Site × Pipeline) × Outcome Json :=
    match run with
    | .ok (p', j) => ((s, p'), .ok j)
    | .error f => (st, .error f)
  match op with
  | "events" => answer do
    let p := p.handleBatch s.disk (← rawEventsOf s step) (← timeOf step)
    pure (p, .obj [("next_deadline", deadlineJson p.nextDeadline),
      ("pending_deletes", Json.ofNat p.pendingDeleteCount)])
  | "tick" => answer do
    let (p, signals) := p.tick s.disk (← timeOf step)
    pure (p, .obj [("sync", .bool signals.sync), ("vcs", Json.ofStrings (Path.sort signals.vcs)),
      ("next_deadline", deadlineJson p.nextDeadline)])
  | "drain" =>
    let (q, d) := p.queue.drain
    ((s, { p with queue := q }), .ok (drainedPairJson d))
  | "take_load" => answer do
    let (q, c) := p.queue.takeLoad (← needStr step "title")
    pure ({ p with queue := q }, optPendingJson c)
  | "pending" => answer do pure (p, optPendingJson (p.queue.pending (← needStr step "title")))
  | "next_deadline" => ((s, p), .ok (deadlineJson p.nextDeadline))
  | "pending_deletes" => ((s, p), .ok (Json.ofNat p.pendingDeleteCount))
  | "cancel_all" => ((s, p.cancelAll), .ok .null)
  | "add_root" => answer do
    match rootRulesOf (← watchRootOf s step) with
    | .ok r => pure (p.addRoot r, .null)
    | .error f => pure (p, f.toJson)
  | "remove_root" => answer do pure (p.removeRoot (s.path (← needStr step "root")), .null)
  | "update_ignore" => answer do
    let root := s.path (← needStr step "root")
    match (IgnoreRules.new root (← optStrings step "patterns")).mapError watchFailure with
    | .ok rules => pure (p.updateIgnore root rules, .null)
    | .error f => pure (p, f.toJson)
  | "roots" => ((s, p), .ok (Json.ofStrings (Path.sort p.roots)))
  | "index" => ((s, p), .ok (indexDump p.index))
  | _ => (st, .error (unknownStep op))

/-- `pipeline`: the event pipeline over files, driven step by step. -/
def pipelineOp (s : Site) (req : Json) : Outcome Json := do
  let timing : Timing := ⟨← natOr req "delete_grace_ms" 100, ← natOr req "sync_debounce_ms" 200,
    ← natOr req "vcs_debounce_ms" 1000⟩
  let x := Exclusions.new (← natOr req "inclusion_delay_ms" 250)
  let p := Pipeline.new {} {} x timing (← flagOr req "cache_fields" true)
  let roots ← watchRootsOf s req
  let p ← roots.foldlM (fun p w => do pure (p.addRoot (← rootRulesOf w))) p
  let steps ← stepsOf req
  let ((_, p), outs) := runSteps pipelineStep (s, p) steps
  if p.halted then throw panicFailure else pure (resultsJson outs)

end WikiSync.Script
