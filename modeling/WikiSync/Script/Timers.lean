import WikiSync.Script.Index
import WikiSync.Watch.Debouncer
import WikiSync.Watch.Exclusions
import WikiSync.Watch.ChangeQueue

/-!
# Script operations on timers, exclusions and the change queue

Times in requests and answers are milliseconds after a base instant that each request fixes;
a missing time is zero. Deadlines are kept exact and answered modulo 2^64, as unsigned 64-bit
millisecond counts.
-/

namespace WikiSync.Script

/-- The time of a step, zero when absent. -/
def timeOf (step : Json) : Outcome Nat :=
  natOr step "t" 0

/-- A time, or null. -/
def optNatJson : Option Nat → Json
  | some n => Json.ofNat n
  | none => .null

/-- A deadline as an unsigned 64-bit millisecond count, or null. -/
def deadlineJson : Option Nat → Json
  | some n => Json.ofNat (n % 18446744073709551616)
  | none => .null

/-- One debouncer step. -/
def debouncerStep (d : Debouncer) (step : Json) : Debouncer × Outcome Json :=
  settle d do
    match ← stepOp step with
    | "record" =>
      let (d, was) := d.record (← needStr step "key") (← timeOf step)
      pure (d, .bool was)
    | "remove" =>
      let (d, was) := d.remove (← needStr step "key")
      pure (d, .bool was)
    | "remove_prefix" =>
      let prefixPath ← needStr step "prefix"
      pure (d.removeWhere (fun k => Path.startsWith k prefixPath), .null)
    | "take_ready" =>
      let (d, keys) := d.takeReady (← timeOf step)
      pure (d, Json.ofStrings (Path.sort keys))
    | "next_deadline" => pure (d, deadlineJson d.nextDeadline)
    | "pending_count" => pure (d, Json.ofNat d.count)
    | "clear" => pure (d.clear, .null)
    | op => throw (unknownStep op)

/-- `debouncer`: keyed timers driven step by step. -/
def debouncerOp (req : Json) : Outcome Json := do
  let d := Debouncer.new (← natOr req "duration_ms" 100)
  let steps ← stepsOf req
  pure (resultsJson (runSteps debouncerStep d steps).2)

/-- One exclusions step, when the step is one. -/
def exclusionsStep? (x : Exclusions) (step : Json) (op : String)
    (pathOf : String → String := id) : Option (Exclusions × Outcome Json) :=
  let answer (run : Outcome (Exclusions × Json)) := some (settle x run)
  let pathIn (step : Json) : Outcome String := do pure (pathOf (← needStr step "path"))
  match op with
  | "exclude" => answer do pure (x.exclude (← pathIn step), .null)
  | "schedule_inclusion_at" => answer do
    pure (x.scheduleInclusionAt (← pathIn step) (← timeOf step), .null)
  | "is_excluded" => answer do
    let (x, b) := x.isExcluded (← pathIn step) (← timeOf step)
    pure (x, .bool b)
  | "purge_expired" => answer do pure (x.purgeExpired (← timeOf step), .null)
  | "exclusions_len" => answer do pure (x, Json.ofNat x.len)
  | "exclusions_empty" => answer do pure (x, .bool (x.len == 0))
  | "exclusions_clear" => answer do pure (x.clear, .null)
  | "inclusion_delay" => answer do pure (x, Json.ofNat x.inclusionDelay)
  | _ => none

/-- One step of bare exclusions. -/
def exclusionsStep (x : Exclusions) (step : Json) : Exclusions × Outcome Json :=
  match stepOp step with
  | .error f => (x, .error f)
  | .ok op => match exclusionsStep? x step op with
    | some r => r
    | none => (x, .error (unknownStep op))

/-- `exclusions`: excluded paths driven step by step. -/
def exclusionsOp (req : Json) : Outcome Json := do
  let x := Exclusions.new (← natOr req "inclusion_delay_ms" 250)
  let steps ← stepsOf req
  pure (resultsJson (runSteps exclusionsStep x steps).2)

/-- The JSON form of a pending change. -/
def pendingJson (c : PendingChange) : Json :=
  .obj [("absolute_path", .str c.absolutePath), ("relative_path", .str c.relativePath),
    ("kind", .str c.kind.name), ("cached_fields", optFieldsJson c.cachedFields)]

/-- A pending change, or null. -/
def optPendingJson : Option PendingChange → Json
  | some c => pendingJson c
  | none => .null

/-- The JSON form of drained titles. -/
def drainedJson (d : Drained) : Json :=
  .obj [("modifications", Json.ofStrings d.modifications), ("deletions", Json.ofStrings d.deletions)]

/-- A change kind from its name. -/
def changeKindOf (name : String) : Outcome ChangeKind :=
  match name with
  | "Add" => .ok .add
  | "Change" => .ok .change
  | "Delete" => .ok .delete
  | _ => .error (badInput ("unknown change kind " ++ name))

/-- One change queue step. -/
def changeQueueStep (q : ChangeQueue) (step : Json) : ChangeQueue × Outcome Json :=
  settle q do
    match ← stepOp step with
    | "modify" =>
      let kind ← changeKindOf ((← optStr step "kind").getD "Change")
      let fields ← match step.get? "fields" with
        | none => pure none
        | some .null => pure none
        | some v => pure (some (← fieldsOf "fields" v))
      let c : PendingChange := ⟨← needStr step "path", (← optStr step "relative").getD "", kind, fields⟩
      pure (q.queueModification (← needStr step "title") c, .null)
    | "delete" =>
      let c := PendingChange.deleted (← needStr step "path") ((← optStr step "relative").getD "")
      pure (q.queueDeletion (← needStr step "title") c, .null)
    | "drain" =>
      let (q, d) := q.drain
      let j := match drainedJson d with
        | .obj ms => Json.obj (ms ++ [("is_empty", .bool (d.modifications.isEmpty && d.deletions.isEmpty))])
        | j => j
      pure (q, j)
    | "take_load" =>
      let (q, c) := q.takeLoad (← needStr step "title")
      pure (q, optPendingJson c)
    | "pending" => pure (q, optPendingJson (q.pending (← needStr step "title")))
    | "is_modified" => pure (q, .bool (q.isModified (← needStr step "title")))
    | "is_deleted" => pure (q, .bool (q.isDeleted (← needStr step "title")))
    | "is_empty" => pure (q, .bool q.isEmpty)
    | "clear" => pure (q.clear, .null)
    | op => throw (unknownStep op)

/-- `change_queue`: the queue driven step by step. -/
def changeQueueOp (req : Json) : Outcome Json := do
  let steps ← stepsOf req
  pure (resultsJson (runSteps changeQueueStep ({} : ChangeQueue) steps).2)

end WikiSync.Script
