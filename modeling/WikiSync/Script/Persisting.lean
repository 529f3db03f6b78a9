import WikiSync.Script.Watching
import WikiSync.Sync.Adaptor

/-!
# Script operations on persisting documents

The adaptor over files in a site, driven step by step, with a store whose writes and removals
may be told to fail; and the retry policy a configuration gives.
-/

namespace WikiSync.Script

/-- A float argument, integers included. -/
def floatOf (v : Json) : Option Float :=
  match v with
  | .num (.float x) => some x
  | .num (.int n) => some (Float.ofInt n)
  | _ => none

/-- `retry_policy`: the policy of a retry configuration. -/
def retryPolicyOp (req : Json) : Outcome Json := do
  let d : RetryConfig := {}
  -- a multiplier that is not a number is left at its default, and the attempts are taken as
  -- a 32-bit word
  let multiplier := ((req.get? "multiplier").bind floatOf).getD d.multiplier
  let c : RetryConfig := ⟨← natOr req "initial_delay_ms" d.initialDelayMs, multiplier,
    ← natOr req "max_delay_ms" d.maxDelayMs, (← natOr req "max_attempts" d.maxAttempts) % 4294967296⟩
  let p := RetryPolicy.ofConfig c
  pure (.obj [("initial_delay_ms", Json.ofNat p.initialDelayMs),
    ("multiplier", .num (.float p.multiplier)), ("max_delay_ms", Json.ofNat p.maxDelayMs),
    ("max_attempts", Json.ofNat p.maxAttempts)])

/-- An error kind named in a script. -/
def ioKindOf (name : String) : Outcome IoKind :=
  match IoKind.ofName? name with
  | some k => .ok k
  | none => .error (badInput ("unknown io error kind " ++ name))

/-- The planned outcomes of a step's writes: `Ok` performs a write, a kind fails it. -/
def plannedWritesOf (step : Json) : Outcome (List (Option IoKind)) := do
  (← optStrings step "write_failures").mapM fun name =>
    if name == "Ok" then pure none else do pure (some (← ioKindOf name))

/-- Set up the store for one step: its planned writes and failing removals. They are read for
every store, and only a counting store takes them. -/
def planStore (a : Adaptor) (step : Json) : Outcome Adaptor := do
  let plannedWrites ← plannedWritesOf step
  let failingRemovals ← match ← optStr step "remove_error" with
    | some name => pure (some (← ioKindOf name))
    | none => pure none
  if !a.store.counted then return a
  pure { a with store := { a.store with plannedWrites, failingRemovals } }

/-- The JSON form of an alert, with what its document shows. -/
def alertJson (al : Alert) : Json :=
  let doc := al.toDocument
  let field (k : String) : Json := .str ((doc.field? k).getD "")
  .obj [("subject", .str al.subject), ("message", .str al.message),
    ("attempts", Json.ofNat al.attempts),
    ("title_prefix_ok", .bool (doc.title.startsWith alertTitlePrefix)),
    ("doc_tags", Json.ofStrings doc.tags), ("doc_component", field "component"),
    ("doc_subject", field "subject"), ("doc_attempts", field "attempts"),
    ("doc_text", field textField)]

/-- A route configuration with its root taken from a site. -/
def siteRouteConfig (s : Site) (c : RouteConfig) : RouteConfig :=
  { c with root := s.path c.root }

/-- The route configurations of a step, roots taken from a site. -/
def siteRouteConfigsOf (s : Site) (req : Json) (k : String) : Outcome (List RouteConfig) := do
  pure ((← routeConfigsOf req k).map (siteRouteConfig s))

/-- One adaptor step. -/
def adaptorStep (home : String) (a : Adaptor) (step : Json) : Adaptor × Outcome Json :=
  let s : Site := ⟨home, a.store.disk⟩
  match stepOp step with
  | .error f => (a, .error f)
  | .ok op =>
  match s.fileStep? step op with
  | some (s', out) => ({ a with store := { a.store with disk := s'.disk } }, out)
  | none =>
  match indexSetStep? a.index step op s.path with
  | some (ix, out) => ({ a with index := ix }, out)
  | none =>
  let answer (run : Outcome (Adaptor × Json)) : Adaptor × Outcome Json :=
    match run with
    | .ok (a', j) => (a', .ok j)
    | .error f => (a, .error f)
  match op with
  | "save" => answer do
    let a ← planStore a step
    let before := a.store.writes
    let (a, r) := a.save ⟨← needFields step "fields"⟩
    let writes := Json.ofNat (a.store.writes - before)
    pure (a, match r with
      | .ok record => .obj [("record", recordJson record), ("writes", writes)]
      | .error e => .obj [("error", .str e.kind), ("message", .str e.message),
          ("attempts", optNatJson e.attempts), ("writes", writes)])
  | "delete" => answer do
    let a ← planStore a step
    let before := a.store.removes
    let (a, r) := a.delete (← needStr step "title")
    let removes := Json.ofNat (a.store.removes - before)
    pure (a, match r with
      | .ok () => .obj [("ok", .bool true), ("removes", removes)]
      | .error e => .obj [("error", .str e.kind), ("message", .str e.message), ("removes", removes)])
  | "delete_attempts" => answer do
    let a ← planStore a step
    let (a, r) := a.delete (← needStr step "title")
    pure (a, match r with
      | .ok () => .obj [("ok", .bool true)]
      | .error e => .obj [("error_kind", .str e.kind), ("attempts", optNatJson e.attempts)])
  | "set_routes" => answer do
    pure ({ a with router := a.router.setRoutes (← siteRouteConfigsOf s step "routes") }, .null)
  | "resolve" => answer do pure (a, routeJson (a.router.resolve ⟨← needFields step "fields"⟩))
  | "alerts" =>
    let (a, taken) := a.takeAlerts
    (a, .ok (.arr (taken.map alertJson)))
  | "alert_log" =>
    (a, .ok (.obj [("len", Json.ofNat a.alerts.length), ("is_empty", .bool a.alerts.isEmpty),
      ("subjects", Json.ofStrings (a.alerts.map (·.subject)))]))
  | "exclusions_len" => (a, .ok (Json.ofNat a.exclusions.len))
  | "router_debug" => (a, .ok (.str a.router.describe))
  | _ => (a, .error (unknownStep op))

/-- `adaptor`: saving and deleting documents in a site, step by step. -/
def adaptorOp (s : Site) (req : Json) : Outcome Json := do
  let defaultRoot := s.path (← needStr req "default_root")
  let router : Router := { defaultRoot, inTagTree := (← hierarchyOf req).isInTagTree }
  let router := router.setRoutes (← siteRouteConfigsOf s req "routes")
  let roots := defaultRoot :: (← optStrings req "index_roots").map s.path
  let index := roots.foldl (fun ix r => (ix.registerRoot r).1) ({} : IndexSet)
  let attempts := min (max (← natOr req "max_attempts" 10) 1) 12
  let counted := !(← flag req "local_store")
  let a : Adaptor := {
    index, router
    store := { disk := s.disk, counted }
    exclusions := Exclusions.new 250
    retry := ⟨1, 2.0, 4, attempts⟩ }
  let steps ← stepsOf req
  pure (resultsJson (runSteps (adaptorStep s.home) a steps).2)

end WikiSync.Script
