import WikiSync.Script.Persisting
import WikiSync.Config.Settings
import WikiSync.Config.Reloader

/-!
# Script operations on configuration

Log filters, new routes, and noticing changed settings files.
-/

namespace WikiSync.Script

/-- `filter_directives`: the log filter of a logging configuration. -/
def filterDirectivesOp (req : Json) : Outcome Json := do
  let default := (← optStr req "default").getD "warn"
  let modules ← match req.get? "modules" with
    | none | some .null => pure []
    | some v => textPairsOf "modules" v
  pure (.obj [("directives", .str (LoggingConfig.filterDirectives ⟨default, modules⟩))])

/-- `route_config_new`: a route claiming tags under a root, with a priority. -/
def routeConfigNewOp (s : Site) (req : Json) : Outcome Json := do
  let priority ← match req.get? "priority" with
    | none => pure 0
    | some (.num (.int n)) =>
      if minPriority ≤ n && n ≤ maxPriority then pure n else throw (badInput "priority must be i64")
    | some _ => throw (badInput "priority must be i64")
  let id ← needStr req "id"
  let root := s.path (← needStr req "root")
  let tags ← optStrings req "tags"
  pure (routeConfigJson { id, root, tags, priority })

/-- One reloader step. -/
def reloaderStep (st : Site × Reloader) (step : Json) : (Site × Reloader) × Outcome Json :=
  let (s, r) := st
  match stepOp step with
  | .error f => (st, .error f)
  | .ok op =>
  match s.fileStep? step op with
  | some (s', out) => ((s', r), out)
  | none =>
  match op with
  | "check" =>
    let (r, changed) := r.check s.disk
    ((s, r), .ok (.bool changed))
  | _ => (st, .error (unknownStep op))

/-- `reloader`: checks of a settings file for changes. -/
def reloaderOp (s : Site) (req : Json) : Outcome Json := do
  let r := Reloader.new s.disk (s.path (← needStr req "path"))
  let steps ← stepsOf req
  pure (resultsJson (runSteps reloaderStep (s, r) steps).2)

end WikiSync.Script
