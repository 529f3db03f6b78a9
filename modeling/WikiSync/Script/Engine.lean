import WikiSync.Script.Watcher
import WikiSync.Script.Persisting
import WikiSync.Engine.Basic

/-!
# Script operations on the engine

An engine started in a site with a recording change source and a scripted file store, driven
step by step. Its watcher loop catches up after every step, and the engine is shut down after
the last one.
-/

namespace WikiSync.Script

/-- An engine and the site it was started in. -/
structure EngineRun where
  /-- The home of the site. -/
  home : String
  /-- The engine; its adaptor holds the disk. -/
  engine : Engine
  /-- Whether signals to synchronisation can be seen. -/
  seesSignals : Bool

/-- The answer of an engine operation that may fail. -/
def syncOutcome {α : Type} (r : Except SyncError α) (ok : α → Json) : Json :=
  match r with
  | .ok x => ok x
  | .error e => syncErrorJson e

/-- The JSON form of an alert, as the engine reports it. -/
def engineAlertJson (al : Alert) : Json :=
  .obj [("subject", .str al.subject), ("message", .str al.message),
    ("attempts", Json.ofNat al.attempts)]

/-- One engine step, before the watcher loop catches up. -/
def engineRunStep (r : EngineRun) (step : Json) : EngineRun × Outcome Json :=
  let e := r.engine
  let s : Site := ⟨r.home, e.disk⟩
  match stepOp step with
  | .error f => (r, .error f)
  | .ok op =>
  match s.fileStep? step op with
  | some (s', out) => ({ r with engine := e.withDisk s'.disk }, out)
  | none =>
  match indexSetStep? e.index step op s.path with
  | some (ix, out) => ({ r with engine := e.withIndex ix }, out)
  | none =>
  let answer (run : Outcome (Engine × Json)) : EngineRun × Outcome Json :=
    match run with
    | .ok (e', j) => ({ r with engine := e' }, .ok j)
    | .error f => (r, .error f)
  let onWatcher (f : Watcher → Watcher × Json) : EngineRun × Outcome Json :=
    let (w, j) := f e.watcher
    ({ r with engine := { e with watcher := w } }, .ok j)
  match op with
  | "save" => answer do
    let a ← planStore e.adaptor step
    let (e, saved) := { e with adaptor := a }.save ⟨← needFields step "fields"⟩
    pure (e, syncOutcome saved recordJson)
  | "delete" => answer do
    let a ← planStore e.adaptor step
    let (e, deleted) := { e with adaptor := a }.delete (← needStr step "title")
    pure (e, syncOutcome deleted fun () => .null)
  | "emit" => answer do
    let (e, sent) := e.emit (← rawEventsOf s step)
    pure (e, .bool sent)
  | "settle" => answer do pure (e.settle (← natOr step "ms" 50), .null)
  | "drain" =>
    let (e, drained) := e.drain
    ({ r with engine := e }, .ok (drainedPairJson drained))
  | "load" => answer do
    let (e, doc) := e.loadDocument (← needStr step "title")
    pure (e, optFieldsJson (doc.map (·.fields)))
  | "discover" =>
    let (e, found) := e.discover
    ({ r with engine := e }, .ok (discoveredJson found))
  | "reload_routes" =>
    let (e, count) := e.reloadRoutes
    ({ r with engine := e }, .ok (syncOutcome count Json.ofNat))
  | "reload_settings" =>
    let (e, count) := e.reloadSettings
    ({ r with engine := e }, .ok (syncOutcome count Json.ofNat))
  | "sub_roots" => (r, .ok (Json.ofStrings e.subRoots))
  | "active_roots" => (r, .ok (Json.ofStrings (Path.sort e.watcher.activeRoots)))
  | "root_state" => answer do pure (e, .str (e.watcher.rootState (s.path (← needStr step "root"))).name)
  | "settings" => (r, .ok (settingsJson e.settings))
  | "main_root" => (r, .ok (.str e.mainRoot))
  | "settings_path" => (r, .ok (.str e.settingsPath))
  | "routes" => (r, .ok (.arr (e.router.routes.map routeJson)))
  | "resolve" => answer do pure (e, routeJson (e.router.resolve ⟨← needFields step "fields"⟩))
  | "sources" => onWatcher takeCalls
  | "vcs" => onWatcher takeNotices
  | "signalled" =>
    if r.seesSignals then onWatcher takeSignalled else (r, .ok (.bool false))
  | "exclude" => answer do
    pure ({ e with watcher := e.watcher.exclude (s.path (← needStr step "path")) }, .null)
  | "schedule_inclusion" => answer do
    pure ({ e with watcher := e.watcher.scheduleInclusion (s.path (← needStr step "path")) }, .null)
  | "alerts" =>
    let (a, taken) := e.adaptor.takeAlerts
    ({ r with engine := { e with adaptor := a } }, .ok (.arr (taken.map engineAlertJson)))
  | "shutdown" =>
    ({ r with engine := e.shutdown }, .ok (.obj [("ok", .bool true), ("is_shutdown", .bool true)]))
  | "is_shutdown" => (r, .ok (.bool e.watcher.cancelled))
  | "watch_settings" => ({ r with engine := e.watchSettings }, .ok .null)
  | _ => (r, .error (unknownStep op))

/-- One engine step; the watcher loop then catches up. -/
def engineStep (r : EngineRun) (step : Json) : EngineRun × Outcome Json :=
  let (r, out) := engineRunStep r step
  ({ r with engine := r.engine.catchUp }, out)

/-- Settings given as TOML text instead of a settings file: the text is written to a file of
its own in home, and the settings are loaded from it. -/
def givenSettings (s : Site) (text : String) : Outcome (Site × Settings) := do
  let path := s.path "builder-settings.toml"
  let s ← writeGiven s (some text) path
  pure (s, ← (Settings.loadFrom s.disk [] path).mapError loadFailure)

/-- `engine`: an engine started in a site and driven step by step. -/
def engineOp (s : Site) (req : Json) : Outcome Json := do
  let s ← writeGiven s (← optStr req "toml") s.settingsPath
  let (s, settings) ← match ← optStr req "settings_toml" with
    | some text => do
      let (s, settings) ← givenSettings s text
      pure (s, some settings)
    | none => pure (s, none)
  let routes ← if req.has "static_routes" then
      pure (some (.fixed (← siteRouteConfigsOf s req "static_routes")))
    else pure none
  let quiet ← flag req "default_collaborators"
  let failExclusions ← flag req "fail_exclusions"
  let setup : EngineSetup := {
    workspace := s.home, settings, routes
    inTagTree := (← hierarchyOf req).isInTagTree
    store := { disk := s.disk }
    notifiesVcs := !quiet
    factory := .recording ⟨(← optStrings req "fail_start").map s.path, fun _ _ => failExclusions⟩
    onRuntime := !(← flag req "no_runtime") }
  match setup.start with
  | .error e => pure (syncErrorJson e)
  | .ok engine =>
    let steps ← stepsOf req
    pure (resultsJson (runSteps engineStep ⟨s.home, engine, !quiet⟩ steps).2)

end WikiSync.Script
