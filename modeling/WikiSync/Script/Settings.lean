import WikiSync.Script.Configuring
import WikiSync.Config.Load
import WikiSync.Engine.Basic

/-!
# Script operations on settings files

Loading settings from files and the environment, creating and saving settings files, and the
routes a settings file gives.
-/

namespace WikiSync.Script

/-- The JSON form of settings. -/
def settingsJson (s : Settings) : Json :=
  let w := s.watch
  let r := s.retry
  .obj [
    ("logging", .obj [("default", .str s.logging.default),
      ("modules", .obj (sortEntries s.logging.modules |>.map fun (k, v) => (k, .str v)))]),
    ("retry", .obj [("initial_delay_ms", Json.ofNat r.initialDelayMs),
      ("max_attempts", Json.ofNat r.maxAttempts), ("max_delay_ms", Json.ofNat r.maxDelayMs),
      ("multiplier", .num (.float r.multiplier))]),
    ("routes", .arr (s.routes.map routeConfigJson)),
    ("sync", .obj [("attachments_dir", .str s.sync.attachmentsDir),
      ("default_root", .str s.sync.defaultRoot)]),
    ("version", Json.ofNat s.version),
    ("watch", .obj [("batch_window_ms", Json.ofNat w.batchWindowMs),
      ("cache_fields", .bool w.cacheFields), ("config_poll_ms", Json.ofNat w.configPollMs),
      ("delete_grace_ms", Json.ofNat w.deleteGraceMs),
      ("ignore_patterns", Json.ofStrings w.ignorePatterns),
      ("ignore_symlinks", .bool w.ignoreSymlinks),
      ("inclusion_delay_ms", Json.ofNat w.inclusionDelayMs),
      ("sync_debounce_ms", Json.ofNat w.syncDebounceMs),
      ("vcs_debounce_ms", Json.ofNat w.vcsDebounceMs),
      ("vcs_only_when_view_open", .bool w.vcsOnlyWhenViewOpen)])]

/-- The failure of loading settings. -/
def loadFailure (e : ConfError) : Failure := ⟨"Figment", e.text⟩

/-- Settings, or the failure of loading them. -/
def loadedJson (r : Except ConfError Settings) : Json :=
  match r with
  | .ok s => settingsJson s
  | .error e => (loadFailure e).toJson

/-- The environment variables of a request, in the order given. -/
def envOf (req : Json) : Outcome (List (String × String)) :=
  match req.get? "env" with
  | none | some .null => .ok []
  | some v => textPairsOf "env" v

/-- Write a file's text when a request gives it. -/
def writeGiven (s : Site) (text : Option String) (p : String) : Outcome Site :=
  match text with
  | some t => liftIo (s.writeFile p (Utf8.encode t))
  | none => .ok s

/-- The settings file of a site's home. -/
def Site.settingsPath (s : Site) : String := Settings.pathIn s.home

/-- `settings`: load settings, and what follows from them. -/
def settingsOp (s : Site) (req : Json) : Outcome Json := do
  let toml ← optStr req "toml"
  let env ← envOf req
  let s ← writeGiven s toml s.settingsPath
  let nextToml ← optStr req "next_toml"
  let s ← writeGiven s nextToml "next.toml"
  let loaded := match ← optStr req "load_start" with
    | some start => Settings.load s.disk env (s.path start)
    | none => Settings.loadFrom s.disk env s.settingsPath
  let settings ← loaded.mapError loadFailure
  let workspace := s.path ((← optStr req "workspace").getD "/ws")
  let restart : Json := match nextToml with
    | some _ => match Settings.loadFrom s.disk [] (s.path "next.toml") with
      | .ok next => Json.ofStrings (settings.restartRequired next)
      | .error e => (loadFailure e).toJson
    | none => Json.ofStrings (settings.restartRequired {})
  let found : List (String × Json) := match ← optStr req "find_from" with
    | some start =>
      [("find_workspace_config", Json.ofOption (Settings.findWorkspaceConfig s.disk (s.path start)))]
    | none => []
  let w := settings.watch
  pure (.obj ([("settings", settingsJson settings),
    ("inclusion_delay_ms", Json.ofNat w.inclusionDelay),
    ("batch_window_ms", Json.ofNat w.batchWindowMs),
    ("delete_grace_ms", Json.ofNat w.deleteGraceMs),
    ("sync_debounce_ms", Json.ofNat w.syncDebounceMs),
    ("vcs_debounce_ms", Json.ofNat w.vcsDebounceMs),
    ("config_poll_ms", Json.ofNat w.configPollMs),
    ("filter_directives", .str settings.logging.filterDirectives),
    ("default_root_in", .str (settings.defaultRootIn workspace)),
    ("timing", .obj [("delete_grace_ms", Json.ofNat w.deleteGraceMs)]),
    ("restart_required", restart)] ++ found))

/-- The text of a file, or null when it cannot be read. -/
def textOrNull (s : Site) (p : String) : Json :=
  match s.disk.readText p with
  | .ok t => .str t
  | .error _ => .null

/-- A plain error with a message. -/
def plainError (message : String) : Json :=
  .obj [("error", .str "Error"), ("message", .str message)]

/-- `settings_init`: give the site's home a default settings file. -/
def settingsInitOp (s : Site) (req : Json) : Outcome Json := do
  let s ← writeGiven s (← optStr req "existing") s.settingsPath
  let force ← flag req "force"
  let (s, result) := match Settings.initConfigFile s.disk s.home force with
    | .ok (d, path) => ({ s with disk := d }, Json.obj [("path", .str path)])
    | .error m => (s, plainError m)
  pure (.obj [("result", result), ("content", textOrNull s s.settingsPath),
    ("reloaded", loadedJson (Settings.loadFrom s.disk [] s.settingsPath))])

/-- `settings_save`: save settings read from TOML, or the defaults, to a path. -/
def settingsSaveOp (s : Site) (req : Json) : Outcome Json := do
  let settings ← match ← optStr req "toml" with
    | some t =>
      let source := s.path "source.toml"
      let s' ← writeGiven s (some t) source
      (Settings.loadFrom s'.disk [] source).mapError loadFailure
    | none => pure {}
  let path := s.path (← needStr req "path")
  let (s, result) := match settings.save s.disk path with
    | .ok d => ({ s with disk := d }, Json.null)
    | .error m => (s, plainError m)
  pure (.obj [("result", result), ("content", textOrNull s path)])

/-- A sync error as an answer. -/
def syncErrorJson (e : SyncError) : Json :=
  .obj [("error", .str e.kind), ("message", .str e.message)]

/-- `settings_routes`: the routes a settings file gives, one of them by name, and how many a
router takes from it. -/
def settingsRoutesOp (s : Site) (req : Json) : Outcome Json := do
  let s ← writeGiven s (← optStr req "toml") s.settingsPath
  let workspace := s.path ((← optStr req "workspace").getD "")
  let listed := (RouteSource.settingsFile s.settingsPath workspace).routes s.disk
  let routes := match listed with
    | .ok rs => Json.arr (rs.map routeConfigJson)
    | .error e => syncErrorJson e
  let get : List (String × Json) := match ← optStr req "get" with
    | some id => [("get", match listed with
      | .ok rs => match rs.find? (·.id == id) with
        | some r => routeConfigJson r
        | none => .null
      | .error e => syncErrorJson e)]
    | none => []
  let rebuild := match listed with
    | .ok rs => Json.ofNat rs.length
    | .error e => syncErrorJson e
  pure (.obj ([("routes", routes)] ++ get ++ [("rebuild", rebuild)]))

end WikiSync.Script
