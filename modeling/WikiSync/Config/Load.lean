import WikiSync.Config.Decode
import WikiSync.Toml.Write
import WikiSync.Disk.Basic
import WikiSync.Text.Utf8

/-!
# Loading and saving settings

Settings are loaded from the defaults, merged with the settings file when there is one and then
with the environment. A workspace's settings file is found by walking up from a directory to
the first ancestor holding a settings directory; without one, the settings file of the starting
directory is used, which need not exist.

Saving writes the settings as TOML after creating the file's directory; a path with no parent
cannot be saved to. A new workspace gets the default settings, unless it has a settings file
already and overwriting was not asked for.
-/

namespace WikiSync

/-- The file layer at a path: nothing when no file is there. -/
def fileLayerAt (d : Disk) (path : String) : Except ConfError (Option ConfValue) :=
  if !d.pathExists path then .ok none
  else match d.readText path with
    | .ok text => (fileLayer path text).map some
    | .error e => .error { problem := .message e.message, layer := some (.file path) }

namespace Settings

/-- Load settings from the defaults, a settings file and environment variables. -/
def loadFrom (d : Disk) (env : List (String × String)) (path : String) :
    Except ConfError Settings := do
  let file ← fileLayerAt d path
  let base := ({} : Settings).toConf
  let merged := match file with
    | some f => base.merge f
    | none => base
  decodeSettings (merged.merge (envLayer env))

/-- The settings file of the nearest directory, from `start` up, that has a settings
directory. -/
def findWorkspaceConfig (d : Disk) (start : String) : Option String :=
  (Path.ancestors start).findSome? fun a =>
    let dir := Path.join a configDir
    if d.isDir dir then some (Path.join dir settingsFile) else none

/-- Load the settings of the workspace holding `start`. -/
def load (d : Disk) (env : List (String × String)) (start : String) : Except ConfError Settings :=
  loadFrom d env ((findWorkspaceConfig d start).getD (pathIn start))

/-- An unsigned 64-bit setting as a TOML integer, which is signed. -/
def u64Out (n : Nat) : Except String Toml.Out :=
  if n ≤ Toml.i64Max then .ok (.int n) else .error "out-of-range value for u64 type"

/-- A route as a TOML table. -/
def routeOut (r : RouteConfig) : List (String × Toml.Out) :=
  [("id", .str r.id), ("root", .str r.root), ("tags", .array (r.tags.map .str)),
    ("include_tag_tree", .bool r.includeTagTree),
    ("custom_filter_enabled", .bool r.customFilterEnabled),
    ("custom_filter", .str r.customFilter), ("priority", .int r.priority),
    ("ignore_symlinks", .bool r.ignoreSymlinks), ("watch_enabled", .bool r.watchEnabled)]

/-- Settings as a TOML document, fields in their order. -/
def toToml (s : Settings) : Except String (List (String × Toml.Out)) := do
  let w := s.watch
  let r := s.retry
  let batch ← u64Out w.batchWindowMs
  let grace ← u64Out w.deleteGraceMs
  let inclusion ← u64Out w.inclusionDelayMs
  let syncDebounce ← u64Out w.syncDebounceMs
  let vcsDebounce ← u64Out w.vcsDebounceMs
  let poll ← u64Out w.configPollMs
  let initial ← u64Out r.initialDelayMs
  let maxDelay ← u64Out r.maxDelayMs
  let modules := sortEntries s.logging.modules
  pure [
    ("version", .int s.version),
    ("sync", .table [("default_root", .str s.sync.defaultRoot),
      ("attachments_dir", .str s.sync.attachmentsDir)]),
    ("watch", .table [("batch_window_ms", batch), ("delete_grace_ms", grace),
      ("inclusion_delay_ms", inclusion), ("sync_debounce_ms", syncDebounce),
      ("vcs_debounce_ms", vcsDebounce), ("ignore_patterns", .array (w.ignorePatterns.map .str)),
      ("ignore_symlinks", .bool w.ignoreSymlinks), ("cache_fields", .bool w.cacheFields),
      ("vcs_only_when_view_open", .bool w.vcsOnlyWhenViewOpen), ("config_poll_ms", poll)]),
    ("retry", .table [("initial_delay_ms", initial), ("multiplier", .float r.multiplier),
      ("max_delay_ms", maxDelay), ("max_attempts", .int r.maxAttempts)]),
    ("logging", .table [("default", .str s.logging.default),
      ("modules", .table (modules.map fun (k, v) => (k, .str v)))]),
    ("routes", if s.routes.isEmpty then .array [] else .tables (s.routes.map routeOut))]

/-- Save settings as TOML at a path, creating its directory first. -/
def save (s : Settings) (d : Disk) (path : String) : Except String Disk := do
  let parent ← match Path.parent? path with
    | some p => pure p
    | none => throw "Invalid path"
  let d ← if parent.isEmpty then pure d
    else match d.createDirAll parent with
      | .ok d' => pure d'
      | .error e => throw e.message
  let doc ← s.toToml
  match d.write path (Utf8.encode (Toml.render doc)) with
  | .ok d' => pure d'
  | .error e => throw e.message

/-- Give a workspace the default settings file; the path written. An existing file is kept
unless `force`. -/
def initConfigFile (d : Disk) (workspace : String) (force : Bool) : Except String (Disk × String) :=
  let path := pathIn workspace
  if !force && d.pathExists path then
    .error "Configuration file already exists. Use force to overwrite"
  else do
    let d ← ({} : Settings).save d path
    pure (d, path)

end Settings

end WikiSync
