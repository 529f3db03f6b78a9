import WikiSync.Route.Basic

/-!
# Settings

The settings of a workspace: where unrouted documents go, how the watcher times and filters
events, how writes are retried, how much is logged, and the routes. Every field has a default,
so an empty settings file means the defaults.

Some settings only take effect when the program restarts; `restartRequired` names those that
differ between two settings. The inclusion delay is kept longer than the batch window, since a
path the program wrote must still be excluded when the batch reporting it is handled.
-/

namespace WikiSync

/-!
## Retry policy

Writes that hit a lock are retried with exponential backoff: the first delay, a multiplier, a
cap on the delay, and a cap on the attempts, the first one included. At least one attempt is
always made.
-/

/-- How writes are retried, as configured. -/
structure RetryConfig where
  /-- The first delay, in milliseconds. -/
  initialDelayMs : Nat := 50
  /-- The factor between successive delays. -/
  multiplier : Float := 2.0
  /-- The longest delay, in milliseconds. -/
  maxDelayMs : Nat := 2000
  /-- The most attempts, the first one included. -/
  maxAttempts : Nat := 10
  deriving Inhabited

/-- How writes are retried. -/
structure RetryPolicy where
  /-- The first delay, in milliseconds. -/
  initialDelayMs : Nat
  /-- The factor between successive delays. -/
  multiplier : Float
  /-- The longest delay, in milliseconds. -/
  maxDelayMs : Nat
  /-- The most attempts, the first one included; at least one. -/
  maxAttempts : Nat
  deriving Inhabited

/-- The policy a configuration asks for; zero attempts means one. -/
def RetryPolicy.ofConfig (c : RetryConfig) : RetryPolicy :=
  ⟨c.initialDelayMs, c.multiplier, c.maxDelayMs, max c.maxAttempts 1⟩

/-- Where documents go by default. -/
structure SyncConfig where
  /-- The directory of documents no route claims, relative to the workspace or absolute. -/
  defaultRoot : String := "tiddlers"
  /-- The attachments folder, managed elsewhere and never watched. -/
  attachmentsDir : String := "files"
  deriving Inhabited, BEq

/-- The name of the settings directory in a workspace. -/
def configDir : String := ".tidsync"

/-- The name of the settings file in the settings directory. -/
def settingsFile : String := "settings.toml"

/-- The prefix of temporary files written by atomic saves. -/
def tempPrefix : String := ".tidsync-"

/-- The ignore patterns watched roots get by default. -/
def defaultIgnorePatterns : List String :=
  [".git/", ".svn/", ".hg/", "node_modules/", ".DS_Store", "Thumbs.db", "desktop.ini", "*.swp",
    "*~", configDir ++ "/", tempPrefix ++ "*"]

/-- How the watcher times and filters events; durations in milliseconds. -/
structure WatchConfig where
  /-- The window in which raw notifications are gathered into one batch. -/
  batchWindowMs : Nat := 100
  /-- How long a removal waits before it is acted on. -/
  deleteGraceMs : Nat := 100
  /-- How long a path written by the program stays excluded afterwards. -/
  inclusionDelayMs : Nat := 250
  /-- The quiet period before synchronisation is signalled. -/
  syncDebounceMs : Nat := 200
  /-- The quiet period before version control is notified. -/
  vcsDebounceMs : Nat := 1000
  /-- Patterns never watched in any root. -/
  ignorePatterns : List String := defaultIgnorePatterns
  /-- Whether links in the main root are left alone. -/
  ignoreSymlinks : Bool := false
  /-- Whether the fields read when a change is found are kept for loading. -/
  cacheFields : Bool := true
  /-- Passed on to version control notifications. -/
  vcsOnlyWhenViewOpen : Bool := true
  /-- How often the settings file is checked for changes. -/
  configPollMs : Nat := 2000
  deriving Inhabited, BEq

/-- The inclusion delay, kept longer than the batch window: when it is not, the window plus
fifty milliseconds, counted in 64-bit words (so a window within fifty of the largest word wraps
round to a short delay). -/
def WatchConfig.inclusionDelay (w : WatchConfig) : Nat :=
  if w.inclusionDelayMs > w.batchWindowMs then w.inclusionDelayMs
  else (w.batchWindowMs + 50) % 18446744073709551616

/-- How much is logged. -/
structure LoggingConfig where
  /-- The level of every module. -/
  default : String := "warn"
  /-- Levels of single modules. -/
  modules : List (String × String) := []
  deriving Inhabited, BEq

/-- The target that names the program's own modules in log filters. -/
def logTarget : String := "tidsync"

/-- The log filter of a logging configuration: the default level, then each module's level in
order of module name. A module named with `::`, or the program itself, is a full target; other
names are modules of the program. -/
def LoggingConfig.filterDirectives (c : LoggingConfig) : String :=
  let modules := c.modules.mergeSort fun a b => a.1 < b.1 || (a.1 == b.1 && a.2 ≤ b.2)
  modules.foldl (fun acc (m, level) =>
    if (m.splitOn "::").length > 1 || m == logTarget then acc ++ "," ++ m ++ "=" ++ level
    else acc ++ "," ++ logTarget ++ "::" ++ m ++ "=" ++ level) c.default

/-- The settings of a workspace. -/
structure Settings where
  /-- The version of the settings layout. -/
  version : Nat := 1
  /-- Where documents go by default. -/
  sync : SyncConfig := {}
  /-- Watcher timing and filtering. -/
  watch : WatchConfig := {}
  /-- How writes are retried. -/
  retry : RetryConfig := {}
  /-- Logging. -/
  logging : LoggingConfig := {}
  /-- Routing rules, in the order written. -/
  routes : List RouteConfig := []
  deriving Inhabited

namespace Settings

/-- The default root, taken relative to a workspace unless absolute. -/
def defaultRootIn (s : Settings) (workspace : String) : String :=
  if Path.isAbsolute s.sync.defaultRoot then s.sync.defaultRoot
  else Path.join workspace s.sync.defaultRoot

/-- The settings that differ in `next` but take effect only on restart, in a fixed order. -/
def restartRequired (s next : Settings) : List String :=
  let (a, b) := (s.watch, next.watch)
  let (r, q) := (s.retry, next.retry)
  let changes : List (String × Bool) := [
    ("watch.batch_window_ms", a.batchWindowMs != b.batchWindowMs),
    ("watch.delete_grace_ms", a.deleteGraceMs != b.deleteGraceMs),
    ("watch.inclusion_delay_ms", a.inclusionDelayMs != b.inclusionDelayMs),
    ("watch.sync_debounce_ms", a.syncDebounceMs != b.syncDebounceMs),
    ("watch.vcs_debounce_ms", a.vcsDebounceMs != b.vcsDebounceMs),
    ("watch.cache_fields", a.cacheFields != b.cacheFields),
    ("watch.vcs_only_when_view_open", a.vcsOnlyWhenViewOpen != b.vcsOnlyWhenViewOpen),
    ("watch.config_poll_ms", a.configPollMs != b.configPollMs),
    ("retry.initial_delay_ms", r.initialDelayMs != q.initialDelayMs),
    ("retry.multiplier", r.multiplier != q.multiplier),
    ("retry.max_delay_ms", r.maxDelayMs != q.maxDelayMs),
    ("retry.max_attempts", r.maxAttempts != q.maxAttempts)]
  changes.filterMap fun (k, changed) => if changed then some k else none

/-- The settings file of a workspace. -/
def pathIn (workspace : String) : String :=
  Path.join (Path.join workspace configDir) settingsFile

end Settings

end WikiSync
