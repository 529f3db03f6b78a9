import WikiSync.Config.Environment
import WikiSync.Config.Settings

/-!
# Reading settings from configuration values

Settings are read from the merged layers field by field. A number must fit the field's width;
a float is never read as an integer, while an integer is read as a float. A table's keys are
read in sorted order and the first value that cannot be read is the error, named by its key;
keys that name no field are passed over. A field that is absent takes its default, except the
`id` and `root` of a route, which must be given.

The defaults are themselves a layer, written from the default settings, so that every field of
the settings proper is always present.
-/

namespace WikiSync

/-- Reading one kind of setting from a configuration value. -/
abbrev Decoder (α : Type) := ConfValue → Except ConfError α

/-- The largest unsigned 32-bit integer. -/
def u32Max : Nat := 4294967295

/-- An unsigned integer of at most `max`, the expected type named `name`. -/
def decodeUnsigned (name : String) (max : Nat) : Decoder Nat
  | v@(.num _ (.unsigned n)) => if n ≤ max then .ok n else v.fail (.invalidValue v.describe name)
  | v@(.num _ (.signed n)) =>
    if 0 ≤ n && n.toNat ≤ max then .ok n.toNat else v.fail (.invalidValue v.describe name)
  | v => v.fail (.invalidType v.describe name)

/-- A signed 64-bit integer. -/
def decodeSigned : Decoder Int
  | v@(.num _ (.unsigned n)) =>
    if n ≤ Toml.i64Max then .ok n else v.fail (.invalidValue v.describe "i64")
  | .num _ (.signed n) => .ok n
  | v => v.fail (.invalidType v.describe "i64")

/-- A float; integers are taken as floats. -/
def decodeFloat : Decoder Float
  | .num _ (.unsigned n) => .ok (Float.ofNat n)
  | .num _ (.signed n) => .ok (Float.ofInt n)
  | .num _ (.float x) => .ok x
  | v => v.fail (.invalidType v.describe "f64")

/-- A boolean. -/
def decodeBool : Decoder Bool
  | .bool _ b => .ok b
  | v => v.fail (.invalidType v.describe "a boolean")

/-- A text. -/
def decodeString : Decoder String
  | .str _ s => .ok s
  | v => v.fail (.invalidType v.describe "a string")

/-- A path, given as text. -/
def decodePath : Decoder String
  | .str _ s => .ok s
  | v => v.fail (.invalidType v.describe "path string")

/-- The items of a sequence, each read by `item`; an item's error is named by its index. -/
def decodeItems {α : Type} (item : Decoder α) : Nat → List ConfValue → Except ConfError (List α)
  | _, [] => .ok []
  | i, v :: rest =>
    match item v with
    | .error e => .error (e.under (toString i))
    | .ok x => do pure (x :: (← decodeItems item (i + 1) rest))

/-- A sequence, each item read by `item`. -/
def decodeSeq {α : Type} (item : Decoder α) : Decoder (List α)
  | .array _ items => decodeItems item 0 items
  | v => v.fail (.invalidType v.describe "a sequence")

/-- A map of texts to texts. -/
def decodeTextMap : Decoder (List (String × String))
  | .dict _ es => es.mapM fun (k, v) =>
    match decodeString v with
    | .ok s => .ok (k, s)
    | .error e => .error (e.under k)
  | v => v.fail (.invalidType v.describe "a map")

/-- A field of a struct: its key, and the error of reading a value for it, if any. -/
structure FieldCheck where
  /-- The field's key. -/
  key : String
  /-- Why a value cannot be read for it. -/
  check : ConfValue → Option ConfError

/-- The check of a field read by a decoder. -/
def FieldCheck.of {α : Type} (key : String) (dec : Decoder α) : FieldCheck :=
  ⟨key, fun v => match dec v with
    | .ok _ => none
    | .error e => some e⟩

/-- The entries of a struct given as a table or as a sequence, once each field given can be read
and each required field is given. A table's first unreadable field in key order, then its first
missing required field, is the error. A sequence gives the fields in their order, its items
beyond the last field passed over: its first unreadable item is the error, and then, when it
stops before a required field, its length. -/
def structEntries (name : String) (fields : List FieldCheck) (required : List String) :
    Decoder (List (String × ConfValue))
  | v@(.dict _ es) =>
    let broken := es.findSome? fun (k, x) =>
      (fields.find? (·.key == k)).bind fun f => (f.check x).map (·.under k)
    match broken with
    | some e => .error e
    | none =>
      match required.find? (fun k => !es.any (·.1 == k)) with
      | some k => v.fail (.missingField k)
      | none => .ok es
  | v@(.array _ items) =>
    let given := fields.zip items
    let broken := (given.zip (List.range given.length)).findSome? fun ((f, x), i) =>
      (f.check x).map (·.under (toString i))
    match broken with
    | some e => .error e
    | none =>
      if required.all (fun k => given.any (·.1.key == k)) then .ok (given.map fun (f, x) => (f.key, x))
      else v.fail (.invalidLength items.length
        ("struct " ++ name ++ " with " ++ toString fields.length ++ " elements"))
  | v => v.fail (.invalidType v.describe ("struct " ++ name))

/-- A field of checked entries, or its default when absent. -/
def fieldOr {α : Type} (es : List (String × ConfValue)) (k : String) (dec : Decoder α)
    (default : α) : Except ConfError α :=
  match (es.find? (·.1 == k)).map (·.2) with
  | some v => (dec v).mapError (·.under k)
  | none => .ok default

/-- The width of a 64-bit unsigned field. -/
def decodeU64 : Decoder Nat := decodeUnsigned "u64" wordMax

/-- The width of a 32-bit unsigned field. -/
def decodeU32 : Decoder Nat := decodeUnsigned "u32" u32Max

/-- Where documents go by default. -/
def decodeSync : Decoder SyncConfig := fun v => do
  let es ← structEntries "SyncConfig"
    [.of "default_root" decodePath, .of "attachments_dir" decodeString] [] v
  let d : SyncConfig := {}
  let defaultRoot ← fieldOr es "default_root" decodePath d.defaultRoot
  let attachmentsDir ← fieldOr es "attachments_dir" decodeString d.attachmentsDir
  pure (⟨defaultRoot, attachmentsDir⟩ : SyncConfig)

/-- Watcher timing and filtering. -/
def decodeWatch : Decoder WatchConfig := fun v => do
  let es ← structEntries "WatchConfig"
    [.of "batch_window_ms" decodeU64, .of "delete_grace_ms" decodeU64,
      .of "inclusion_delay_ms" decodeU64, .of "sync_debounce_ms" decodeU64,
      .of "vcs_debounce_ms" decodeU64, .of "ignore_patterns" (decodeSeq decodeString),
      .of "ignore_symlinks" decodeBool, .of "cache_fields" decodeBool,
      .of "vcs_only_when_view_open" decodeBool, .of "config_poll_ms" decodeU64] [] v
  let d : WatchConfig := {}
  let batchWindowMs ← fieldOr es "batch_window_ms" decodeU64 d.batchWindowMs
  let deleteGraceMs ← fieldOr es "delete_grace_ms" decodeU64 d.deleteGraceMs
  let inclusionDelayMs ← fieldOr es "inclusion_delay_ms" decodeU64 d.inclusionDelayMs
  let syncDebounceMs ← fieldOr es "sync_debounce_ms" decodeU64 d.syncDebounceMs
  let vcsDebounceMs ← fieldOr es "vcs_debounce_ms" decodeU64 d.vcsDebounceMs
  let ignorePatterns ← fieldOr es "ignore_patterns" (decodeSeq decodeString) d.ignorePatterns
  let ignoreSymlinks ← fieldOr es "ignore_symlinks" decodeBool d.ignoreSymlinks
  let cacheFields ← fieldOr es "cache_fields" decodeBool d.cacheFields
  let vcsOnlyWhenViewOpen ← fieldOr es "vcs_only_when_view_open" decodeBool d.vcsOnlyWhenViewOpen
  let configPollMs ← fieldOr es "config_poll_ms" decodeU64 d.configPollMs
  pure (⟨batchWindowMs, deleteGraceMs, inclusionDelayMs, syncDebounceMs, vcsDebounceMs,
    ignorePatterns, ignoreSymlinks, cacheFields, vcsOnlyWhenViewOpen, configPollMs⟩ : WatchConfig)

/-- How writes are retried. -/
def decodeRetry : Decoder RetryConfig := fun v => do
  let es ← structEntries "RetryConfig"
    [.of "initial_delay_ms" decodeU64, .of "multiplier" decodeFloat, .of "max_delay_ms" decodeU64,
      .of "max_attempts" decodeU32] [] v
  let d : RetryConfig := {}
  let initialDelayMs ← fieldOr es "initial_delay_ms" decodeU64 d.initialDelayMs
  let multiplier ← fieldOr es "multiplier" decodeFloat d.multiplier
  let maxDelayMs ← fieldOr es "max_delay_ms" decodeU64 d.maxDelayMs
  let maxAttempts ← fieldOr es "max_attempts" decodeU32 d.maxAttempts
  pure (⟨initialDelayMs, multiplier, maxDelayMs, maxAttempts⟩ : RetryConfig)

/-- Logging levels. -/
def decodeLogging : Decoder LoggingConfig := fun v => do
  let es ← structEntries "LoggingConfig"
    [.of "default" decodeString, .of "modules" decodeTextMap] [] v
  let d : LoggingConfig := {}
  let default ← fieldOr es "default" decodeString d.default
  let modules ← fieldOr es "modules" decodeTextMap d.modules
  pure (⟨default, modules⟩ : LoggingConfig)

/-- A route as the settings give it; its `id` and `root` must be given. -/
def decodeRoute : Decoder RouteConfig := fun v => do
  let es ← structEntries "RouteConfig"
    [.of "id" decodeString, .of "root" decodePath, .of "tags" (decodeSeq decodeString),
      .of "include_tag_tree" decodeBool, .of "custom_filter_enabled" decodeBool,
      .of "custom_filter" decodeString, .of "priority" decodeSigned,
      .of "ignore_symlinks" decodeBool, .of "watch_enabled" decodeBool] ["id", "root"] v
  let id ← fieldOr es "id" decodeString ""
  let root ← fieldOr es "root" decodePath ""
  let tags ← fieldOr es "tags" (decodeSeq decodeString) []
  let includeTagTree ← fieldOr es "include_tag_tree" decodeBool false
  let customFilterEnabled ← fieldOr es "custom_filter_enabled" decodeBool false
  let customFilter ← fieldOr es "custom_filter" decodeString ""
  let priority ← fieldOr es "priority" decodeSigned 0
  let ignoreSymlinks ← fieldOr es "ignore_symlinks" decodeBool false
  let watchEnabled ← fieldOr es "watch_enabled" decodeBool true
  pure (⟨id, root, tags, includeTagTree, customFilterEnabled, customFilter, priority,
    ignoreSymlinks, watchEnabled⟩ : RouteConfig)

/-- The settings of a workspace. -/
def decodeSettings : Decoder Settings := fun v => do
  let es ← structEntries "Settings"
    [.of "version" decodeU32, .of "sync" decodeSync, .of "watch" decodeWatch,
      .of "retry" decodeRetry, .of "logging" decodeLogging, .of "routes" (decodeSeq decodeRoute)]
    [] v
  let d : Settings := {}
  let version ← fieldOr es "version" decodeU32 d.version
  let sync ← fieldOr es "sync" decodeSync d.sync
  let watch ← fieldOr es "watch" decodeWatch d.watch
  let retry ← fieldOr es "retry" decodeRetry d.retry
  let logging ← fieldOr es "logging" decodeLogging d.logging
  let routes ← fieldOr es "routes" (decodeSeq decodeRoute) d.routes
  pure (⟨version, sync, watch, retry, logging, routes⟩ : Settings)

/-! ## Settings as a layer -/

/-- A table of the defaults layer. -/
def defaultsDict (es : List (String × ConfValue)) : ConfValue := .dict .defaults (sortEntries es)

/-- An unsigned number of the defaults layer. -/
def defaultsNat (n : Nat) : ConfValue := .num .defaults (.unsigned n)

/-- Texts of the defaults layer. -/
def defaultsTexts (xs : List String) : ConfValue := .array .defaults (xs.map (.str .defaults))

/-- A route as a table of the defaults layer. -/
def RouteConfig.toConf (r : RouteConfig) : ConfValue :=
  defaultsDict [("id", .str .defaults r.id), ("root", .str .defaults r.root),
    ("tags", defaultsTexts r.tags), ("include_tag_tree", .bool .defaults r.includeTagTree),
    ("custom_filter_enabled", .bool .defaults r.customFilterEnabled),
    ("custom_filter", .str .defaults r.customFilter),
    ("priority", .num .defaults (.signed r.priority)),
    ("ignore_symlinks", .bool .defaults r.ignoreSymlinks),
    ("watch_enabled", .bool .defaults r.watchEnabled)]

/-- Settings as the defaults layer. -/
def Settings.toConf (s : Settings) : ConfValue :=
  let w := s.watch
  let r := s.retry
  defaultsDict [
    ("version", defaultsNat s.version),
    ("sync", defaultsDict [("default_root", .str .defaults s.sync.defaultRoot),
      ("attachments_dir", .str .defaults s.sync.attachmentsDir)]),
    ("watch", defaultsDict [("batch_window_ms", defaultsNat w.batchWindowMs),
      ("delete_grace_ms", defaultsNat w.deleteGraceMs),
      ("inclusion_delay_ms", defaultsNat w.inclusionDelayMs),
      ("sync_debounce_ms", defaultsNat w.syncDebounceMs),
      ("vcs_debounce_ms", defaultsNat w.vcsDebounceMs),
      ("ignore_patterns", defaultsTexts w.ignorePatterns),
      ("ignore_symlinks", .bool .defaults w.ignoreSymlinks),
      ("cache_fields", .bool .defaults w.cacheFields),
      ("vcs_only_when_view_open", .bool .defaults w.vcsOnlyWhenViewOpen),
      ("config_poll_ms", defaultsNat w.configPollMs)]),
    ("retry", defaultsDict [("initial_delay_ms", defaultsNat r.initialDelayMs),
      ("multiplier", .num .defaults (.float r.multiplier)),
      ("max_delay_ms", defaultsNat r.maxDelayMs),
      ("max_attempts", defaultsNat r.maxAttempts)]),
    ("logging", defaultsDict [("default", .str .defaults s.logging.default),
      ("modules", defaultsDict (s.logging.modules.map fun (k, x) => (k, .str .defaults x)))]),
    ("routes", .array .defaults (s.routes.map RouteConfig.toConf))]

end WikiSync
