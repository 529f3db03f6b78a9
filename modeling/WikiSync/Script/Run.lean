import WikiSync.Script.Timers
import WikiSync.Script.Files
import WikiSync.Script.Watching
import WikiSync.Script.Persisting
import WikiSync.Script.Settings
import WikiSync.Script.Notifying
import WikiSync.Script.Watcher
import WikiSync.Script.Engine

/-!
# Running a script request

`respond` reads one request line and answers one JSON line. Paths in requests that are not
absolute are taken relative to the working directory given to it.
-/

namespace WikiSync.Script

/-- Run a request by the name of its operation. -/
def dispatch (op : String) (req : Json) : Outcome Json :=
  match op with
  | "parse_string_list" => parseStringList req
  | "stringify_list" => stringifyList req
  | "document" => documentInfo req
  | "build_document" => buildDocument req
  | "encode" => encodeOp req
  | "decode" => decodeOp req
  | "select_document" => selectDocumentOp req
  | "codec_paths" => codecPaths req
  | "type_ext" => typeExt req
  | "filter" => filterOp req
  | "tag_tree" => tagTreeOp req
  | "sanitize_title" => sanitizeTitleOp req
  | "generate_path" => generatePathOp req
  | "router" => routerOp req
  | "file_index" => fileIndexOp req
  | "index_set" => indexSetOp req
  | "debouncer" => debouncerOp req
  | "exclusions" => exclusionsOp req
  | "change_queue" => changeQueueOp req
  | "retry_policy" => retryPolicyOp req
  | "filter_directives" => filterDirectivesOp req
  | _ => .error (badInput ("unknown op '" ++ op ++ "'"))

/-- Run a request that works on files, in a site of its own. -/
def dispatchOnFiles (s : Site) (op : String) (req : Json) : Option (Outcome Json) :=
  let run (f : Site → Json → Outcome Json) : Option (Outcome Json) :=
    some (do f (← s.prepare req) req)
  match op with
  | "read_documents" => run readDocumentsOp
  | "discovered" => run discoveredOp
  | "ignore" => run ignoreOp
  | "convert" => run convertOp
  | "scan" => run scanOp
  | "pipeline" => run pipelineOp
  | "adaptor" => run adaptorOp
  | "route_config_new" => run routeConfigNewOp
  | "reloader" => run reloaderOp
  | "settings" => run settingsOp
  | "settings_init" => run settingsInitOp
  | "settings_save" => run settingsSaveOp
  | "settings_routes" => run settingsRoutesOp
  | "notify_source" => run notifySourceOp
  | "watcher" => run watcherOp
  | "engine" => run engineOp
  | _ => none

/-- The answer to one request line. Requests that work on files start from a disk holding only
the directory `home`, which answers spell as `shown`. -/
def respond (home shown : String) (line : String) : String :=
  match Json.parse line with
  | .error e => Json.compact (badInput ("invalid request: " ++ e.message)).toJson
  | .ok req =>
    match req.get? "op" with
    | some (.str op) =>
      match dispatchOnFiles (Site.new home) op req with
      | some out => Json.compact (Json.mapText (·.replace home shown) (answerOf out))
      | none => Json.compact (answerOf (dispatch op req))
    | _ => Json.compact (badInput "missing op").toJson

end WikiSync.Script
