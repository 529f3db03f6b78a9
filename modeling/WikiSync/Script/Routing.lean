import WikiSync.Script.Documents
import WikiSync.Route.Basic

/-!
# Script operations on routes

Filters, the tag hierarchy, file names and the router, driven step by step. A stateful request
carries `steps` and answers `{"results": [...]}`, one entry per step; a failing step answers its
error object in its slot and later steps still run.
-/

namespace WikiSync.Script

/-- Run steps over a state, collecting one answer per step. -/
def runSteps {σ : Type} (step : σ → Json → σ × Outcome Json) (s : σ) : List Json → σ × List Json
  | [] => (s, [])
  | j :: rest =>
    let (s, out) := step s j
    let (s, outs) := runSteps step s rest
    (s, answerOf out :: outs)

/-- The answer listing step results. -/
def resultsJson (outs : List Json) : Json :=
  .obj [("results", .arr outs)]

/-- The smallest signed 64-bit integer. -/
def minPriority : Int := -9223372036854775808

/-- Check the type of one member of a configured route. -/
def routeMemberProblem (k : String) (v : Json) : Option String :=
  let text := match v with
    | .str _ => none
    | _ => some (invalidType v "a string")
  let flagType := match v with
    | .bool _ => none
    | _ => some (invalidType v "a boolean")
  match k with
  | "id" => text
  | "root" => match v with
    | .str _ => none
    | _ => some (invalidType v "path string")
  | "custom_filter" => text
  | "tags" => match v with
    | .arr xs => (xs.find? (fun x => match x with
        | .str _ => false
        | _ => true)).map fun x => invalidType x "a string"
    | _ => some (invalidType v "a sequence")
  | "priority" => match v with
    | .num (.int n) =>
      if minPriority ≤ n && n ≤ maxPriority then none else some (invalidValue v "i64")
    | _ => some (invalidType v "i64")
  | "include_tag_tree" => flagType
  | "custom_filter_enabled" => flagType
  | "ignore_symlinks" => flagType
  | "watch_enabled" => flagType
  | _ => none

/-- The members of a configured route, in the order a sequence gives them. -/
def routeMemberNames : List String :=
  ["id", "root", "tags", "include_tag_tree", "custom_filter_enabled", "custom_filter", "priority",
    "ignore_symlinks", "watch_enabled"]

/-- The members of a route given as a sequence: each item is checked in order, then the
sequence must hold the `id` and the `root` and no more items than there are members. -/
def routeMembersOfSeq (xs : List Json) : Outcome (List (String × Json)) := do
  let ms := routeMemberNames.zip xs
  match ms.findSome? (fun (k, x) => routeMemberProblem k x) with
  | some problem => throw (badInput ("route: " ++ problem))
  | none => pure ()
  if xs.length < 2 then
    throw (badInput ("route: invalid length " ++ toString xs.length ++
      ", expected struct RouteConfig with " ++ toString routeMemberNames.length ++ " elements"))
  if xs.length > routeMemberNames.length then
    throw (badInput ("route: invalid length " ++ toString xs.length ++
      ", expected fewer elements in array"))
  pure ms

/-- A configured route from its JSON form, an object or a sequence: an object's members are
checked in key order, then its required members are looked for. -/
def routeConfigOf (v : Json) : Outcome RouteConfig := do
  let members ← match v with
    | .obj ms =>
      match ms.findSome? (fun (k, x) => routeMemberProblem k x) with
      | some problem => throw (badInput ("route: " ++ problem))
      | none => pure ms
    | .arr xs => routeMembersOfSeq xs
    | _ => throw (badInput ("route: " ++ invalidType v "struct RouteConfig"))
  let v : Json := .obj members
  let id ← match v.get? "id" with
    | some (.str s) => pure s
    | _ => throw (badInput "route: missing field `id`")
  let root ← match v.get? "root" with
    | some (.str s) => pure s
    | _ => throw (badInput "route: missing field `root`")
  let tags ← optStrings v "tags"
  let priority := ((v.get? "priority").bind Json.int?).getD 0
  let customFilter := (← optStr v "custom_filter").getD ""
  let includeTagTree ← flag v "include_tag_tree"
  let customFilterEnabled ← flag v "custom_filter_enabled"
  let ignoreSymlinks ← flag v "ignore_symlinks"
  let watchEnabled ← flagOr v "watch_enabled" true
  pure ⟨id, root, tags, includeTagTree, customFilterEnabled, customFilter, priority,
    ignoreSymlinks, watchEnabled⟩

/-- A list of configured routes. -/
def routeConfigsOf (req : Json) (k : String) : Outcome (List RouteConfig) := do
  (← optArray req k).mapM routeConfigOf

/-- The JSON form of a configured route. -/
def routeConfigJson (c : RouteConfig) : Json :=
  .obj [("id", .str c.id), ("root", .str c.root), ("tags", Json.ofStrings c.tags),
    ("include_tag_tree", .bool c.includeTagTree), ("custom_filter_enabled", .bool c.customFilterEnabled),
    ("custom_filter", .str c.customFilter), ("priority", Json.ofInt c.priority),
    ("ignore_symlinks", .bool c.ignoreSymlinks), ("watch_enabled", .bool c.watchEnabled)]

/-- The JSON form of a route in force. -/
def routeJson (r : Route) : Json :=
  .obj [("id", .str r.id), ("root_directory", .str r.rootDirectory),
    ("tag_names", Json.ofStrings r.tagNames), ("include_tag_tree", .bool r.includeTagTree),
    ("custom_filter_enabled", .bool r.customFilterEnabled),
    ("custom_filter_expression", .str r.customFilterExpression),
    ("priority_order", Json.ofInt r.priorityOrder), ("ignore_symlinks", .bool r.ignoreSymlinks),
    ("watch_enabled", .bool r.watchEnabled), ("is_fallback", .bool r.isFallback)]

/-- A file record from its JSON form; only the absolute path and the title are required. -/
def recordOf (v : Json) : Outcome FileRecord := do
  let relativePath := (← optStr v "relative_path").getD ""
  let absolutePath ← needStr v "absolute_path"
  let title ← needStr v "title"
  let contentType := (← optStr v "content_type").getD defaultContentType
  let hasSidecar ← flag v "has_sidecar_metadata"
  let isEditable ← flagOr v "is_editable" true
  pure ⟨relativePath, absolutePath, title, contentType, hasSidecar, isEditable⟩

/-- The JSON form of a file record. -/
def recordJson (r : FileRecord) : Json :=
  .obj [("relative_path", .str r.relativePath), ("absolute_path", .str r.absolutePath),
    ("title", .str r.title), ("content_type", .str r.contentType),
    ("has_sidecar_metadata", .bool r.hasSidecar), ("is_editable", .bool r.isEditable)]

/-- A file record, or null. -/
def optRecordJson : Option FileRecord → Json
  | some r => recordJson r
  | none => .null

/-- A tag graph from `graph` (title and tags, applied in order) and `remove` (titles). -/
def graphOf (req : Json) : Outcome TagGraph := do
  let entries ← optArray req "graph"
  let g ← entries.foldlM (fun g e => match e with
    | .arr (.str title :: tags :: _) => do pure (g.setTags title (← stringsOf "graph" tags))
    | _ => throw (badInput "graph entry must be [title, [tags]]")) TagGraph.empty
  let removed ← optStrings req "remove"
  pure (removed.foldl TagGraph.remove g)

/-- The hierarchy a request asks for: a tag graph when it gives `graph` or `remove`. -/
def hierarchyOf (req : Json) : Outcome Hierarchy := do
  if req.has "graph" || req.has "remove" then pure (.graph (← graphOf req)) else pure .none

/-- `filter`: evaluate an expression against a document. -/
def filterOp (req : Json) : Outcome Json := do
  let e ← needStr req "expression"
  let fs ← needFields req "fields"
  pure (.obj [("result", Json.ofStrings (Filter.evaluate e ⟨fs⟩))])

/-- `tag_tree`: tag-tree queries against a graph. -/
def tagTreeOp (req : Json) : Outcome Json := do
  let g ← graphOf req
  let queries ← (← optArray req "queries").mapM fun q => do
    pure (g.isInTagTree (← needStr q "title") (← needStrings q "roots"))
  pure (.obj [("results", .arr (queries.map .bool))])

/-- `sanitize_title`: the file stem of a title. -/
def sanitizeTitleOp (req : Json) : Outcome Json := do
  pure (.obj [("stem", .str (FileName.sanitize (← needStr req "title")))])

/-- Whether a path is one of the taken ones, comparing components. -/
def takenIn (taken : List String) (p : String) : Bool :=
  taken.any (Path.same p)

/-- `generate_path`: a free path for a title. -/
def generatePathOp (req : Json) : Outcome Json := do
  let taken ← optStrings req "taken"
  let p := FileName.generate (← needStr req "root") (← needStr req "title") (← needStr req "extension")
    (takenIn taken) taken.length
  pure (.obj [("path", .str p)])

/-- The answer of a route provider's failure. -/
def configFailure (reason : String) : Failure :=
  ⟨"Config", "Configuration error: " ++ reason⟩

/-- One router step. -/
def routerStep (r : Router) (step : Json) : Router × Outcome Json :=
  let run : Outcome (Router × Json) := do
    match ← stepOp step with
    | "resolve" => pure (r, routeJson (r.resolve ⟨← needFields step "fields"⟩))
    | "target_path" =>
      let d : Document := ⟨← needFields step "fields"⟩
      let current ← match step.get? "current" with
        | none => pure none
        | some .null => pure none
        | some v => pure (some (← recordOf v))
      let taken ← optStrings step "taken"
      let (r, p) := r.targetPath d current (← needStr step "extension") (takenIn taken) taken.length
      pure (r, .obj [("path", .str p)])
    | "set_routes" => pure (r.setRoutes (← routeConfigsOf step "routes"), .null)
    | "rebuild" =>
      let provided ← match ← optStr step "fail" with
        | some reason => pure (.error ⟨reason⟩)
        | none => pure (.ok (← routeConfigsOf step "routes"))
      match r.rebuild provided with
      | (r, .ok n) => pure (r, .obj [("count", Json.ofNat n)])
      | (r, .error e) => pure (r, (configFailure e.reason).toJson)
    | "forget" => pure (r.forget (← needStr step "title"), .null)
    | "routes" => pure (r, .arr (r.routes.map routeJson))
    | "debug" => pure (r, .str r.describe)
    | "default_root" => pure (r, .str r.defaultRoot)
    | "static_get" =>
      let configs ← routeConfigsOf step "routes"
      let id ← needStr step "id"
      pure (r, match configs.find? (·.id == id) with
        | some c => routeConfigJson c
        | none => .null)
    | op => throw (unknownStep op)
  match run with
  | .ok (r, j) => (r, .ok j)
  | .error f => (r, .error f)

/-- `router`: a router driven step by step. -/
def routerOp (req : Json) : Outcome Json := do
  let r : Router := { defaultRoot := ← needStr req "default_root", inTagTree := (← hierarchyOf req).isInTagTree }
  let r := r.setRoutes (← routeConfigsOf req "routes")
  let steps ← stepsOf req
  pure (resultsJson (runSteps routerStep r steps).2)

end WikiSync.Script
