import WikiSync.Route.Filter
import WikiSync.Route.TagGraph
import WikiSync.Route.FileName
import WikiSync.Index.Record
import WikiSync.Text.Printable

/-!
# Routes and the router

A route claims documents for a root directory. Routes are tried in priority order, lower first,
routes of equal priority in the order they were given; a document matching none belongs to the
fallback route of the default root. A route claims a document when

1. the title, or one of the document's tags, is one of the route's tags;
2. or the route includes the tag tree and the title lies below one of its tags;
3. or the route's custom filter is enabled and one of its non-blank lines, trimmed, matches.

The router also chooses backing files: a document keeps its current file while that file's
directory lies under the resolved root and has the wanted extension; otherwise the path last
generated for its title is reused while it is still under the root, has the extension and is
not taken; otherwise a fresh free path is generated and remembered.
-/

namespace WikiSync

/-- A route as configured. -/
structure RouteConfig where
  /-- The route's name. -/
  id : String
  /-- The directory its documents are stored under. -/
  root : String
  /-- The tags it claims. -/
  tags : List String := []
  /-- Whether it also claims documents below its tags in the tag hierarchy. -/
  includeTagTree : Bool := false
  /-- Whether its custom filter is used. -/
  customFilterEnabled : Bool := false
  /-- Filter expressions, one per line. -/
  customFilter : String := ""
  /-- Lower priorities are tried first. -/
  priority : Int := 0
  /-- Whether symbolic links under its root are skipped. -/
  ignoreSymlinks : Bool := false
  /-- Whether its root is watched for outside changes. -/
  watchEnabled : Bool := true
  deriving BEq, Inhabited, Repr

/-- The name of the fallback route. -/
def fallbackRouteId : String := "default"

/-- The largest signed 64-bit integer: the priority of the fallback route. -/
def maxPriority : Int := 9223372036854775807

/-- Keep the first occurrence of each item. -/
def dedup (xs : List String) : List String :=
  xs.foldl (fun acc x => if acc.contains x then acc else acc ++ [x]) []

/-- A route in force. -/
structure Route where
  /-- The route's name. -/
  id : String
  /-- The directory its documents are stored under. -/
  rootDirectory : String
  /-- The tags it claims, each once, in first-occurrence order. -/
  tagNames : List String
  /-- Whether it also claims documents below its tags. -/
  includeTagTree : Bool
  /-- Whether its custom filter is used. -/
  customFilterEnabled : Bool
  /-- Filter expressions, one per line. -/
  customFilterExpression : String
  /-- Lower priorities are tried first. -/
  priorityOrder : Int
  /-- Whether symbolic links under its root are skipped. -/
  ignoreSymlinks : Bool
  /-- Whether its root is watched for outside changes. -/
  watchEnabled : Bool
  deriving BEq, Inhabited, Repr

namespace Route

/-- The route in force for a configured route. -/
def ofConfig (c : RouteConfig) : Route :=
  ⟨c.id, c.root, dedup c.tags, c.includeTagTree, c.customFilterEnabled, c.customFilter,
    c.priority, c.ignoreSymlinks, c.watchEnabled⟩

/-- The route standing for the default root. -/
def fallback (root : String) : Route :=
  ⟨fallbackRouteId, root, [], false, false, "", maxPriority, false, true⟩

/-- Whether a route is the fallback route. -/
def isFallback (r : Route) : Bool :=
  r.id == fallbackRouteId

end Route

/-- Why a route list could not be obtained. -/
structure ProviderError where
  /-- The reason, as the provider words it. -/
  reason : String

/-- Where routes and backing paths are decided: the default root, the routes in priority order,
the tag hierarchy and filter evaluator the host gives, and the path last generated for each
title. -/
structure Router where
  /-- The root of documents that no route claims. -/
  defaultRoot : String
  /-- The routes, in priority order. -/
  routes : List Route := []
  /-- The tag hierarchy used by tag-tree routes: whether a title lies below one of the root tags.
  By default no title does. -/
  inTagTree : String → List String → Bool := Hierarchy.none.isInTagTree
  /-- The filter evaluator used by custom filters: the titles an expression matches for a
  document. By default the built-in one. -/
  evaluate : String → Document → List String := Filter.evaluate
  /-- The path last generated for each title. -/
  lastGenerated : List (String × String) := []
  deriving Inhabited

namespace Router

/-- Install a route list, sorted stably by priority. -/
def setRoutes (r : Router) (configs : List RouteConfig) : Router :=
  { r with routes := (configs.map Route.ofConfig).mergeSort fun a b => a.priorityOrder ≤ b.priorityOrder }

/-- Install the route list a provider gave, or keep the routes in force when it failed; the
number of routes installed. -/
def rebuild (r : Router) (provided : Except ProviderError (List RouteConfig)) :
    Router × Except ProviderError Nat :=
  match provided with
  | .ok configs => (r.setRoutes configs, .ok configs.length)
  | .error e => (r, .error e)

/-- Whether one of a custom filter's non-blank lines matches the document: the router's
evaluator answers some title for it. -/
def customFilterMatches (r : Router) (expression : String) (d : Document) : Bool :=
  (Text.lines expression).any fun line =>
    let line := Text.trim line
    !line.isEmpty && !(r.evaluate line d).isEmpty

/-- Whether a route claims a document carrying the given tags. -/
def claims (r : Router) (route : Route) (d : Document) (tags : List String) : Bool :=
  route.tagNames.contains d.title || tags.any route.tagNames.contains ||
    (route.includeTagTree && r.inTagTree d.title route.tagNames) ||
    (route.customFilterEnabled && r.customFilterMatches route.customFilterExpression d)

/-- The route a document belongs to: the first that claims it, or the fallback route. -/
def resolve (r : Router) (d : Document) : Route :=
  let tags := d.tags
  match r.routes.find? (fun route => r.claims route d tags) with
  | some route => route
  | none => Route.fallback r.defaultRoot

/-- Whether a path has exactly this extension. -/
def hasExtension (p ext : String) : Bool :=
  Path.extension? p == some ext

/-- Forget the path generated for a title. -/
def forget (r : Router) (title : String) : Router :=
  { r with lastGenerated := r.lastGenerated.filter (·.1 != title) }

/-- The backing path for a document, given its current record, the wanted extension, which
paths are taken and how many may be. -/
def targetPath (r : Router) (d : Document) (current : Option FileRecord) (ext : String)
    (taken : String → Bool) (bound : Nat) : Router × String :=
  let root := (r.resolve d).rootDirectory
  let keep := match current with
    | some c =>
      let inTree := match Path.parent? c.absolutePath with
        | some dir => Path.startsWith dir root
        | none => false
      if inTree && hasExtension c.absolutePath ext then some c.absolutePath else none
    | none => none
  match keep with
  | some p => (r, p)
  | none =>
    let title := d.title
    let cached := (r.lastGenerated.find? (·.1 == title)).map (·.2)
    match cached with
    | some p =>
      if Path.startsWith p root && hasExtension p ext && !taken p then (r, p)
      else
        let r := r.forget title
        let p := FileName.generate root title ext taken bound
        ({ r with lastGenerated := r.lastGenerated ++ [(title, p)] }, p)
    | none =>
      let p := FileName.generate root title ext taken bound
      ({ r with lastGenerated := r.lastGenerated ++ [(title, p)] }, p)

/-- The text a router shows of itself: its default root and how many routes it holds. -/
def describe (r : Router) : String :=
  "Router \x7b default_root: " ++ Text.quoteText r.defaultRoot ++ ", routes: " ++
    Nat.repr r.routes.length ++ " \x7d"

end Router

end WikiSync
