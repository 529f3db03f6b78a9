import WikiSync.Watch.Watcher
import WikiSync.Watch.Scan
import WikiSync.Sync.Adaptor
import WikiSync.Config.Load
import WikiSync.Config.Reloader

/-!
# The engine

An engine joins the parts: it saves and deletes documents through the adaptor, and watches the
main root and the roots of the routes through a watcher, the two sharing one index and one set
of exclusions. The index and the exclusions live in the watcher's pipeline; the adaptor works
on them and hands them back (`Engine.withAdaptor`).

Starting an engine finds the workspace's settings file, loads the settings unless they are
given, makes the main root, builds the router from the route source, and starts the watcher on
the main root. The main root ignores the settings' patterns and the attachments directory; the
other watched roots are the distinct roots of the routes that ask to be watched, with the
settings' patterns only.

Reloading routes installs what the route source gives now and brings the watched roots in line:
roots no longer wanted are removed first, then new ones are made on disk and added. Reloading
settings also sends the new ignore patterns to every active root when they changed. Polling the
settings file reloads the settings whenever its modification time changes.
-/

namespace WikiSync

/-!
## Where routes come from

Routes are a fixed list, the routes of a settings file, read again each time they are asked
for, or the answer of a provider the host gives, which may fail. A settings file's route roots
that are not absolute are taken relative to the workspace; a file that does not load gives a
configuration error naming it.
-/

/-- A source of route configurations. -/
inductive RouteSource where
  /-- A fixed list. -/
  | fixed (routes : List RouteConfig)
  /-- The routes of a settings file, relative roots under a workspace. -/
  | settingsFile (path workspace : String)
  /-- A provider the host gives; its answer may depend on the files, and may be a failure. -/
  | host (list : Disk → Except SyncError (List RouteConfig))
  deriving Inhabited

/-- A route's root taken relative to a workspace when it is not absolute. -/
def RouteConfig.under (r : RouteConfig) (workspace : String) : RouteConfig :=
  if Path.isAbsolute r.root then r else { r with root := Path.join workspace r.root }

/-- The routes a source gives now. -/
def RouteSource.routes (src : RouteSource) (d : Disk) : Except SyncError (List RouteConfig) :=
  match src with
  | .fixed rs => .ok rs
  | .settingsFile path workspace =>
    match Settings.loadFrom d [] path with
    | .ok s => .ok (s.routes.map (·.under workspace))
    | .error e => .error (.config ("Failed to load " ++ path ++ ": " ++ e.text))
  | .host list => list d

/-!
## Engines
-/

/-- A poll of the settings file: what it last saw, how often it looks, and when it looks next. -/
structure SettingsPoll where
  /-- What was last seen of the file. -/
  reloader : Reloader
  /-- Milliseconds between looks. -/
  interval : Nat
  /-- When it looks next. -/
  next : Nat
  deriving Inhabited

/-- A running engine. -/
structure Engine where
  /-- The settings in force. -/
  settings : Settings
  /-- The settings file. -/
  settingsPath : String
  /-- The main root. -/
  mainRoot : String
  /-- Where routes come from. -/
  routes : RouteSource
  /-- Saving and deleting; it holds the router and the disk. -/
  adaptor : Adaptor
  /-- Watching; it holds the shared index and exclusions, and the clock. -/
  watcher : Watcher
  /-- The watched roots besides the main root, in the order they were added. -/
  subRoots : List String := []
  /-- Polls of the settings file. -/
  polls : List SettingsPoll := []
  deriving Inhabited

/-- What an engine is started with. -/
structure EngineSetup where
  /-- The workspace. -/
  workspace : String
  /-- Settings to use instead of loading them. -/
  settings : Option Settings := none
  /-- A route source to use instead of the settings' routes. -/
  routes : Option RouteSource := none
  /-- The tag hierarchy the router asks. -/
  inTagTree : String → List String → Bool := Hierarchy.none.isInTagTree
  /-- The filter evaluator the router asks. -/
  evaluate : String → Document → List String := Filter.evaluate
  /-- Where files are written; it holds the disk. -/
  store : FileStore
  /-- Whether version control is notified. -/
  notifiesVcs : Bool := true
  /-- How the watcher makes its sources. -/
  factory : SourceFactory
  /-- Whether an event loop is there to run the watcher on. -/
  onRuntime : Bool := true
  deriving Inhabited

/-- The ignore patterns of a root: the settings' patterns, and for the main root the attachments
directory too. -/
def Settings.ignorePatternsFor (s : Settings) (mainRoot root : String) : List String :=
  s.watch.ignorePatterns ++
    (if Path.same root mainRoot then ["/" ++ s.sync.attachmentsDir ++ "/"] else [])

/-- The watched main root. -/
def Settings.mainWatchRoot (s : Settings) (mainRoot : String) : WatchRoot :=
  ⟨mainRoot, s.ignorePatternsFor mainRoot mainRoot, s.watch.ignoreSymlinks⟩

/-- Keep the first route of each root. -/
def firstPerRoot (routes : List Route) : List Route :=
  routes.foldl (fun acc r =>
    if acc.any fun q => Path.same q.rootDirectory r.rootDirectory then acc else acc ++ [r]) []

/-- Documents not yet seen by title, and the titles seen after them. -/
def freshDocuments (seen : List String) (docs : List Document) : List Document × List String :=
  docs.foldl (fun (kept, seen) doc =>
    if seen.contains doc.title then (kept, seen) else (kept ++ [doc], seen ++ [doc.title]))
    ([], seen)

namespace Engine

/-- The disk. -/
def disk (e : Engine) : Disk :=
  e.adaptor.store.disk

/-- The shared index. -/
def index (e : Engine) : IndexSet :=
  e.watcher.pipeline.index

/-- The router. -/
def router (e : Engine) : Router :=
  e.adaptor.router

/-- The current time. -/
def now (e : Engine) : Nat :=
  e.watcher.now

/-- Replace the disk. -/
def withDisk (e : Engine) (d : Disk) : Engine :=
  { e with adaptor := { e.adaptor with store := { e.adaptor.store with disk := d } } }

/-- Replace the shared index. -/
def withIndex (e : Engine) (ix : IndexSet) : Engine :=
  { e with watcher := { e.watcher with pipeline := { e.watcher.pipeline with index := ix } } }

/-- Let the watcher loop catch up with what was sent to it. -/
def catchUp (e : Engine) : Engine :=
  { e with watcher := e.watcher.catchUp e.disk }

/-- Run the adaptor on the shared index and exclusions at the current time, and take them
back. -/
def withAdaptor {α : Type} (e : Engine) (f : Adaptor → Adaptor × α) : Engine × α :=
  let p := e.watcher.pipeline
  let (a, r) := f { e.adaptor with index := p.index, exclusions := p.exclusions, now := e.now }
  ({ e with
    adaptor := a
    watcher := { e.watcher with pipeline := { p with index := a.index, exclusions := a.exclusions } } },
    r)

/-- The watched main root. -/
def mainWatchRoot (e : Engine) : WatchRoot :=
  e.settings.mainWatchRoot e.mainRoot

/-- The watched roots of the routes besides the main root. -/
def subWatchRoots (e : Engine) : List WatchRoot :=
  let wanted := e.router.routes.filter fun r => r.watchEnabled && !Path.same r.rootDirectory e.mainRoot
  (firstPerRoot wanted).map fun r =>
    ⟨r.rootDirectory, e.settings.ignorePatternsFor e.mainRoot r.rootDirectory, r.ignoreSymlinks⟩

/-- Stop watching roots no longer wanted; the first failure stops the rest. -/
def removeStale (e : Engine) : List String → Engine × Except SyncError Unit
  | [] => (e, .ok ())
  | root :: rest =>
    let (w, sent) := e.watcher.removeRoot root
    let e := { e with watcher := w }
    match sent with
    | .error err => (e, .error (.watch err))
    | .ok () => removeStale { e with subRoots := e.subRoots.filter fun r => !Path.same r root } rest

/-- Watch roots newly wanted, making each on disk first and passing over one that cannot be
made; the first failure to send stops the rest. -/
def addWanted (e : Engine) : List WatchRoot → Engine × Except SyncError Unit
  | [] => (e, .ok ())
  | r :: rest =>
    if e.subRoots.any (Path.same · r.root) then addWanted e rest
    else match e.disk.createDirAll r.root with
      | .error _ => addWanted e rest
      | .ok d =>
        let e := { e.withDisk d with subRoots := e.subRoots ++ [r.root] }
        let (w, sent) := e.watcher.addRoot r
        let e := { e with watcher := w }
        match sent with
        | .error err => (e, .error (.watch err))
        | .ok () => addWanted e rest

/-- Bring the watched roots in line with the routes. -/
def reconcileSubRoots (e : Engine) : Engine × Except SyncError Unit :=
  let wanted := e.subWatchRoots
  let stale := e.subRoots.filter fun root => !wanted.any (Path.same ·.root root)
  match e.removeStale stale with
  | (e, .error err) => (e, .error err)
  | (e, .ok ()) => e.addWanted wanted

/-- Install the routes the route source gives now, then bring the watched roots in line; the
number of routes. -/
def reloadRoutes (e : Engine) : Engine × Except SyncError Nat :=
  match e.routes.routes e.disk with
  | .error err => (e, .error err)
  | .ok rs =>
    let e := { e with adaptor := { e.adaptor with router := e.router.setRoutes rs } }
    match e.reconcileSubRoots with
    | (e, .ok ()) => (e, .ok rs.length)
    | (e, .error err) => (e, .error err)

/-- Send new ignore patterns to each of some roots. -/
def refreshExclusions (e : Engine) : List String → Engine × Except SyncError Unit
  | [] => (e, .ok ())
  | root :: rest =>
    let (w, sent) := e.watcher.updateExclusions root (e.settings.ignorePatternsFor e.mainRoot root)
    let e := { e with watcher := w }
    match sent with
    | .error err => (e, .error (.watch err))
    | .ok () => e.refreshExclusions rest

/-- Load the settings file again and apply it, then reload the routes. -/
def reloadSettings (e : Engine) : Engine × Except SyncError Nat :=
  match Settings.loadFrom e.disk [] e.settingsPath with
  | .error err => (e, .error (.config err.text))
  | .ok s =>
    let changed := e.settings.watch.ignorePatterns != s.watch.ignorePatterns ||
      e.settings.sync.attachmentsDir != s.sync.attachmentsDir
    let e := { e with settings := s }
    let refreshed : Engine × Except SyncError Unit :=
      if changed then e.refreshExclusions e.watcher.activeRoots else (e, .ok ())
    match refreshed with
    | (e, .error err) => (e, .error err)
    | (e, .ok ()) => e.reloadRoutes

/-- Scan the main root and the other watched roots, tracking what is found in the index; a
title found again under a later root is reported once. -/
def discover (e : Engine) : Engine × Discovered :=
  let step (acc : IndexSet × Discovered × List String) (r : WatchRoot) :=
    let (ix, all, seen) := acc
    match r.rules with
    | .error _ => acc
    | .ok rules =>
      let (ix, found) := scanRoot e.disk ix rules
      let (docs, seen) := freshDocuments seen found.documents
      (ix, { documents := all.documents ++ docs, files := all.files + found.files
             failed := all.failed ++ found.failed }, seen)
  let (ix, found, _) := (e.mainWatchRoot :: e.subWatchRoots).foldl step (e.index, {}, [])
  (e.withIndex ix, found)

/-- Save a document. -/
def save (e : Engine) (d : Document) : Engine × Except SyncError FileRecord :=
  e.withAdaptor (·.save d)

/-- Delete the files of a title. -/
def delete (e : Engine) (title : String) : Engine × Except SyncError Unit :=
  e.withAdaptor (·.delete title)

/-- Take the titles changed and removed on disk since the last time; the router forgets the
paths of the removed ones. -/
def drain (e : Engine) : Engine × Drained :=
  let (w, drained) := e.watcher.drain
  ({ e with
    watcher := w
    adaptor := { e.adaptor with router := drained.deletions.foldl Router.forget e.router } },
    drained)

/-- The document of a title waiting to be loaded, when it has a title. -/
def loadDocument (e : Engine) (title : String) : Engine × Option Document :=
  let (w, fs) := e.watcher.loadDocument e.disk title
  ({ e with watcher := w }, fs.bind Document.ofFields?)

/-- Hand events to the watcher as a recording source would; false when none is watching. -/
def emit (e : Engine) (events : List RawEvent) : Engine × Bool :=
  if e.watcher.recording then ({ e with watcher := e.watcher.receive events }, true)
  else (e, false)

/-- Start polling the settings file at the configured interval. The first look, right away,
sees the file as the reloader was made with it. A zero interval never looks. -/
def watchSettings (e : Engine) : Engine :=
  let interval := e.settings.watch.configPollMs
  if e.watcher.cancelled || interval == 0 then e
  else { e with polls := e.polls ++ [⟨Reloader.new e.disk e.settingsPath, interval, e.now + interval⟩] }

/-- When a poll looks next. -/
def nextPoll (e : Engine) : Option Nat :=
  e.polls.foldl (fun m p => some (match m with
    | some a => min a p.next
    | none => p.next)) none

/-- Let the polls due by `t` look at the settings file, reloading the settings when it
changed; a failed reload keeps the settings in force. -/
def pollDue (e : Engine) (t : Nat) : Engine :=
  let e := { e with watcher := { e.watcher with now := max t e.now } }
  let (e, polls) := e.polls.foldl (fun (acc : Engine × List SettingsPoll) p =>
    let (e, kept) := acc
    if p.next ≤ t then
      let (r, changed) := p.reloader.check e.disk
      let e := if changed then e.reloadSettings.1.catchUp else e
      (e, kept ++ [{ p with reloader := r, next := p.next + p.interval }])
    else (e, kept ++ [p])) (e, [])
  { e with polls }

/-- Let time pass to `target`, waking the watcher and the polls at their moments, at most
`fuel` times. -/
def advanceFor (e : Engine) (target : Nat) : Nat → Engine
  | 0 => { e with watcher := { e.watcher with now := max e.now target } }
  | fuel + 1 =>
    let rest := { e with watcher := { e.watcher with now := max e.now target } }
    match e.watcher.nextWake, e.nextPoll with
    | some w, some p =>
      if w ≤ p then
        if w ≤ target then { e with watcher := e.watcher.wake e.disk (max w e.now) }.advanceFor target fuel
        else rest
      else if p ≤ target then (e.pollDue p).advanceFor target fuel
      else rest
    | some w, none =>
      if w ≤ target then { e with watcher := e.watcher.wake e.disk (max w e.now) }.advanceFor target fuel
      else rest
    | none, some p => if p ≤ target then (e.pollDue p).advanceFor target fuel else rest
    | none, none => rest

/-- Let some milliseconds pass. -/
def settle (e : Engine) (ms : Nat) : Engine :=
  e.advanceFor (e.now + ms) (4 * ms + 16)

/-- Stop watching and polling. -/
def shutdown (e : Engine) : Engine :=
  { e with watcher := e.watcher.shutdown, polls := [] }.catchUp

end Engine

/-- The message of starting outside an event loop. -/
def noRuntimeReason : String :=
  "no Tokio runtime: there is no reactor running, must be called from the context of a Tokio 1.x runtime"

/-- Start an engine. -/
def EngineSetup.start (s : EngineSetup) : Except SyncError Engine := do
  if !s.onRuntime then throw (.watch (.initFailed noRuntimeReason))
  let d := s.store.disk
  let settingsPath := (Settings.findWorkspaceConfig d s.workspace).getD (Settings.pathIn s.workspace)
  let settings ← match s.settings with
    | some given => pure given
    | none => (Settings.loadFrom d [] settingsPath).mapError fun e => .config e.text
  let mainRoot := settings.defaultRootIn s.workspace
  let d ← (d.createDirAll mainRoot).mapError fun e =>
    .config ("cannot create " ++ mainRoot ++ ": " ++ e.message)
  let routes := match s.routes with
    | some src => src
    | none =>
      if d.isFile settingsPath then .settingsFile settingsPath s.workspace
      else .fixed (settings.routes.map (·.under s.workspace))
  let router : Router := { defaultRoot := mainRoot, inTagTree := s.inTagTree, evaluate := s.evaluate }
  let router := match routes.routes d with
    | .ok rs => router.setRoutes rs
    | .error _ => router
  let index := IndexSet.withRoot mainRoot
  let exclusions := Exclusions.new settings.watch.inclusionDelay
  let watcher ← (WatcherSetup.build {
    index := some index, roots := [settings.mainWatchRoot mainRoot], config := settings.watch
    hasTarget := true, notifiesVcs := s.notifiesVcs, factory := s.factory
    exclusions := some exclusions }).mapError .watch
  let adaptor : Adaptor := {
    index, router, exclusions
    store := { s.store with disk := d }
    retry := RetryPolicy.ofConfig settings.retry }
  let engine : Engine := { settings, settingsPath, mainRoot, routes, adaptor, watcher }
  match engine.reconcileSubRoots with
  | (e, .ok ()) => pure e.catchUp
  | (_, .error err) => throw err

end WikiSync
