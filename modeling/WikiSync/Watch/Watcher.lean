import WikiSync.Watch.Pipeline
import WikiSync.Watch.Notify
import WikiSync.Watch.Error
import WikiSync.Config.Settings

/-!
# The watcher

A watcher runs the event pipeline over a set of roots, each watched by a change source of its
own. It is a loop that, at each moment, does the first of these that it can: stop when shutdown
was asked for; handle a request (add a root, remove one, replace a root's ignore patterns);
take an event in; or, when the earliest deadline has come, process the batch of events gathered
and fire the pipeline's timers. The first event of a batch opens it for one batch window.

Starting a root marks it starting, compiles its rules and hands them to the pipeline, then
opens a source: its ignore patterns first, then the watch itself. A root whose rules do not
compile, or whose source does not start, is stopped again and leaves the pipeline. A root
already watched is only marked watching.

Time is a count of milliseconds. `catchUp` lets the loop do what it can without time passing,
and `advance` lets time pass to a given moment, waking at every deadline on the way. When the
loop ends, every source is stopped and every timer cancelled; requests sent afterwards fail.
-/

namespace WikiSync

/-- The stage a watched root is in. -/
inductive WatchState where
  /-- Not watched. -/
  | stopped
  /-- Asked for, and not yet watched. -/
  | starting
  /-- Watched by a source. -/
  | watching
  deriving BEq, Inhabited, Repr

/-- The name of a stage. -/
def WatchState.name : WatchState → String
  | .stopped => "Stopped"
  | .starting => "Starting"
  | .watching => "Watching"

/-- Values kept by path; two paths are the same key when their components are. -/
abbrev PathMap (α : Type) := List (String × α)

namespace PathMap

/-- The value kept for a path. -/
def get? {α : Type} (m : PathMap α) (p : String) : Option α :=
  (m.find? fun e => Path.same e.1 p).map (·.2)

/-- Whether a value is kept for a path. -/
def contains {α : Type} (m : PathMap α) (p : String) : Bool :=
  m.any fun e => Path.same e.1 p

/-- Keep a value for a path; a key already there keeps its spelling. -/
def insert {α : Type} (m : PathMap α) (p : String) (v : α) : PathMap α :=
  if m.contains p then m.map fun e => if Path.same e.1 p then (e.1, v) else e
  else m ++ [(p, v)]

/-- Forget the value kept for a path. -/
def erase {α : Type} (m : PathMap α) (p : String) : PathMap α :=
  m.filter fun e => !Path.same e.1 p

end PathMap

/-- A change source supplied by the host. It reports only the events handed to it and may
refuse what it is asked: to start under some roots, or to take a list of ignore patterns, either
before it has a root (`none`) or once it watches one. -/
structure HostSource where
  /-- The roots it fails to start under. -/
  failStart : List String
  /-- Whether it refuses a list of ignore patterns. -/
  refuses : Option String → List String → Bool
  deriving Inhabited

/-- How a watcher makes the change source of each root. -/
inductive SourceFactory where
  /-- Sources supplied by the host, which record what they are asked. -/
  | recording (host : HostSource)
  /-- The platform's file notifications. -/
  | notify
  deriving Inhabited

/-- A change source at work. -/
inductive Source where
  /-- A recording source, the root it watches and the ignore patterns it took. -/
  | recording (root : String) (patterns : List String)
  /-- A notification source. -/
  | notify (s : NotifySource)
  deriving Inhabited

/-- What a recording source was asked to do. -/
inductive SourceCall where
  /-- Set ignore patterns, before or after its root was given. -/
  | exclusions (root : Option String) (patterns : List String)
  /-- Watch a root. -/
  | start (root : String)
  /-- Watch a root, and fail. -/
  | startFailed (root : String)
  /-- Stop watching its root. -/
  | stop (root : String)
  deriving Inhabited

/-- A request sent to the watcher loop. -/
inductive Command where
  /-- Watch a root. -/
  | addRoot (r : WatchRoot)
  /-- Stop watching a root. -/
  | removeRoot (root : String)
  /-- Replace the ignore patterns of a watched root. -/
  | updateExclusions (root : String) (patterns : List String)
  deriving Inhabited

/-- The timing of the pipeline, from the watch settings. -/
def Timing.ofConfig (c : WatchConfig) : Timing :=
  ⟨c.deleteGraceMs, c.syncDebounceMs, c.vcsDebounceMs⟩

/-- The state of a watcher loop and of what it shares with its handle. -/
structure Watcher where
  /-- The event pipeline. -/
  pipeline : Pipeline
  /-- How sources are made. -/
  factory : SourceFactory
  /-- Roots to start when the loop begins. -/
  initialRoots : List WatchRoot
  /-- Whether the loop has begun. -/
  begun : Bool := false
  /-- The source of each watched root. -/
  sources : PathMap Source := []
  /-- Each watched root as asked for. -/
  roots : PathMap WatchRoot := []
  /-- The stage of every root ever asked for. -/
  states : PathMap WatchState := []
  /-- Requests not yet handled, oldest first. -/
  commands : List Command := []
  /-- Events gathered for the open batch. -/
  batch : List RawEvent := []
  /-- When the open batch is processed. -/
  batchDeadline : Option Nat := none
  /-- How long a batch stays open. -/
  batchWindow : Nat
  /-- Passed on with version control notifications. -/
  vcsOnlyWhenViewOpen : Bool
  /-- Whether version control is notified at all. -/
  notifiesVcs : Bool := true
  /-- Whether shutdown was asked for. -/
  cancelled : Bool := false
  /-- Whether the loop has ended. -/
  ended : Bool := false
  /-- What recording sources were asked, oldest first. -/
  calls : List SourceCall := []
  /-- How many times synchronisation was signalled. -/
  syncSignals : Nat := 0
  /-- Version control notifications sent: the root and the flag passed on. -/
  vcsNotices : List (String × Bool) := []
  /-- The current time. -/
  now : Nat := 0
  deriving Inhabited

/-- What a watcher is built from. -/
structure WatcherSetup where
  /-- The index, which is required. -/
  index : Option IndexSet
  /-- Roots watched from the start. -/
  roots : List WatchRoot := []
  /-- The watch settings. -/
  config : WatchConfig := {}
  /-- Whether something is told that changes wait; required. -/
  hasTarget : Bool
  /-- Whether version control is notified. -/
  notifiesVcs : Bool := true
  /-- How sources are made. -/
  factory : SourceFactory := .notify
  /-- Exclusions shared with someone else; otherwise fresh ones. -/
  exclusions : Option Exclusions := none
  deriving Inhabited

/-- Build a watcher, its initial roots marked starting. -/
def WatcherSetup.build (s : WatcherSetup) : Except WatchError Watcher := do
  let index ← match s.index with
    | some ix => pure ix
    | none => throw (.initFailed "Index is required")
  if !s.hasTarget then throw (.initFailed "Sync target is required")
  let exclusions := s.exclusions.getD (Exclusions.new s.config.inclusionDelay)
  let pipeline := Pipeline.new index {} exclusions (Timing.ofConfig s.config) s.config.cacheFields
  pure {
    pipeline, factory := s.factory, initialRoots := s.roots
    states := s.roots.foldl (fun m r => m.insert r.root .starting) []
    batchWindow := s.config.batchWindowMs
    vcsOnlyWhenViewOpen := s.config.vcsOnlyWhenViewOpen
    notifiesVcs := s.notifiesVcs }

namespace Watcher

/-- Put a root in a stage. -/
def setState (w : Watcher) (root : String) (s : WatchState) : Watcher :=
  { w with states := w.states.insert root s }

/-- Record a call made on a recording source. -/
def record (w : Watcher) (c : SourceCall) : Watcher :=
  { w with calls := w.calls ++ [c] }

/-- Open a source for a root: set its ignore patterns, then start it. -/
def openSource (w : Watcher) (d : Disk) (r : WatchRoot) : Watcher × Option Source :=
  match w.factory with
  | .recording host =>
    let w := w.record (.exclusions none r.ignorePatterns)
    if host.refuses none r.ignorePatterns then (w, none)
    else if host.failStart.any (Path.same · r.root) then (w.record (.startFailed r.root), none)
    else (w.record (.start r.root), some (.recording r.root r.ignorePatterns))
  | .notify =>
    let (s, patterns) := ({} : NotifySource).updateExclusions r.ignorePatterns
    match patterns with
    | .error _ => (w, none)
    | .ok () =>
      match s.start d r.root with
      | (s, .ok ()) => (w, some (.notify s))
      | (_, .error _) => (w, none)

/-- Start watching a root, unless it is watched already. -/
def startRoot (w : Watcher) (d : Disk) (r : WatchRoot) : Watcher :=
  if w.sources.contains r.root then w.setState r.root .watching
  else
    let w := w.setState r.root .starting
    match r.rules with
    | .error _ => w.setState r.root .stopped
    | .ok rules =>
      let w := { w with pipeline := w.pipeline.addRoot rules }
      match w.openSource d r with
      | (w, some src) =>
        { w with sources := w.sources.insert r.root src, roots := w.roots.insert r.root r }
          |>.setState r.root .watching
      | (w, none) => { w with pipeline := w.pipeline.removeRoot r.root }.setState r.root .stopped

/-- Stop a source. -/
def closeSource (w : Watcher) : Source → Watcher
  | .recording root _ => w.record (.stop root)
  | .notify _ => w

/-- Stop watching a root and drop what the pipeline keeps for it. -/
def stopRoot (w : Watcher) (root : String) : Watcher :=
  let w := match w.sources.get? root with
    | some src => { w.closeSource src with sources := w.sources.erase root }
    | none => w
  { w with roots := w.roots.erase root, pipeline := w.pipeline.removeRoot root }
    |>.setState root .stopped

/-- Whether the host's sources refuse a list of ignore patterns for a root. -/
def refuses (w : Watcher) (root : Option String) (patterns : List String) : Bool :=
  match w.factory with
  | .recording host => host.refuses root patterns
  | .notify => false

/-- Replace the ignore patterns of a watched root. Patterns that do not compile leave the old
ones in force; a source that refuses them keeps its own, while the pipeline's rules and the
root as asked for take them. -/
def replaceExclusions (w : Watcher) (root : String) (patterns : List String) : Watcher :=
  match w.roots.get? root with
  | none => w
  | some r =>
    match IgnoreRules.new root patterns with
    | .error _ => w
    | .ok ignore =>
      let w := { w with pipeline := w.pipeline.updateIgnore root ignore }
      let w := match w.sources.get? root with
        | some (.recording own _) =>
          let w := w.record (.exclusions (some own) patterns)
          if w.refuses (some own) patterns then w
          else { w with sources := w.sources.insert root (.recording own patterns) }
        | some (.notify s) =>
          { w with sources := w.sources.insert root (.notify (s.updateExclusions patterns).1) }
        | none => w
      { w with roots := w.roots.insert root { r with ignorePatterns := patterns } }

/-- Handle one request. -/
def handle (w : Watcher) (d : Disk) : Command → Watcher
  | .addRoot r => w.startRoot d r
  | .removeRoot root => w.stopRoot root
  | .updateExclusions root patterns => w.replaceExclusions root patterns

/-- Stop every source, cancel every timer, and end the loop. -/
def finish (w : Watcher) : Watcher :=
  let w := { w with pipeline := w.pipeline.cancelAll }
  let w := (w.sources.map (·.1)).foldl stopRoot w
  { w with ended := true, commands := [], batch := [], batchDeadline := none }

/-- Do what the loop can without time passing: start the initial roots when it begins, then
end when shutdown was asked for, or else handle the requests sent. -/
def catchUp (w : Watcher) (d : Disk) : Watcher :=
  if w.ended then w
  else
    let w := if w.begun then w
      else w.initialRoots.foldl (startRoot · d) { w with begun := true, initialRoots := [] }
    if w.cancelled then w.finish
    else w.commands.foldl (handle · d) { w with commands := [] }

/-- Take events in; the first of a batch opens it. Events sent after the loop ended are lost. -/
def receive (w : Watcher) (events : List RawEvent) : Watcher :=
  if w.ended || events.isEmpty then w
  else { w with
    batch := w.batch ++ events
    batchDeadline := some (w.batchDeadline.getD (w.now + w.batchWindow)) }

/-- Pass on what the pipeline's timers signalled. -/
def dispatch (w : Watcher) (s : Signals) : Watcher :=
  let w := if s.sync then { w with syncSignals := w.syncSignals + 1 } else w
  if w.notifiesVcs then
    { w with vcsNotices := w.vcsNotices ++ s.vcs.map fun root => (root, w.vcsOnlyWhenViewOpen) }
  else w

/-- The next moment the loop has work: the batch deadline or a timer's. -/
def nextWake (w : Watcher) : Option Nat :=
  if w.ended then none
  else match w.batchDeadline, w.pipeline.nextDeadline with
    | some a, some b => some (min a b)
    | some a, none => some a
    | none, b => b

/-- Wake at a moment: process the batch when it is due, then fire the timers. -/
def wake (w : Watcher) (d : Disk) (t : Nat) : Watcher :=
  let w := { w with now := t }
  let w := match w.batchDeadline with
    | some due =>
      if due ≤ t then
        { w with pipeline := w.pipeline.handleBatch d w.batch t, batch := [], batchDeadline := none }
      else w
    | none => w
  let (p, signals) := w.pipeline.tick d t
  { w with pipeline := p }.dispatch signals

/-- Let time pass to `target`, waking at each deadline on the way, at most `fuel` times. -/
def advanceFor (w : Watcher) (d : Disk) (target : Nat) : Nat → Watcher
  | 0 => { w with now := max w.now target }
  | fuel + 1 =>
    match w.nextWake with
    | some t =>
      if t ≤ target then (w.wake d (max t w.now)).advanceFor d target fuel
      else { w with now := max w.now target }
    | none => { w with now := max w.now target }

/-- Let time pass to `target`. Each wake fires every timer due by then, so a few wakes per
millisecond are enough. -/
def advance (w : Watcher) (d : Disk) (target : Nat) : Watcher :=
  w.advanceFor d target (3 * (target - w.now) + 8)

/-- Send a request to the loop; it fails once the loop has ended. -/
def send (w : Watcher) (c : Command) : Watcher × Except WatchError Unit :=
  if w.ended then (w, .error .channelClosed) else ({ w with commands := w.commands ++ [c] }, .ok ())

/-- Ask for a root to be watched; it is marked starting at once. -/
def addRoot (w : Watcher) (r : WatchRoot) : Watcher × Except WatchError Unit :=
  (w.setState r.root .starting).send (.addRoot r)

/-- Ask for a root to stop being watched. -/
def removeRoot (w : Watcher) (root : String) : Watcher × Except WatchError Unit :=
  w.send (.removeRoot root)

/-- Ask for a root's ignore patterns to be replaced. -/
def updateExclusions (w : Watcher) (root : String) (patterns : List String) :
    Watcher × Except WatchError Unit :=
  w.send (.updateExclusions root patterns)

/-- The stage of a root; a root never asked for is stopped. -/
def rootState (w : Watcher) (root : String) : WatchState :=
  (w.states.get? root).getD .stopped

/-- The roots starting or watched. -/
def activeRoots (w : Watcher) : List String :=
  (w.states.filter fun e => e.2 != .stopped).map (·.1)

/-- Ask the loop to stop. -/
def shutdown (w : Watcher) : Watcher :=
  { w with cancelled := true }

/-- Whether a recording source is watching. -/
def recording (w : Watcher) : Bool :=
  w.sources.any fun e => match e.2 with
    | .recording _ _ => true
    | .notify _ => false

/-- The events notification sources report for a change to the files, given the files after
it. -/
def notified (w : Watcher) (d : Disk) (c : FileChange) : List RawEvent :=
  w.sources.flatMap fun e => match e.2 with
    | .notify s => s.deliver d c
    | .recording _ _ => []

/-- Take the titles changed and removed since the last time. -/
def drain (w : Watcher) : Watcher × Drained :=
  let (q, drained) := w.pipeline.queue.drain
  ({ w with pipeline := { w.pipeline with queue := q } }, drained)

/-- The fields of a title waiting to be loaded: those kept when the change was found, or else
those read from its file now, the document of that title or the file's first. -/
def loadDocument (w : Watcher) (d : Disk) (title : String) : Watcher × Option Fields :=
  let (q, change) := w.pipeline.queue.takeLoad title
  let w := { w with pipeline := { w.pipeline with queue := q } }
  match change with
  | none => (w, none)
  | some c => match c.cachedFields with
    | some fs => (w, some fs)
    | none => match readDocuments d c.absolutePath with
      | .ok docs => (w, selectDocument docs title)
      | .error _ => (w, none)

/-- Exclude a path from the events for now. -/
def exclude (w : Watcher) (p : String) : Watcher :=
  { w with pipeline := { w.pipeline with exclusions := w.pipeline.exclusions.exclude p } }

/-- Let a path back in after the inclusion delay. -/
def scheduleInclusion (w : Watcher) (p : String) : Watcher :=
  { w with pipeline :=
    { w.pipeline with exclusions := w.pipeline.exclusions.scheduleInclusion p w.now } }

end Watcher

end WikiSync
