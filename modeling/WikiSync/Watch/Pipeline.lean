import WikiSync.Disk.Basic
import WikiSync.Document.Codec
import WikiSync.Index.IndexSet
import WikiSync.Watch.IgnoreRules
import WikiSync.Watch.Event
import WikiSync.Watch.Debouncer
import WikiSync.Watch.Exclusions
import WikiSync.Watch.ChangeQueue

/-!
# The event pipeline

The pipeline turns change events on watched roots into changes of the index and the change
queue, on a clock of milliseconds.

An event's path is first mapped to the document file it concerns (a sidecar to its primary
file), and dropped when no watched root holds that file, when the root's rules ignore the path or
the file, or when either is excluded for now. A created or modified file is read at once: its
first document is tracked in the index, the titles of its other documents are bundled with it,
and every document is queued as added or changed. A title that loses its file to another title,
or that the file no longer holds, is queued as deleted. A removed file is not deleted at once:
its deletion waits out a grace period, so that a file rewritten by removing and recreating it
is seen as a change. When the grace period ends, the file is read again if it exists and deleted
otherwise. A rename deletes the old path at once and reads the new one.

Whenever a batch or a deadline queues anything, a sync timer and a timer for each root touched
are (re)started; a tick reports the timers whose deadlines have come.
-/

namespace WikiSync

/-- How long each timer of the pipeline waits, in milliseconds. -/
structure Timing where
  /-- How long a removed file waits before its deletion is queued. -/
  deleteGrace : Nat
  /-- How long the sync timer waits after the last queued change. -/
  syncDebounce : Nat
  /-- How long a root's timer waits after the last change under it. -/
  vcsDebounce : Nat
  deriving Inhabited, Repr

/-- What a tick reports. -/
structure Signals where
  /-- Whether changes are queued for synchronisation. -/
  sync : Bool
  /-- The roots under which files changed. -/
  vcs : List String
  deriving Inhabited

/-- The state of the event pipeline. -/
structure Pipeline where
  /-- Tracked document files of every root. -/
  index : IndexSet
  /-- Titles waiting to be loaded or deleted. -/
  queue : ChangeQueue
  /-- Paths excluded for now, by the program's own writes. -/
  exclusions : Exclusions
  /-- The rules of each watched root, keyed by the root. -/
  rules : List (String × RootRules) := []
  /-- Removed files waiting out their grace period. -/
  pendingDeletes : Debouncer
  /-- The sync timer, under the empty key. -/
  syncTimer : Debouncer
  /-- The timers of the roots. -/
  vcsTimers : Debouncer
  /-- Whether queued changes keep the fields read. -/
  cacheFields : Bool
  /-- Whether an event came whose path its root's ignore rules cannot judge. The program stops
  at such an event, so nothing a halted pipeline does afterwards counts. -/
  halted : Bool := false
  deriving Inhabited

namespace Pipeline

/-- A pipeline over an index, a queue and exclusions, with no roots. -/
def new (index : IndexSet) (queue : ChangeQueue) (exclusions : Exclusions) (timing : Timing)
    (cacheFields : Bool) : Pipeline :=
  { index, queue, exclusions, cacheFields
    pendingDeletes := .new timing.deleteGrace
    syncTimer := .new timing.syncDebounce
    vcsTimers := .new timing.vcsDebounce }

/-- Start handling events under a root. A root already handled keeps its key as first written and
takes the new rules. -/
def addRoot (p : Pipeline) (r : RootRules) : Pipeline :=
  let root := r.root
  { p with
    index := (p.index.registerRoot root).1
    rules :=
      if p.rules.any (fun e => Path.same e.1 root) then
        p.rules.map fun e => if Path.same e.1 root then (e.1, r) else e
      else p.rules ++ [(root, r)] }

/-- Stop handling events under a root, and drop what it tracks and its timers. -/
def removeRoot (p : Pipeline) (root : String) : Pipeline :=
  { p with
    rules := p.rules.filter fun e => !Path.same e.1 root
    index := (p.index.deregisterRoot root).1
    pendingDeletes := p.pendingDeletes.removeWhere fun q => Path.startsWith q root
    vcsTimers := (p.vcsTimers.remove root).1 }

/-- Replace the ignore rules of a root. -/
def updateIgnore (p : Pipeline) (root : String) (ignore : IgnoreRules) : Pipeline :=
  { p with rules := p.rules.map fun e =>
    if Path.same e.1 root then (e.1, { e.2 with ignore }) else e }

/-- The watched roots. -/
def roots (p : Pipeline) : List String :=
  p.rules.map (·.1)

/-- The rules of the root holding a path: of the roots beginning it, the deepest. -/
def rulesFor (p : Pipeline) (path : String) : Option RootRules :=
  let holding := p.rules.filter fun e => Path.startsWith path e.1
  (holding.foldl (fun best e => match best with
    | none => some e
    | some b => if (Path.components e.1).length ≥ (Path.components b.1).length then some e else some b)
    none).map (·.2)

/-- Whether rules ignore a path, asking the disk whether it is a directory; none when they
cannot judge it. -/
def ignores (r : RootRules) (d : Disk) (path : String) : Option Bool :=
  r.ignore.isIgnored path (d.isDir path)

/-- Whether rules ignore the event path or else its document file; none when they cannot judge
the first of the two that they are asked about. -/
def ignoresEither (r : RootRules) (d : Disk) (path docPath : String) : Option Bool :=
  match ignores r d path with
  | some false => ignores r d docPath
  | other => other

/-- The document file an event path concerns, or none when the event is to be dropped. Looking
up an exclusion drops it when its release has come. A path the rules cannot judge halts the
pipeline. -/
def accept (p : Pipeline) (d : Disk) (path : String) (now : Nat) : Pipeline × Option String :=
  let docPath := (primaryForSidecar path).getD path
  match p.rulesFor docPath with
  | none => (p, none)
  | some r =>
    match ignoresEither r d path docPath with
    | none => ({ p with halted := true }, none)
    | some true => (p, none)
    | some false =>
      let (x, first) := p.exclusions.isExcluded path now
      let (x, excluded) := if first then (x, true) else x.isExcluded docPath now
      let p := { p with exclusions := x }
      if excluded then (p, none) else (p, some docPath)

/-- Start the grace period of a removed file. -/
def scheduleDelete (p : Pipeline) (d : Disk) (path : String) (now : Nat) : Pipeline :=
  match p.accept d path now with
  | (p, some docPath) => { p with pendingDeletes := (p.pendingDeletes.record docPath now).1 }
  | (p, none) => p

/-- Queue the deletion of a file's titles at once; the root holding it when a title was queued. -/
def deleteNow (p : Pipeline) (d : Disk) (path : String) (now : Nat) : Pipeline × Option String :=
  match p.accept d path now with
  | (p, none) => (p, none)
  | (p, some docPath) =>
    let p := { p with pendingDeletes := (p.pendingDeletes.remove docPath).1 }
    match p.index.split docPath with
    | .error _ => (p, none)
    | .ok (root, relative) =>
      match p.index.titleAt docPath with
      | .error _ => (p, none)
      | .ok title =>
        let bundled := p.index.bundledAt docPath
        let index := (p.index.removePath docPath).1
        let change := PendingChange.deleted docPath relative
        let queue := (title :: bundled).foldl (fun q t => q.queueDeletion t change) p.queue
        ({ p with index, queue }, some root)

/-- The title a document is queued under. -/
def titleOf (fs : Fields) : String :=
  (fs.get? titleField).getD ""

/-- Track the documents read from a file and queue them; the root holding the file when anything
was queued. -/
def recordDocuments (p : Pipeline) (d : Disk) (docPath : String) (docs : List Fields) :
    Pipeline × Option String :=
  match docs with
  | [] => (p, none)
  | first :: _ =>
    let record := FileRecord.discovered docPath first (d.isFile (sidecarPath docPath))
    let titles := docs.map titleOf
    match p.index.split docPath with
    | .error _ => (p, none)
    | .ok (root, relative) =>
      let previous := p.index.bundledAt docPath
      let kind := if (p.index.recordAt? docPath).isSome then ChangeKind.change else .add
      match p.index.insert record with
      | .error _ => (p, none)
      | .ok (index, displaced) =>
        let index := index.setBundled docPath titles.tail
        let dropped := previous.filter fun t => !titles.contains t
        let queue := match displaced with
          | some old => p.queue.queueDeletion old.title (PendingChange.deleted old.absolutePath old.relativePath)
          | none => p.queue
        let queue := dropped.foldl (fun q t => q.queueDeletion t (PendingChange.deleted docPath relative)) queue
        let queue := (docs.zip titles).foldl (fun q (fs, t) =>
          q.queueModification t ⟨docPath, relative, kind, if p.cacheFields then some fs else none⟩) queue
        ({ p with index, queue }, some root)

/-- Read a created or modified file and queue its documents; the root holding it when anything
was queued. -/
def upsert (p : Pipeline) (d : Disk) (path : String) (now : Nat) : Pipeline × Option String :=
  match p.accept d path now with
  | (p, none) => (p, none)
  | (p, some docPath) =>
    let p := { p with pendingDeletes := (p.pendingDeletes.remove docPath).1 }
    match p.rulesFor docPath with
    | none => (p, none)
    | some r =>
      match d.stat docPath false with
      | .error _ => (p, none)
      | .ok (_, node) =>
        let isLink := match node with
          | .link _ => true
          | _ => false
        if isLink && r.ignoreSymlinks then (p, none)
        else if !d.isFile docPath then (p, none)
        else match readDocuments d docPath with
          | .ok docs => p.recordDocuments d docPath docs
          | .error _ => (p, none)

/-- Add a root to a list of touched roots, once. -/
def touch (touched : List String) : Option String → List String
  | some root => if touched.any (Path.same · root) then touched else touched ++ [root]
  | none => touched

/-- Restart the sync timer and the timers of the touched roots, if any. -/
def arm (p : Pipeline) (touched : List String) (now : Nat) : Pipeline :=
  if touched.isEmpty then p
  else
    { p with
      syncTimer := (p.syncTimer.record "" now).1
      vcsTimers := touched.foldl (fun t r => (t.record r now).1) p.vcsTimers }

/-- Handle one event, collecting the roots it touched. -/
def handleEvent (d : Disk) (now : Nat) (acc : Pipeline × List String) (e : RawEvent) :
    Pipeline × List String :=
  let (p, touched) := acc
  match e with
  | .created path | .modified path =>
    let (p, root) := p.upsert d path now
    (p, touch touched root)
  | .removed path => (p.scheduleDelete d path now, touched)
  | .renamed src dst =>
    let (p, r1) := p.deleteNow d src now
    let (p, r2) := p.upsert d dst now
    (p, touch (touch touched r1) r2)

/-- Handle a batch of events at time `now`. -/
def handleBatch (p : Pipeline) (d : Disk) (events : List RawEvent) (now : Nat) : Pipeline :=
  let (p, touched) := events.foldl (handleEvent d now) (p, [])
  p.arm touched now

/-- Settle a removed file whose grace period ended: read it again if it exists, delete it
otherwise. -/
def settleDelete (d : Disk) (now : Nat) (acc : Pipeline × List String) (path : String) :
    Pipeline × List String :=
  let (p, touched) := acc
  let (p, root) := if d.isFile path then p.upsert d path now else p.deleteNow d path now
  (p, touch touched root)

/-- Fire the timers whose deadlines have come at `now`. -/
def tick (p : Pipeline) (d : Disk) (now : Nat) : Pipeline × Signals :=
  let p := { p with exclusions := p.exclusions.purgeExpired now }
  let (pendingDeletes, due) := p.pendingDeletes.takeReady now
  let p := { p with pendingDeletes }
  let (p, touched) := due.foldl (settleDelete d now) (p, [])
  let p := p.arm touched now
  let (syncTimer, syncDue) := p.syncTimer.takeReady now
  let (vcsTimers, vcsDue) := p.vcsTimers.takeReady now
  ({ p with syncTimer, vcsTimers }, ⟨!syncDue.isEmpty, vcsDue⟩)

/-- The earliest deadline of any timer. -/
def nextDeadline (p : Pipeline) : Option Nat :=
  [p.pendingDeletes.nextDeadline, p.syncTimer.nextDeadline, p.vcsTimers.nextDeadline].foldl
    (fun m t => match m, t with
      | some a, some b => some (min a b)
      | none, t => t
      | m, none => m) none

/-- The number of removed files waiting out their grace period. -/
def pendingDeleteCount (p : Pipeline) : Nat :=
  p.pendingDeletes.count

/-- Cancel every timer. -/
def cancelAll (p : Pipeline) : Pipeline :=
  { p with
    pendingDeletes := p.pendingDeletes.clear
    syncTimer := p.syncTimer.clear
    vcsTimers := p.vcsTimers.clear }

end Pipeline

end WikiSync
