import WikiSync.Sync.Error
import WikiSync.Config.Settings
import WikiSync.Sync.FileStore
import WikiSync.Route.Basic
import WikiSync.Index.IndexSet
import WikiSync.Watch.Exclusions

/-!
# Persisting documents

The adaptor writes documents to their backing files and deletes them, keeping the index and the
watcher's exclusions in step with what it did.

Saving a document encodes it, asks the router for its path (keeping the current one when it
still fits), and excludes the paths about to be written from the watcher until a delay after
the write. Each file is written with retries: a transient failure is tried again until the
attempts run out. A failed save raises an alert and leaves the old files alone; a successful one
removes the old backing files not written again, then tracks the new record, registering its
route's root in the index when no root holds it.

Deleting a title removes its backing files. A file already gone counts as removed; a removal
that is refused raises an alert and keeps the title tracked; any other failure stops the delete.
-/

namespace WikiSync

/-!
## Alerts

When persisting a document fails, the user is told with an alert: the title the failure
concerns, the message and how many attempts were made. An alert can be shown as a document of
its own, titled under `alerts/sync/`, tagged `Alert`, with the message as its text.
-/

/-- The title prefix of alert documents. -/
def alertTitlePrefix : String := "alerts/sync/"

/-- The tag of alert documents. -/
def alertTag : String := "Alert"

/-- A failure to persist a document, for the user. -/
structure Alert where
  /-- The title of the document the failure concerns. -/
  subject : String
  /-- What went wrong. -/
  message : String
  /-- How many attempts were made. -/
  attempts : Nat
  /-- What makes the alert's own title unique. -/
  stamp : String := ""
  deriving Inhabited

/-- The alert as a document. -/
def Alert.toDocument (a : Alert) : Document :=
  ((((Document.new (alertTitlePrefix ++ a.stamp)).withTags [alertTag]).set "component" "sync").set
    "subject" a.subject |>.set "attempts" (toString a.attempts)).set textField a.message

/-!
## The adaptor
-/

/-- The state of the adaptor and what it shares. -/
structure Adaptor where
  /-- Tracked document files. -/
  index : IndexSet
  /-- Where documents go. -/
  router : Router
  /-- Where files are written. -/
  store : FileStore
  /-- Paths the watcher must not report, shared with it. -/
  exclusions : Exclusions
  /-- Alerts raised and not yet taken. -/
  alerts : List Alert := []
  /-- Alerts raised so far, for unique alert titles. -/
  raised : Nat := 0
  /-- How writes are retried. -/
  retry : RetryPolicy
  /-- The current time, in milliseconds. -/
  now : Nat := 0
  deriving Inhabited

namespace Adaptor

/-- Raise an alert. -/
def raise (a : Adaptor) (subject message : String) (attempts : Nat) : Adaptor :=
  { a with
    alerts := a.alerts ++ [⟨subject, message, attempts, toString a.raised⟩]
    raised := a.raised + 1 }

/-- Exclude paths from the watcher. -/
def exclude (a : Adaptor) (paths : List String) : Adaptor :=
  { a with exclusions := paths.foldl Exclusions.exclude a.exclusions }

/-- Let the watcher see paths again after the inclusion delay. -/
def release (a : Adaptor) (paths : List String) : Adaptor :=
  { a with exclusions := paths.foldl (fun x p => x.scheduleInclusion p a.now) a.exclusions }

/-- Write one file, retrying transient failures; the number of attempts on success. The first
write is always made; after `attempt` earlier writes, a transient failure is retried while
`retries` more are allowed, so that at most `maxAttempts` writes are made in all. -/
def writeWithRetry (a : Adaptor) (title path contents : String) : Adaptor × Except SyncError Nat :=
  let rec go (s : FileStore) (attempt retries : Nat) : FileStore × Except SyncError Nat :=
    let (s, r) := s.write path contents
    match r with
    | .ok () => (s, .ok (attempt + 1))
    | .error e =>
      if e.kind.isTransient then
        match retries with
        | retries + 1 => go s (attempt + 1) retries
        | 0 => (s, .error (.retriesExhausted title path (attempt + 1) e))
      else (s, .error (.write title path (attempt + 1) e))
  let (s, r) := go a.store 0 (a.retry.maxAttempts - 1)
  ({ a with store := s }, r)

/-- Write a document's files: the primary file, then its sidecar. -/
def writeAll (a : Adaptor) (title target : String) (enc : Encoded) : Adaptor × Except SyncError Unit :=
  match a.writeWithRetry title target enc.content with
  | (a, .error e) => (a, .error e)
  | (a, .ok _) =>
    match enc.sidecar with
    | none => (a, .ok ())
    | some note =>
      match a.writeWithRetry title (sidecarPath target) note with
      | (a, .error e) => (a, .error e)
      | (a, .ok _) => (a, .ok ())

/-- Remove old backing files, ignoring failures. -/
def removeStale (a : Adaptor) (stale : List String) : Adaptor :=
  let a := stale.foldl (fun a p =>
    let a := a.exclude [p]
    { a with store := (a.store.remove p).1 }) a
  a.release stale

/-- Whether a candidate path is taken for a title: it is not the current file, and it holds
another title or exists on disk. -/
def isTaken (a : Adaptor) (title : String) (current : Option FileRecord) (candidate : String) : Bool :=
  if current.any (fun c => Path.same c.absolutePath candidate) then false
  else match a.index.recordAt? candidate with
    | some r => r.title != title
    | none => a.store.pathExists candidate

/-- Persist a document; the record now tracking it. -/
def save (a : Adaptor) (d : Document) : Adaptor × Except SyncError FileRecord :=
  let title := d.title
  let enc := encode d
  let current := a.index.recordForTitle? title
  let bound := a.store.disk.nodes.length + a.index.len + 1
  let (router, target) := a.router.targetPath d current enc.extension (a.isTaken title current) bound
  let a := { a with router }
  let written := if enc.sidecar.isSome then [target, sidecarPath target] else [target]
  let a := a.exclude written
  match a.writeAll title target enc with
  | (a, .error e) =>
    let a := a.release written
    (a.raise title e.message (e.attempts.getD 1), .error e)
  | (a, .ok ()) =>
    let a := match current with
      | some old => a.removeStale (old.backingFiles.filter fun p => !written.any (Path.same · p))
      | none => a
    let record : FileRecord := ⟨"", target, title, enc.contentType, enc.sidecar.isSome, d.isEditable⟩
    let index := if (a.index.owningRoot? target).isNone then
        (a.index.registerRoot (a.router.resolve d).rootDirectory).1
      else a.index
    let (index, stored) := match index.insert record with
      | .ok (index, _) => match index.recordForTitle? title with
        | some r => (index, .ok r)
        | none => (index, .error (.index (.notFound target)))
      | .error e => (index, .error (.index e))
    let a := { a with index }
    (a.release written, stored)

/-- Remove the backing files of a title, one by one. -/
def removeAll (title : String) :
    Adaptor → Bool → List String → Adaptor × Except SyncError Bool
  | a, denied, [] => (a, .ok denied)
  | a, denied, p :: rest =>
    let (store, r) := a.store.remove p
    let a := { a with store }
    match r with
    | .ok () => removeAll title a denied rest
    | .error e =>
      if e.kind == .notFound then removeAll title a denied rest
      else if e.kind == .permissionDenied then
        removeAll title (a.raise title ("Cannot delete " ++ p ++ ": " ++ e.message) 1) true rest
      else (a, .error (.delete title p e))

/-- Delete a title's backing files and stop tracking it. -/
def delete (a : Adaptor) (title : String) : Adaptor × Except SyncError Unit :=
  match a.index.recordForTitle? title with
  | none => ({ a with router := a.router.forget title }, .ok ())
  | some record =>
    let files := record.backingFiles
    let a := a.exclude files
    match removeAll title a false files with
    | (a, .error e) => (a.release files, .error e)
    | (a, .ok denied) =>
      let a := a.release files
      if denied then (a, .ok ())
      else ({ a with index := (a.index.removeTitle title).1, router := a.router.forget title }, .ok ())

/-- Take the alerts raised since they were last taken. -/
def takeAlerts (a : Adaptor) : Adaptor × List Alert :=
  ({ a with alerts := [] }, a.alerts)

end Adaptor

end WikiSync
