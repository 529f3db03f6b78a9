import WikiSync.Watch.Event
import WikiSync.Watch.IgnoreRules
import WikiSync.Watch.Error
import WikiSync.Disk.Basic

/-!
# File notifications

What the platform's file notifications report for each change to the files below a watched
root. A new file is reported created, and also modified when something was written into it; a
file written again is reported modified, since opening it truncates it. A new directory or link
is created, a removed entry removed, and a touched file modified. A move within the root is
reported three ways: the old path removed, the new path created, and the pair renamed; a move
across the root's edge is reported only on the side inside it. Removing a directory reports
every entry below it as well.

A notification source watches one root. It applies ignore rules of its own before passing
events on, and drops an event when every path in it is ignored; whether a path is a directory
is asked of the files as they are after the change.
-/

namespace WikiSync

/-- A change made to the files. -/
inductive FileChange where
  /-- A file written, whether it is new, and whether anything was written into it. -/
  | wrote (path : String) (isNew nonEmpty : Bool)
  /-- A directory made. -/
  | madeDir (path : String)
  /-- An entry removed. -/
  | removed (path : String)
  /-- An entry moved. -/
  | moved (src dst : String)
  /-- A link made. -/
  | linked (path : String)
  /-- A file's times changed. -/
  | touched (path : String)
  deriving Inhabited

/-- Whether a change a step meant to make happened all the same when the step failed part
way: a directory that exists now and did not before, or an entry that is gone. -/
def FileChange.tookEffect (before after : Disk) : FileChange → Bool
  | .madeDir p => after.isDir p && !before.holds p
  | .removed p => before.holds p && !after.holds p
  | _ => false

/-- The events reported for a change below a root. -/
def FileChange.events (root : String) (c : FileChange) : List RawEvent :=
  let inside (p : String) : Bool := Path.startsWith p root
  match c with
  | .wrote p isNew nonEmpty =>
    if !inside p then []
    else if isNew then .created p :: (if nonEmpty then [.modified p] else [])
    else [.modified p]
  | .madeDir p | .linked p => if inside p then [.created p] else []
  | .removed p => if inside p then [.removed p] else []
  | .touched p => if inside p then [.modified p] else []
  | .moved src dst =>
    match inside src, inside dst with
    | true, true => [.removed src, .created dst, .renamed src dst]
    | true, false => [.removed src]
    | false, true => [.created dst]
    | false, false => []

/-- A source of file notifications for one root. -/
structure NotifySource where
  /-- The root it was last asked to watch. -/
  root : Option String := none
  /-- Its ignore patterns. -/
  patterns : List String := []
  /-- Its ignore rules, once it has a root. -/
  rules : Option IgnoreRules := none
  /-- The root being watched, while a watch is on. -/
  watching : Option String := none
  deriving Inhabited

namespace NotifySource

/-- Compile the ignore patterns for the root, when there is one. -/
def rebuild (s : NotifySource) : Except WatchError NotifySource :=
  match s.root with
  | some root => do pure { s with rules := some (← IgnoreRules.new root s.patterns) }
  | none => .ok s

/-- Replace the ignore patterns; they are compiled only once the source has a root. -/
def updateExclusions (s : NotifySource) (patterns : List String) :
    NotifySource × Except WatchError Unit :=
  let s := { s with patterns }
  match s.rebuild with
  | .ok s' => (s', .ok ())
  | .error e => (s, .error e)

/-- Start watching a root; the root is kept even when the watch cannot start. -/
def start (s : NotifySource) (d : Disk) (root : String) : NotifySource × Except WatchError Unit :=
  let s := { s with root := some root }
  match s.rebuild with
  | .error e => (s, .error e)
  | .ok s =>
    if d.pathExists root then ({ s with watching := some root }, .ok ())
    else (s, .error (.pathWatchFailed root "No path was found."))

/-- Stop watching. -/
def stop (s : NotifySource) : NotifySource :=
  { s with watching := none }

/-- Whether the rules ignore a path. -/
def ignores (s : NotifySource) (d : Disk) (p : String) : Bool :=
  match s.rules with
  | some r => (r.isIgnored p (d.isDir p)).getD false
  | none => false

/-- The events passed on for a change, given the files after it. -/
def deliver (s : NotifySource) (d : Disk) (c : FileChange) : List RawEvent :=
  match s.watching with
  | none => []
  | some root => (c.events root).filter fun e => !e.paths.all (s.ignores d)

end NotifySource

end WikiSync
