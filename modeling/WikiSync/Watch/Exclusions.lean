import WikiSync.Path

/-!
# Exclusions

Paths the library is writing or deleting itself are excluded, so that the watcher does not take
its own changes for outside edits. An excluded path stays excluded until a release is scheduled,
and then until the release time comes: at that time it is included again. Excluding a path again
cancels its scheduled release; scheduling a release for a path that is not excluded does nothing.
Looking up a path whose release has come drops its entry.
-/

namespace WikiSync

/-- Excluded paths with their release times. -/
structure Exclusions where
  /-- The delay between a write and the release of its path. -/
  inclusionDelay : Nat
  /-- Each excluded path with its release time, if one is scheduled. -/
  entries : List (String × Option Nat) := []
  deriving Inhabited

namespace Exclusions

/-- No path excluded. -/
def new (delay : Nat) : Exclusions := ⟨delay, []⟩

/-- The entry of a path. -/
def entry? (x : Exclusions) (p : String) : Option (Option Nat) :=
  (x.entries.find? fun e => Path.same e.1 p).map (·.2)

/-- Exclude a path until a release is scheduled. -/
def exclude (x : Exclusions) (p : String) : Exclusions :=
  if x.entries.any (fun e => Path.same e.1 p) then
    { x with entries := x.entries.map fun e => if Path.same e.1 p then (e.1, none) else e }
  else { x with entries := x.entries ++ [(p, none)] }

/-- Release an excluded path at time `release`. -/
def scheduleInclusionAt (x : Exclusions) (p : String) (release : Nat) : Exclusions :=
  { x with entries := x.entries.map fun e => if Path.same e.1 p then (e.1, some release) else e }

/-- Release an excluded path after the inclusion delay from `now`. -/
def scheduleInclusion (x : Exclusions) (p : String) (now : Nat) : Exclusions :=
  x.scheduleInclusionAt p (now + x.inclusionDelay)

/-- Whether a path is excluded at `now`: excluded with no release, or with a later one. -/
def excludedAt (x : Exclusions) (p : String) (now : Nat) : Bool :=
  match x.entry? p with
  | some none => true
  | some (some release) => now < release
  | none => false

/-- Whether a path is excluded at `now`; an entry whose release has come is dropped. -/
def isExcluded (x : Exclusions) (p : String) (now : Nat) : Exclusions × Bool :=
  match x.entry? p with
  | some (some release) =>
    if now < release then (x, true)
    else ({ x with entries := x.entries.filter fun e => !Path.same e.1 p }, false)
  | some none => (x, true)
  | none => (x, false)

/-- Drop every entry whose release has come. -/
def purgeExpired (x : Exclusions) (now : Nat) : Exclusions :=
  { x with entries := x.entries.filter fun e => match e.2 with
    | none => true
    | some release => now < release }

/-- The number of entries. -/
def len (x : Exclusions) : Nat :=
  x.entries.length

/-- Drop every entry. -/
def clear (x : Exclusions) : Exclusions :=
  { x with entries := [] }

end Exclusions

end WikiSync
