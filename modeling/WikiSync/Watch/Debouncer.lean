import WikiSync.Path

/-!
# Debounced timers

A debouncer holds keys with deadlines on a clock of milliseconds. Recording a key sets its
deadline to the current time plus the debounce duration, pushing back an earlier one; keys whose
deadline has come are taken out together. Keys are paths, compared by their components.
-/

namespace WikiSync

/-- Keys waiting for their deadlines. -/
structure Debouncer where
  /-- How long a key waits after its last activity. -/
  duration : Nat
  /-- Each pending key with its deadline; keys are pairwise different. -/
  pending : List (String × Nat) := []
  deriving Inhabited

namespace Debouncer

/-- A debouncer with nothing pending. -/
def new (duration : Nat) : Debouncer := ⟨duration, []⟩

/-- Whether a key is pending. -/
def isPending (d : Debouncer) (k : String) : Bool :=
  d.pending.any fun e => Path.same e.1 k

/-- Record activity for a key at time `now`; whether it was pending already. -/
def record (d : Debouncer) (k : String) (now : Nat) : Debouncer × Bool :=
  let was := d.isPending k
  let pending := if was then d.pending.map fun e => if Path.same e.1 k then (e.1, now + d.duration) else e
    else d.pending ++ [(k, now + d.duration)]
  ({ d with pending }, was)

/-- Cancel a key; whether it was pending. -/
def remove (d : Debouncer) (k : String) : Debouncer × Bool :=
  ({ d with pending := d.pending.filter fun e => !Path.same e.1 k }, d.isPending k)

/-- Cancel every key that satisfies a test. -/
def removeWhere (d : Debouncer) (p : String → Bool) : Debouncer :=
  { d with pending := d.pending.filter fun e => !p e.1 }

/-- Take out the keys whose deadline is at or before `now`. -/
def takeReady (d : Debouncer) (now : Nat) : Debouncer × List String :=
  ({ d with pending := d.pending.filter fun e => now < e.2 },
    (d.pending.filter fun e => e.2 ≤ now).map (·.1))

/-- The earliest deadline. -/
def nextDeadline (d : Debouncer) : Option Nat :=
  d.pending.foldl (fun m e => match m with
    | none => some e.2
    | some x => some (min x e.2)) none

/-- The number of pending keys. -/
def count (d : Debouncer) : Nat :=
  d.pending.length

/-- Cancel everything. -/
def clear (d : Debouncer) : Debouncer :=
  { d with pending := [] }

end Debouncer

end WikiSync
