import WikiSync.Watch.Watcher
import WikiSync.Proofs.Watch.Echo

/-!
# Timing of echo suppression

The library excludes a path before writing it and schedules its release once the write is done:
the path is let back in an inclusion delay after that moment. The watcher loop handles the
events it receives in batches, a batch being handled one batch window after its first event
opened it. So an event that a write causes is held back when its batch is handled before the
release, which the settings see to by keeping the inclusion delay longer than the batch window.

The settings count in 64-bit words. When the configured delay is not longer than the window,
the window plus fifty milliseconds stands in; that sum wraps round when the window is within
fifty of the largest word, and then the delay is shorter than the window
(`batchWindow_lt_inclusionDelay_iff`). Everywhere else an event delivered no later than the
moment the release was scheduled is handled while its path is still excluded, and the batch
queues nothing about that path (`delivered_write_events_held_back`).
-/

namespace WikiSync

namespace WatchConfig

/-- The inclusion delay of a configuration whose delay is longer than its window is that
delay. -/
theorem inclusionDelay_of_gt (w : WatchConfig) (h : w.batchWindowMs < w.inclusionDelayMs) :
    w.inclusionDelay = w.inclusionDelayMs := by
  simp [inclusionDelay, h]

/-- Otherwise it is the window plus fifty, in 64-bit words. -/
theorem inclusionDelay_of_le (w : WatchConfig) (h : w.inclusionDelayMs ≤ w.batchWindowMs) :
    w.inclusionDelay = (w.batchWindowMs + 50) % 18446744073709551616 := by
  simp [inclusionDelay, Nat.not_lt.mpr h]

/-- The inclusion delay of 64-bit settings outlasts the batch window exactly when the configured
delay does, or the window plus fifty stays below the top of the word. -/
theorem batchWindow_lt_inclusionDelay_iff (w : WatchConfig)
    (hb : w.batchWindowMs < 18446744073709551616) :
    w.batchWindowMs < w.inclusionDelay ↔
      w.batchWindowMs < w.inclusionDelayMs ∨ w.batchWindowMs + 50 < 18446744073709551616 := by
  by_cases h : w.batchWindowMs < w.inclusionDelayMs
  · rw [inclusionDelay_of_gt w h]
    exact ⟨fun _ => .inl h, fun _ => h⟩
  · rw [inclusionDelay_of_le w (Nat.not_lt.mp h)]
    -- the sum is below two words, so the remainder takes off at most one word
    constructor
    · intro hlt
      refine .inr ?_
      omega
    · rintro (hlt | hfit)
      · exact absurd hlt h
      · omega

end WatchConfig

namespace Watcher

/-- Events received by a running loop join the open batch, or open one due a batch window
from now. -/
theorem receive_batch (w : Watcher) {events : List RawEvent} (hend : w.ended = false)
    (hne : events ≠ []) :
    (w.receive events).batch = w.batch ++ events ∧
      (w.receive events).batchDeadline = some (w.batchDeadline.getD (w.now + w.batchWindow)) ∧
      (w.receive events).pipeline = w.pipeline ∧ (w.receive events).now = w.now := by
  have hempty : events.isEmpty = false := by
    cases events with
    | nil => exact absurd rfl hne
    | cons _ _ => rfl
  simp [receive, hend, hempty]

/-- A batch open since no later than a batch window before now stays so once more events join
it: the events received now are handled a batch window from now at the latest. -/
theorem receive_due_within_window (w : Watcher) {events : List RawEvent} (hend : w.ended = false)
    (hne : events ≠ []) (hopen : ∀ due, w.batchDeadline = some due → due ≤ w.now + w.batchWindow) :
    ∃ due, (w.receive events).batchDeadline = some due ∧ due ≤ w.now + w.batchWindow := by
  obtain ⟨-, hdue, -⟩ := w.receive_batch hend hne
  refine ⟨_, hdue, ?_⟩
  cases h : w.batchDeadline with
  | none => exact Nat.le_refl _
  | some due => exact hopen due h

/-- Passing signals on leaves the pipeline alone. -/
theorem dispatch_pipeline (w : Watcher) (s : Signals) : (w.dispatch s).pipeline = w.pipeline := by
  unfold dispatch
  split <;> dsimp only <;> split <;> rfl

/-- Waking at the deadline of the open batch handles the batch then, and then fires the
pipeline's timers. -/
theorem wake_at_deadline (w : Watcher) (d : Disk) {due : Nat} (hdue : w.batchDeadline = some due) :
    (w.wake d due).pipeline = ((w.pipeline.handleBatch d w.batch due).tick d due).1 := by
  rw [wake, dispatch_pipeline]
  simp [hdue]

end Watcher

/-- A path whose release is still to come is excluded. -/
theorem Exclusions.excludedAt_of_release {x : Exclusions} {p : String} {release now : Nat}
    (hx : x.entry? p = some (some release)) (hnow : now < release) : x.excludedAt p now = true := by
  simp [Exclusions.excludedAt, hx, hnow]

/-- Echo suppression is timely. Take 64-bit watch settings whose window is not within fifty of
the top of the word, unless their delay is longer than the window. Let a path's release have been
scheduled at `r`, so that it comes an inclusion delay after `r`, and let a running loop whose open
batch came due within a batch window receive events at a moment no later than `r`. Then the
batch holding them comes due before the release, while the path is still excluded; waking then
handles the batch at that moment; echo suppression holds for that batch: the steps of events
about the path change nothing but the exclusions, and every change the batch queues is about a
path not excluded then; so the batch queues nothing about the path. -/
theorem delivered_write_events_held_back (c : WatchConfig) (hb : c.batchWindowMs < 18446744073709551616)
    (hfit : c.batchWindowMs < c.inclusionDelayMs ∨ c.batchWindowMs + 50 < 18446744073709551616)
    (w : Watcher) (hw : w.batchWindow = c.batchWindowMs) (hend : w.ended = false)
    (hopen : ∀ due, w.batchDeadline = some due → due ≤ w.now + w.batchWindow)
    {p : String} {r : Nat} (hx : w.pipeline.exclusions.entry? p = some (some (r + c.inclusionDelay)))
    (hnow : w.now ≤ r) (hP : w.pipeline.index.Placed) {events : List RawEvent} (hne : events ≠ [])
    (d : Disk) :
    ∃ due, (w.receive events).batchDeadline = some due ∧ due < r + c.inclusionDelay ∧
      w.pipeline.exclusions.excludedAt p due = true ∧
      ((w.receive events).wake d due).pipeline =
        ((w.pipeline.handleBatch d (w.batch ++ events) due).tick d due).1 ∧
      w.pipeline.EchoSuppressed d (w.batch ++ events) due ∧
      ChangeQueue.Adds w.pipeline.queue (w.pipeline.handleBatch d (w.batch ++ events) due).queue
        (fun ch => Path.components ch.absolutePath ≠ Path.components p) := by
  have hdelay : c.batchWindowMs < c.inclusionDelay := (c.batchWindow_lt_inclusionDelay_iff hb).mpr hfit
  obtain ⟨due, hdue, hwithin⟩ := w.receive_due_within_window hend hne hopen
  obtain ⟨hbatch, -, hpipe, -⟩ := w.receive_batch hend hne
  have hbefore : due < r + c.inclusionDelay := by omega
  have hexcluded := Exclusions.excludedAt_of_release hx hbefore
  have hechoed : w.pipeline.EchoSuppressed d (w.batch ++ events) due :=
    .of_queues (Pipeline.handleBatch_queue _ d _ due hP).2 (Pipeline.tick_queue _ d due hP).2
  refine ⟨due, hdue, hbefore, hexcluded, ?_, hechoed, hechoed.batch_queues.mono fun ch hch hsame => ?_⟩
  · rw [Watcher.wake_at_deadline _ d hdue, hbatch, hpipe]
  · rw [Exclusions.excludedAt_congr _ hsame, hexcluded] at hch
    cases hch


/-- A loop with default settings and no batch open, at time zero, whose pipeline excludes a
note with its release scheduled at 100 under the default delay of 250 milliseconds. -/
def excludedNoteWatcher : Watcher where
  pipeline := Pipeline.new {} {} ⟨250, [("/w/a.tid", some 350)]⟩ ⟨100, 200, 1000⟩ true
  factory := .notify
  initialRoots := []
  batchWindow := 100
  vcsOnlyWhenViewOpen := true

/-- A modification of the note delivered at time zero is handled at 100, while the note is
excluded until 350, and its batch queues nothing about the note. -/
theorem excluded_note_event_held_back :
    excludedNoteWatcher.pipeline.exclusions.entry? "/w/a.tid" =
        some (some (100 + ({} : WatchConfig).inclusionDelay)) ∧
      ∃ due, (excludedNoteWatcher.receive [.modified "/w/a.tid"]).batchDeadline = some due ∧
        due < 100 + ({} : WatchConfig).inclusionDelay ∧
        excludedNoteWatcher.pipeline.exclusions.excludedAt "/w/a.tid" due = true ∧
        ((excludedNoteWatcher.receive [.modified "/w/a.tid"]).wake default due).pipeline =
          ((excludedNoteWatcher.pipeline.handleBatch default
            (excludedNoteWatcher.batch ++ [.modified "/w/a.tid"]) due).tick default due).1 ∧
        excludedNoteWatcher.pipeline.EchoSuppressed default
          (excludedNoteWatcher.batch ++ [.modified "/w/a.tid"]) due ∧
        ChangeQueue.Adds excludedNoteWatcher.pipeline.queue
          (excludedNoteWatcher.pipeline.handleBatch default
            (excludedNoteWatcher.batch ++ [.modified "/w/a.tid"]) due).queue
          (fun ch => Path.components ch.absolutePath ≠ Path.components "/w/a.tid") := by
  have hentry : excludedNoteWatcher.pipeline.exclusions.entry? "/w/a.tid" =
      some (some (100 + ({} : WatchConfig).inclusionDelay)) := by
    simp [excludedNoteWatcher, Pipeline.new, Exclusions.entry?, Path.same,
      WatchConfig.inclusionDelay]
  have hP : excludedNoteWatcher.pipeline.index.Placed := fun ix hix => by cases hix
  exact ⟨hentry, delivered_write_events_held_back {} (by decide) (.inl (by decide))
    excludedNoteWatcher rfl rfl (fun due h => by cases h) hentry (by decide) hP
    (List.cons_ne_nil _ _) default⟩

end WikiSync
