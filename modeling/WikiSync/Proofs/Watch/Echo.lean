import WikiSync.Watch.Pipeline
import WikiSync.Proofs.Index.Placement
import WikiSync.Proofs.Watch.Queue

/-!
# Echo suppression

The library excludes the paths it writes itself, so that the watcher does not read its own
writes back as outside edits. This module shows that the pipeline honours exclusions on every
path it is told about (`echo_suppressed`).

A batch of events is handled one path at a time (`RawEvent.steps`, `handleBatch_eq_steps`), and
a tick settles the due deletions one at a time (`tick_fst`). A step whose path, or the document
file it concerns, is excluded at the current time changes nothing but the exclusions and the
halt flag, and touches no root (`runStep_blocked`, `settleDelete_blocked`). Looking paths up
leaves every path excluded or not as it was, so what the exclusions held back when a batch or a
tick began is still held back at its turn (`foldl_runStep_blocked`,
`foldl_settleDelete_blocked`).

The changes a step queues are about the document file it accepted, which the exclusions admit,
or about the record that file displaced from the index. That record lies at the same path when
the index is placed (`IndexSet.insert_displaced`), and every step keeps the index placed; so
every change a batch or a tick queues is about a path not excluded at its time
(`handleBatch_queue`, `tick_queue`).
-/

namespace WikiSync

namespace Exclusions

/-- The entry of a path is the first whose key names the same path. -/
theorem entry?_eq_lookupKey (x : Exclusions) (p : String) :
    x.entry? p = lookupKey x.entries (Path.components p) :=
  find?_same x.entries p

/-- Looking a path up answers whether it is excluded. -/
theorem isExcluded_snd (x : Exclusions) (p : String) (now : Nat) :
    (x.isExcluded p now).2 = x.excludedAt p now := by
  unfold isExcluded excludedAt
  cases h : x.entry? p with
  | none => rfl
  | some r =>
    cases r with
    | none => rfl
    | some release => by_cases hr : now < release <;> simp [hr]

/-- Looking a path up, which may drop an entry whose release has come, leaves every path's
answer at the same time as it was. -/
theorem excludedAt_isExcluded (x : Exclusions) (p q : String) (now : Nat) :
    (x.isExcluded p now).1.excludedAt q now = x.excludedAt q now := by
  unfold isExcluded
  split
  · rename_i release hp
    split
    · rfl
    · rename_i hlate
      have herase : x.entries.filter (fun e => !Path.same e.1 p) = FileIndex.eraseKey x.entries p :=
        rfl
      unfold excludedAt
      rw [entry?_eq_lookupKey, entry?_eq_lookupKey]
      simp only [herase, lookupKey_eraseKey]
      by_cases hq : Path.components q = Path.components p
      · rw [entry?_eq_lookupKey] at hp
        simp [hq, hp, hlate]
      · simp [hq]
  all_goals rfl

/-- Whether an entry's release is still to come at `now`: the entries that stay excluded. -/
theorem excludedAt_eq (x : Exclusions) (q : String) (now : Nat) :
    x.excludedAt q now = ((lookupKey x.entries (Path.components q)).map fun r => match r with
      | none => true
      | some release => decide (now < release)).getD false := by
  unfold excludedAt
  rw [entry?_eq_lookupKey]
  cases lookupKey x.entries (Path.components q) with
  | none => rfl
  | some r => cases r <;> rfl

/-- Looking a path up leaves every path with other components excluded or not, at any time, as
it was: only the looked-up path's entry can be dropped. -/
theorem excludedAt_isExcluded_of_ne (x : Exclusions) {p q : String}
    (h : Path.components q ≠ Path.components p) (now later : Nat) :
    (x.isExcluded p now).1.excludedAt q later = x.excludedAt q later := by
  unfold isExcluded
  split
  · split
    · rfl
    · have herase : x.entries.filter (fun e => !Path.same e.1 p) =
          FileIndex.eraseKey x.entries p := rfl
      rw [excludedAt_eq, excludedAt_eq]
      simp only [herase, lookupKey_eraseKey, h, if_false]
  all_goals rfl

/-- Dropping released entries keeps every path excluded that was. -/
theorem excludedAt_purgeExpired (x : Exclusions) (q : String) (now : Nat)
    (h : x.excludedAt q now = true) : (x.purgeExpired now).excludedAt q now = true := by
  rw [excludedAt_eq] at h ⊢
  cases hv : lookupKey x.entries (Path.components q) with
  | none => simp [hv] at h
  | some v =>
    simp only [hv, Option.map_some, Option.getD_some] at h
    have hkeep : lookupKey (x.purgeExpired now).entries (Path.components q) = some v :=
      lookupKey_filter_snd x.entries (fun r => match r with
        | none => true
        | some release => decide (now < release)) _ v hv h
    rw [hkeep]
    exact h

/-- Whether a path is excluded depends only on its components. -/
theorem excludedAt_congr (x : Exclusions) {p q : String}
    (h : Path.components p = Path.components q) (now : Nat) :
    x.excludedAt p now = x.excludedAt q now := by
  rw [Exclusions.excludedAt_eq, Exclusions.excludedAt_eq, h]

/-- Whether the exclusions hold back an event path at `now`: the path itself, or the document
file it concerns, is excluded. -/
def blocks (x : Exclusions) (path : String) (now : Nat) : Bool :=
  x.excludedAt path now || x.excludedAt ((primaryForSidecar path).getD path) now

end Exclusions

/-! ## Steps of a batch -/

/-- What handling an event does, one path at a time. -/
inductive EventStep where
  /-- Read a created or modified file. -/
  | upsert (path : String)
  /-- Start the grace period of a removed file. -/
  | scheduleDelete (path : String)
  /-- Delete a file's titles at once, for the old side of a rename. -/
  | deleteNow (path : String)

/-- The path a step is about. -/
def EventStep.path : EventStep → String
  | .upsert p | .scheduleDelete p | .deleteNow p => p

/-- The steps of an event: one per path it names, the old side of a rename first. -/
def RawEvent.steps : RawEvent → List EventStep
  | .created p | .modified p => [.upsert p]
  | .removed p => [.scheduleDelete p]
  | .renamed a b => [.deleteNow a, .upsert b]

namespace Pipeline

/-- `q` is `p` with at most its exclusions and its halt flag changed: the index, the queue,
the pending deletions and everything else are as they were. -/
def OnlyExclusions (p q : Pipeline) : Prop :=
  ∃ x h, q = { p with exclusions := x, halted := h }

theorem OnlyExclusions.refl (p : Pipeline) : OnlyExclusions p p :=
  ⟨p.exclusions, p.halted, rfl⟩

theorem OnlyExclusions.trans {p q r : Pipeline} (h₁ : OnlyExclusions p q)
    (h₂ : OnlyExclusions q r) : OnlyExclusions p r := by
  obtain ⟨x, h, rfl⟩ := h₁
  obtain ⟨x', h', rfl⟩ := h₂
  exact ⟨x', h', rfl⟩

/-- Accepting an event path changes at most the exclusions and the halt flag. -/
theorem accept_only (p : Pipeline) (d : Disk) (path : String) (now : Nat) :
    OnlyExclusions p (p.accept d path now).1 := by
  dsimp only [accept]
  repeat' split
  all_goals exact ⟨_, _, rfl⟩

/-- Accepting an event path leaves every path excluded or not as it was. -/
theorem excludedAt_accept (p : Pipeline) (d : Disk) (path q : String) (now : Nat) :
    (p.accept d path now).1.exclusions.excludedAt q now = p.exclusions.excludedAt q now := by
  dsimp only [accept]
  repeat' split
  all_goals simp_all [Exclusions.excludedAt_isExcluded]

/-- A path the exclusions hold back is dropped. -/
theorem accept_blocked (p : Pipeline) (d : Disk) (path : String) (now : Nat)
    (h : p.exclusions.blocks path now = true) : (p.accept d path now).2 = none := by
  dsimp only [accept]
  repeat' split
  all_goals simp_all [Exclusions.blocks, Exclusions.isExcluded_snd,
    Exclusions.excludedAt_isExcluded]

/-- An accepted path gives the document file it concerns, and neither is excluded. -/
theorem accept_some (p : Pipeline) (d : Disk) (path doc : String) (now : Nat)
    (h : (p.accept d path now).2 = some doc) :
    doc = (primaryForSidecar path).getD path ∧ p.exclusions.blocks path now = false := by
  dsimp only [accept] at h
  repeat' split at h
  all_goals simp_all [Exclusions.blocks, Exclusions.isExcluded_snd,
    Exclusions.excludedAt_isExcluded]

/-! ## Runs of steps

A batch and a tick both fold a step over a list. The two facts a run needs from its steps are
stated once here, for any step.
-/

section Runs

variable {α : Type} {f : Pipeline × List String → α → Pipeline × List String} {now : Nat}

/-- A run of steps, each of which leaves every path excluded or not at `now` as it was, leaves
them so. -/
theorem excludedAt_foldl
    (hf : ∀ acc a q, (f acc a).1.exclusions.excludedAt q now = acc.1.exclusions.excludedAt q now)
    (l : List α) (acc : Pipeline × List String) (q : String) :
    (l.foldl f acc).1.exclusions.excludedAt q now = acc.1.exclusions.excludedAt q now := by
  induction l generalizing acc with
  | nil => rfl
  | cons a l ih => rw [List.foldl_cons, ih, hf]

/-- A run of such steps, each of which keeps a placed index placed and queues only changes about
paths the exclusions admit at `now`, does so as a whole: what the exclusions admit does not
change along the run. -/
theorem queue_foldl
    (hf : ∀ acc a q, (f acc a).1.exclusions.excludedAt q now = acc.1.exclusions.excludedAt q now)
    (hstep : ∀ acc a, acc.1.index.Placed → (f acc a).1.index.Placed ∧
      ChangeQueue.Adds acc.1.queue (f acc a).1.queue
        (fun c => acc.1.exclusions.excludedAt c.absolutePath now = false))
    (l : List α) (acc : Pipeline × List String) (hP : acc.1.index.Placed) :
    (l.foldl f acc).1.index.Placed ∧
      ChangeQueue.Adds acc.1.queue (l.foldl f acc).1.queue
        (fun c => acc.1.exclusions.excludedAt c.absolutePath now = false) := by
  induction l generalizing acc with
  | nil => exact ⟨hP, ChangeQueue.Adds.refl _ _⟩
  | cons a l ih =>
    obtain ⟨hP₁, hadds₁⟩ := hstep acc a hP
    obtain ⟨hP₂, hadds₂⟩ := ih (f acc a) hP₁
    refine ⟨hP₂, hadds₁.trans (hadds₂.mono fun c hc => ?_)⟩
    rw [← hf acc a]
    exact hc

end Runs

/-! ## One path at a time -/

/-- Reading a file's documents into the index and the queue leaves the exclusions alone. -/
theorem recordDocuments_exclusions (p : Pipeline) (d : Disk) (doc : String) (docs : List Fields) :
    (p.recordDocuments d doc docs).1.exclusions = p.exclusions := by
  dsimp only [recordDocuments]
  repeat' split
  all_goals rfl

/-- Reading a file changes the exclusions only by looking its path up. -/
theorem upsert_exclusions (p : Pipeline) (d : Disk) (path : String) (now : Nat) :
    (p.upsert d path now).1.exclusions = (p.accept d path now).1.exclusions := by
  dsimp only [upsert]
  repeat' split
  all_goals simp_all [recordDocuments_exclusions]

/-- Deleting a file changes the exclusions only by looking its path up. -/
theorem deleteNow_exclusions (p : Pipeline) (d : Disk) (path : String) (now : Nat) :
    (p.deleteNow d path now).1.exclusions = (p.accept d path now).1.exclusions := by
  dsimp only [deleteNow]
  repeat' split
  all_goals simp_all

/-- Starting a grace period changes the exclusions only by looking the path up. -/
theorem scheduleDelete_exclusions (p : Pipeline) (d : Disk) (path : String) (now : Nat) :
    (p.scheduleDelete d path now).exclusions = (p.accept d path now).1.exclusions := by
  unfold scheduleDelete
  split <;> simp_all

/-- Accepting a held-back path gives the pipeline it looked the path up in, and no file. -/
theorem accept_eq_of_blocks (p : Pipeline) (d : Disk) (path : String) (now : Nat)
    (h : p.exclusions.blocks path now = true) :
    p.accept d path now = ((p.accept d path now).1, none) :=
  Prod.ext rfl (accept_blocked p d path now h)

/-- Reading a held-back path changes nothing but the exclusions and the halt flag, and touches
no root. -/
theorem upsert_blocked (p : Pipeline) (d : Disk) (path : String) (now : Nat)
    (h : p.exclusions.blocks path now = true) :
    OnlyExclusions p (p.upsert d path now).1 ∧ (p.upsert d path now).2 = none := by
  unfold upsert
  rw [accept_eq_of_blocks p d path now h]
  exact ⟨accept_only p d path now, rfl⟩

/-- Deleting a held-back path changes nothing but the exclusions and the halt flag, and touches
no root. -/
theorem deleteNow_blocked (p : Pipeline) (d : Disk) (path : String) (now : Nat)
    (h : p.exclusions.blocks path now = true) :
    OnlyExclusions p (p.deleteNow d path now).1 ∧ (p.deleteNow d path now).2 = none := by
  unfold deleteNow
  rw [accept_eq_of_blocks p d path now h]
  exact ⟨accept_only p d path now, rfl⟩

/-- A held-back removal starts no grace period. -/
theorem scheduleDelete_blocked (p : Pipeline) (d : Disk) (path : String) (now : Nat)
    (h : p.exclusions.blocks path now = true) :
    OnlyExclusions p (p.scheduleDelete d path now) := by
  unfold scheduleDelete
  rw [accept_eq_of_blocks p d path now h]
  exact accept_only p d path now

/-- One step of a batch, collecting the roots it touched. -/
def runStep (d : Disk) (now : Nat) : Pipeline × List String → EventStep → Pipeline × List String
  | (p, touched), .upsert path =>
    let (p, root) := p.upsert d path now
    (p, touch touched root)
  | (p, touched), .scheduleDelete path => (p.scheduleDelete d path now, touched)
  | (p, touched), .deleteNow path =>
    let (p, root) := p.deleteNow d path now
    (p, touch touched root)

/-- Handling an event is running its steps. -/
theorem handleEvent_eq_steps (d : Disk) (now : Nat) (acc : Pipeline × List String)
    (e : RawEvent) : handleEvent d now acc e = e.steps.foldl (runStep d now) acc := by
  cases e <;> rfl

/-- Handling a batch is running the steps of its events, then arming the timers of the roots
they touched. -/
theorem handleBatch_eq_steps (p : Pipeline) (d : Disk) (events : List RawEvent) (now : Nat) :
    p.handleBatch d events now =
      ((events.flatMap RawEvent.steps).foldl (runStep d now) (p, [])).1.arm
        ((events.flatMap RawEvent.steps).foldl (runStep d now) (p, [])).2 now := by
  rw [List.foldl_flatMap, handleBatch]
  simp only [← handleEvent_eq_steps]

/-- A step leaves every path excluded or not as it was. -/
theorem excludedAt_runStep (d : Disk) (now : Nat) (acc : Pipeline × List String) (s : EventStep)
    (q : String) :
    (runStep d now acc s).1.exclusions.excludedAt q now = acc.1.exclusions.excludedAt q now := by
  obtain ⟨p, touched⟩ := acc
  cases s with
  | upsert path => rw [runStep, upsert_exclusions, excludedAt_accept]
  | scheduleDelete path => rw [runStep, scheduleDelete_exclusions, excludedAt_accept]
  | deleteNow path => rw [runStep, deleteNow_exclusions, excludedAt_accept]

/-- Whether a path is held back depends only on which paths are excluded. -/
theorem blocks_congr {x y : Exclusions} {now : Nat}
    (h : ∀ q, x.excludedAt q now = y.excludedAt q now) (path : String) :
    x.blocks path now = y.blocks path now := by
  simp only [Exclusions.blocks, h]

/-- A held-back step changes nothing but the exclusions and the halt flag, and touches no root. -/
theorem runStep_blocked (d : Disk) (now : Nat) (acc : Pipeline × List String) (s : EventStep)
    (h : acc.1.exclusions.blocks s.path now = true) :
    OnlyExclusions acc.1 (runStep d now acc s).1 ∧ (runStep d now acc s).2 = acc.2 := by
  obtain ⟨p, touched⟩ := acc
  cases s with
  | upsert path =>
    obtain ⟨hp, hr⟩ := upsert_blocked p d path now h
    simp only [runStep, hr, touch]
    exact ⟨hp, trivial⟩
  | scheduleDelete path => exact ⟨scheduleDelete_blocked p d path now h, rfl⟩
  | deleteNow path =>
    obtain ⟨hp, hr⟩ := deleteNow_blocked p d path now h
    simp only [runStep, hr, touch]
    exact ⟨hp, trivial⟩

/-- In a run of steps, a step whose path the exclusions held back at the start changes nothing
but the exclusions and the halt flag when its turn comes, and touches no root: the exclusions
hold back the same paths all along. -/
theorem foldl_runStep_blocked (p : Pipeline) (d : Disk) (now : Nat) (steps : List EventStep)
    (i : Nat) (hi : i < steps.length) (h : p.exclusions.blocks steps[i].path now = true) :
    OnlyExclusions ((steps.take i).foldl (runStep d now) (p, [])).1
        (runStep d now ((steps.take i).foldl (runStep d now) (p, [])) steps[i]).1 ∧
      (runStep d now ((steps.take i).foldl (runStep d now) (p, [])) steps[i]).2 =
        ((steps.take i).foldl (runStep d now) (p, [])).2 := by
  apply runStep_blocked
  rw [blocks_congr (excludedAt_foldl (excludedAt_runStep d now) (steps.take i) (p, []))
    steps[i].path]
  exact h

/-! ## Deadlines -/

/-- Settling a due deletion leaves every path excluded or not as it was. -/
theorem excludedAt_settleDelete (d : Disk) (now : Nat) (acc : Pipeline × List String)
    (path q : String) :
    (settleDelete d now acc path).1.exclusions.excludedAt q now =
      acc.1.exclusions.excludedAt q now := by
  obtain ⟨p, touched⟩ := acc
  unfold settleDelete
  by_cases hf : d.isFile path = true
  · simp only [hf, if_true]
    rw [upsert_exclusions, excludedAt_accept]
  · simp only [hf, Bool.false_eq_true, if_false]
    rw [deleteNow_exclusions, excludedAt_accept]

/-- A held-back deletion is dropped when its grace period ends: settling it changes nothing but
the exclusions and the halt flag, and touches no root, whether the file is there or not. -/
theorem settleDelete_blocked (d : Disk) (now : Nat) (acc : Pipeline × List String) (path : String)
    (h : acc.1.exclusions.blocks path now = true) :
    OnlyExclusions acc.1 (settleDelete d now acc path).1 ∧
      (settleDelete d now acc path).2 = acc.2 := by
  obtain ⟨p, touched⟩ := acc
  unfold settleDelete
  by_cases hf : d.isFile path = true
  · obtain ⟨hp, hr⟩ := upsert_blocked p d path now h
    simp only [hf, if_true, hr, touch]
    exact ⟨hp, trivial⟩
  · obtain ⟨hp, hr⟩ := deleteNow_blocked p d path now h
    simp only [hf, Bool.false_eq_true, if_false, hr, touch]
    exact ⟨hp, trivial⟩

/-- Where a tick starts settling deletions: released exclusions dropped, and the due deletions
taken out of the pending ones. -/
def settleStart (p : Pipeline) (now : Nat) : Pipeline :=
  { p with
    exclusions := p.exclusions.purgeExpired now
    pendingDeletes := (p.pendingDeletes.takeReady now).1 }

/-- The deletions whose grace period has ended at `now`. -/
def dueDeletions (p : Pipeline) (now : Nat) : List String :=
  (p.pendingDeletes.takeReady now).2

/-- The timers due at `now` taken out, as a tick ends. -/
def fireTimers (q : Pipeline) (now : Nat) : Pipeline :=
  { q with
    syncTimer := (q.syncTimer.takeReady now).1
    vcsTimers := (q.vcsTimers.takeReady now).1 }

/-- A tick settles the due deletions from where it starts, arms the timers of the roots touched,
and takes out the timers that are due. -/
theorem tick_fst (p : Pipeline) (d : Disk) (now : Nat) :
    (p.tick d now).1 =
      (((p.dueDeletions now).foldl (settleDelete d now) (p.settleStart now, [])).1.arm
        ((p.dueDeletions now).foldl (settleDelete d now) (p.settleStart now, [])).2 now).fireTimers
        now :=
  rfl

/-- Dropping released exclusions keeps every held-back path held back. -/
theorem blocks_purgeExpired (x : Exclusions) (path : String) (now : Nat)
    (h : x.blocks path now = true) : (x.purgeExpired now).blocks path now = true := by
  unfold Exclusions.blocks at h ⊢
  rcases Bool.or_eq_true_iff.1 h with h | h
  · rw [Exclusions.excludedAt_purgeExpired x _ now h, Bool.true_or]
  · rw [Exclusions.excludedAt_purgeExpired x _ now h, Bool.or_true]

/-- In a tick, a due deletion whose path the exclusions held back when the tick began is
dropped: settling it changes nothing but the exclusions and the halt flag, and touches no
root. -/
theorem foldl_settleDelete_blocked (p : Pipeline) (d : Disk) (now i : Nat)
    (hi : i < (p.dueDeletions now).length)
    (h : p.exclusions.blocks (p.dueDeletions now)[i] now = true) :
    OnlyExclusions (((p.dueDeletions now).take i).foldl (settleDelete d now)
        (p.settleStart now, [])).1
      (settleDelete d now (((p.dueDeletions now).take i).foldl (settleDelete d now)
        (p.settleStart now, [])) (p.dueDeletions now)[i]).1 ∧
    (settleDelete d now (((p.dueDeletions now).take i).foldl (settleDelete d now)
        (p.settleStart now, [])) (p.dueDeletions now)[i]).2 =
      (((p.dueDeletions now).take i).foldl (settleDelete d now) (p.settleStart now, [])).2 := by
  apply settleDelete_blocked
  rw [blocks_congr (excludedAt_foldl (excludedAt_settleDelete d now) _ _)]
  exact blocks_purgeExpired p.exclusions _ now h

/-! ## Queued changes -/

open ChangeQueue

/-- Accepting a path that the exclusions admit gives the document file, which they admit too. -/
theorem accept_some_admits {p p' : Pipeline} {d : Disk} {path doc : String} {now : Nat}
    (h : p.accept d path now = (p', some doc)) : p.exclusions.excludedAt doc now = false := by
  obtain ⟨hdoc, hblocks⟩ := accept_some p d path doc now (by rw [h])
  rw [Exclusions.blocks, Bool.or_eq_false_iff, ← hdoc] at hblocks
  exact hblocks.2

/-- What accepting a path leaves as it was: the index and the queue. -/
theorem accept_fst {p p' : Pipeline} {d : Disk} {path : String} {now : Nat} {o : Option String}
    (h : p.accept d path now = (p', o)) : p'.index = p.index ∧ p'.queue = p.queue := by
  obtain ⟨x, halted, heq⟩ := accept_only p d path now
  rw [h] at heq
  dsimp only at heq
  rw [heq]
  exact ⟨rfl, rfl⟩


/-- Reading a file's documents keeps a placed index placed, and every change it queues is about
that file: its own documents, the titles it no longer holds, and the title it displaced, which
was tracked at the same path. -/
theorem recordDocuments_queue (p : Pipeline) (d : Disk) (doc : String) (docs : List Fields)
    (hP : p.index.Placed) :
    (p.recordDocuments d doc docs).1.index.Placed ∧
      Adds p.queue (p.recordDocuments d doc docs).1.queue
        (fun c => Path.components c.absolutePath = Path.components doc) := by
  dsimp only [recordDocuments]
  split
  · exact ⟨hP, Adds.refl _ _⟩
  · split
    · exact ⟨hP, Adds.refl _ _⟩
    · split
      · exact ⟨hP, Adds.refl _ _⟩
      · rename_i index displaced hins
        refine ⟨(hP.insert hins).setBundled _ _, ?_⟩
        refine Adds.trans ?_ (Adds.trans (adds_foldl _ _ _ ?_) (adds_foldl _ _ _ ?_))
        · cases displaced with
          | some old => exact adds_queueDeletion _ _ _ (IndexSet.insert_displaced hP hins)
          | none => exact Adds.refl _ _
        · intro q t _
          exact adds_queueDeletion q t _ rfl
        · intro q b _
          obtain ⟨fs, t⟩ := b
          exact adds_queueModification q t _ rfl

/-- Reading the documents of a file the exclusions admit, from a pipeline with the same index and
queue as `p`, queues only changes about paths they admit. -/
theorem recordDocuments_admits {p q : Pipeline} (d : Disk) {doc : String} (docs : List Fields)
    {now : Nat} (hP : p.index.Placed) (hi : q.index = p.index) (hq : q.queue = p.queue)
    (hdoc : p.exclusions.excludedAt doc now = false) :
    (q.recordDocuments d doc docs).1.index.Placed ∧
      Adds p.queue (q.recordDocuments d doc docs).1.queue
        (fun c => p.exclusions.excludedAt c.absolutePath now = false) := by
  obtain ⟨hP', hadds⟩ := recordDocuments_queue q d doc docs (hi ▸ hP)
  refine ⟨hP', ?_⟩
  rw [hq] at hadds
  exact hadds.mono fun c hc => by rw [p.exclusions.excludedAt_congr hc, hdoc]

/-- Reading a file keeps a placed index placed, and every change it queues is about a path the
exclusions admit at `now`. -/
theorem upsert_queue (p : Pipeline) (d : Disk) (path : String) (now : Nat)
    (hP : p.index.Placed) :
    (p.upsert d path now).1.index.Placed ∧
      Adds p.queue (p.upsert d path now).1.queue
        (fun c => p.exclusions.excludedAt c.absolutePath now = false) := by
  dsimp only [upsert]
  split
  · rename_i p' hacc
    obtain ⟨hi, hq⟩ := accept_fst hacc
    rw [hi, hq]
    exact ⟨hP, Adds.refl _ _⟩
  · rename_i p' doc hacc
    obtain ⟨hi, hq⟩ := accept_fst hacc
    have hdoc := accept_some_admits hacc
    repeat' split
    all_goals first
      | exact recordDocuments_admits d _ hP hi hq hdoc
      | exact ⟨by dsimp only; rw [hi]; exact hP, by dsimp only; rw [hq]; exact Adds.refl _ _⟩

/-- Deleting a file keeps a placed index placed, and every change it queues is about a path the
exclusions admit at `now`. -/
theorem deleteNow_queue (p : Pipeline) (d : Disk) (path : String) (now : Nat)
    (hP : p.index.Placed) :
    (p.deleteNow d path now).1.index.Placed ∧
      Adds p.queue (p.deleteNow d path now).1.queue
        (fun c => p.exclusions.excludedAt c.absolutePath now = false) := by
  dsimp only [deleteNow]
  split
  · rename_i p' hacc
    obtain ⟨hi, hq⟩ := accept_fst hacc
    rw [hi, hq]
    exact ⟨hP, Adds.refl _ _⟩
  · rename_i p' doc hacc
    obtain ⟨hi, hq⟩ := accept_fst hacc
    have hdoc := accept_some_admits hacc
    repeat' split
    all_goals first
      | exact ⟨by dsimp only; rw [hi]; exact hP.removePath _,
          by dsimp only; rw [hq]; exact adds_foldl _ _ _ fun q t _ => adds_queueDeletion q t _ hdoc⟩
      | exact ⟨by dsimp only; rw [hi]; exact hP, by dsimp only; rw [hq]; exact Adds.refl _ _⟩

/-- Starting a grace period leaves the index and the queue alone. -/
theorem scheduleDelete_fst (p : Pipeline) (d : Disk) (path : String) (now : Nat) :
    (p.scheduleDelete d path now).index = p.index ∧
      (p.scheduleDelete d path now).queue = p.queue := by
  unfold scheduleDelete
  split
  · rename_i p' doc hacc
    obtain ⟨hi, hq⟩ := accept_fst hacc
    exact ⟨hi, hq⟩
  · rename_i p' hacc
    exact accept_fst hacc

/-- One step of a batch keeps a placed index placed, and every change it queues is about a path
the exclusions admit at `now`. -/
theorem runStep_queue (d : Disk) (now : Nat) (acc : Pipeline × List String) (s : EventStep)
    (hP : acc.1.index.Placed) :
    (runStep d now acc s).1.index.Placed ∧
      Adds acc.1.queue (runStep d now acc s).1.queue
        (fun c => acc.1.exclusions.excludedAt c.absolutePath now = false) := by
  obtain ⟨p, touched⟩ := acc
  cases s with
  | upsert path => exact upsert_queue p d path now hP
  | scheduleDelete path =>
    obtain ⟨hi, hq⟩ := scheduleDelete_fst p d path now
    simp only [runStep, hi, hq]
    exact ⟨hP, Adds.refl _ _⟩
  | deleteNow path => exact deleteNow_queue p d path now hP

/-- Settling a due deletion keeps a placed index placed, and every change it queues is about a
path the exclusions admit at `now`. -/
theorem settleDelete_queue (d : Disk) (now : Nat) (acc : Pipeline × List String) (path : String)
    (hP : acc.1.index.Placed) :
    (settleDelete d now acc path).1.index.Placed ∧
      Adds acc.1.queue (settleDelete d now acc path).1.queue
        (fun c => acc.1.exclusions.excludedAt c.absolutePath now = false) := by
  obtain ⟨p, touched⟩ := acc
  unfold settleDelete
  by_cases hf : d.isFile path = true
  · simp only [hf, if_true]
    exact upsert_queue p d path now hP
  · simp only [hf, Bool.false_eq_true, if_false]
    exact deleteNow_queue p d path now hP

/-- Arming timers leaves the index and the queue alone. -/
theorem arm_fst (p : Pipeline) (touched : List String) (now : Nat) :
    (p.arm touched now).index = p.index ∧ (p.arm touched now).queue = p.queue := by
  unfold arm
  split <;> exact ⟨rfl, rfl⟩

/-- Handling a batch keeps a placed index placed, and every change it queues is about a path the
exclusions admitted at `now`. -/
theorem handleBatch_queue (p : Pipeline) (d : Disk) (events : List RawEvent) (now : Nat)
    (hP : p.index.Placed) :
    (p.handleBatch d events now).index.Placed ∧
      Adds p.queue (p.handleBatch d events now).queue
        (fun c => p.exclusions.excludedAt c.absolutePath now = false) := by
  obtain ⟨hP', hadds⟩ := queue_foldl (excludedAt_runStep d now) (runStep_queue d now)
    (events.flatMap RawEvent.steps) (p, []) hP
  obtain ⟨hi, hq⟩ := arm_fst ((events.flatMap RawEvent.steps).foldl (runStep d now) (p, [])).1
    ((events.flatMap RawEvent.steps).foldl (runStep d now) (p, [])).2 now
  rw [handleBatch_eq_steps, hi, hq]
  exact ⟨hP', hadds⟩

/-- A tick keeps a placed index placed, and every change it queues is about a path the
exclusions admitted at `now` when it began: dropping released entries only answers "not
excluded" where the entries did before. -/
theorem tick_queue (p : Pipeline) (d : Disk) (now : Nat) (hP : p.index.Placed) :
    (p.tick d now).1.index.Placed ∧
      Adds p.queue (p.tick d now).1.queue
        (fun c => p.exclusions.excludedAt c.absolutePath now = false) := by
  obtain ⟨hP', hadds⟩ := queue_foldl (excludedAt_settleDelete d now) (settleDelete_queue d now)
    (p.dueDeletions now) (p.settleStart now, []) hP
  obtain ⟨hi, hq⟩ :=
    arm_fst ((p.dueDeletions now).foldl (settleDelete d now) (p.settleStart now, [])).1
      ((p.dueDeletions now).foldl (settleDelete d now) (p.settleStart now, [])).2 now
  rw [tick_fst]
  dsimp only [fireTimers]
  rw [hi, hq]
  refine ⟨hP', hadds.mono fun c hc => ?_⟩
  -- an entry live at `now` survives the purge, so a path the purged entries admit was admitted
  cases hx : p.exclusions.excludedAt c.absolutePath now with
  | false => rfl
  | true =>
    have hpurged := Exclusions.excludedAt_purgeExpired p.exclusions c.absolutePath now hx
    exact absurd hpurged (by rw [Bool.not_eq_true]; exact hc)

/-! ## Echo suppression -/

/-- The pipeline, and the roots touched, after the first `i` steps of a batch. -/
def batchAfter (p : Pipeline) (d : Disk) (events : List RawEvent) (now i : Nat) :
    Pipeline × List String :=
  ((events.flatMap RawEvent.steps).take i).foldl (runStep d now) (p, [])

/-- The pipeline, and the roots touched, after a tick has settled its first `i` due deletions. -/
def tickAfter (p : Pipeline) (d : Disk) (now i : Nat) : Pipeline × List String :=
  ((p.dueDeletions now).take i).foldl (settleDelete d now) (p.settleStart now, [])

theorem batchAfter_succ (p : Pipeline) (d : Disk) (events : List RawEvent) (now i : Nat)
    (hi : i < (events.flatMap RawEvent.steps).length) :
    p.batchAfter d events now (i + 1) =
      runStep d now (p.batchAfter d events now i) (events.flatMap RawEvent.steps)[i] := by
  rw [batchAfter, batchAfter, List.take_succ_eq_append_getElem hi, List.foldl_append]
  rfl

theorem tickAfter_succ (p : Pipeline) (d : Disk) (now i : Nat)
    (hi : i < (p.dueDeletions now).length) :
    p.tickAfter d now (i + 1) =
      settleDelete d now (p.tickAfter d now i) (p.dueDeletions now)[i] := by
  rw [tickAfter, tickAfter, List.take_succ_eq_append_getElem hi, List.foldl_append]
  rfl

/-- What echo suppression promises for a batch of events and a tick at `now`. -/
structure EchoSuppressed (p : Pipeline) (d : Disk) (events : List RawEvent) (now : Nat) :
    Prop where
  /-- A batch runs the steps of its events, then arms the timers of the roots they touched. -/
  batch_runs : p.handleBatch d events now =
    (p.batchAfter d events now (events.flatMap RawEvent.steps).length).1.arm
      (p.batchAfter d events now (events.flatMap RawEvent.steps).length).2 now
  /-- A step whose path, or the document file it concerns, the exclusions held back when the
  batch began changes nothing but the exclusions and the halt flag, and touches no root. -/
  batch_held : ∀ i (hi : i < (events.flatMap RawEvent.steps).length),
    p.exclusions.blocks (events.flatMap RawEvent.steps)[i].path now = true →
      OnlyExclusions (p.batchAfter d events now i).1 (p.batchAfter d events now (i + 1)).1 ∧
        (p.batchAfter d events now (i + 1)).2 = (p.batchAfter d events now i).2
  /-- A tick settles its due deletions one at a time, arms the timers of the roots touched, and
  takes out the timers due. -/
  tick_runs : (p.tick d now).1 =
    ((p.tickAfter d now (p.dueDeletions now).length).1.arm
      (p.tickAfter d now (p.dueDeletions now).length).2 now).fireTimers now
  /-- A due deletion whose path, or the document file it concerns, the exclusions held back when
  the tick began is dropped: settling it changes nothing but the exclusions and the halt flag,
  and touches no root. -/
  tick_held : ∀ i (hi : i < (p.dueDeletions now).length),
    p.exclusions.blocks (p.dueDeletions now)[i] now = true →
      OnlyExclusions (p.tickAfter d now i).1 (p.tickAfter d now (i + 1)).1 ∧
        (p.tickAfter d now (i + 1)).2 = (p.tickAfter d now i).2
  /-- Every change a batch queues is about a path not excluded at `now`. -/
  batch_queues : Adds p.queue (p.handleBatch d events now).queue
    (fun c => p.exclusions.excludedAt c.absolutePath now = false)
  /-- Every change a tick queues is about a path not excluded at `now`. -/
  tick_queues : Adds p.queue (p.tick d now).1.queue
    (fun c => p.exclusions.excludedAt c.absolutePath now = false)

/-- The runs and the held-back steps of echo suppression hold for every pipeline; what remains is
that the changes queued are about paths not excluded. -/
theorem EchoSuppressed.of_queues {p : Pipeline} {d : Disk} {events : List RawEvent} {now : Nat}
    (hbatch : Adds p.queue (p.handleBatch d events now).queue
      (fun c => p.exclusions.excludedAt c.absolutePath now = false))
    (htick : Adds p.queue (p.tick d now).1.queue
      (fun c => p.exclusions.excludedAt c.absolutePath now = false)) :
    p.EchoSuppressed d events now where
  batch_runs := by
    rw [handleBatch_eq_steps, batchAfter, List.take_length]
  batch_held i hi h := by
    rw [batchAfter_succ p d events now i hi]
    exact foldl_runStep_blocked p d now _ i hi h
  tick_runs := by
    rw [tick_fst, tickAfter, List.take_length]
  tick_held i hi h := by
    rw [tickAfter_succ p d now i hi]
    exact foldl_settleDelete_blocked p d now i hi h
  batch_queues := hbatch
  tick_queues := htick

/-- Echo suppression holds for every batch and every tick of a pipeline whose index is placed,
as every index built by its own updates is. -/
theorem echo_suppressed (p : Pipeline) (d : Disk) (events : List RawEvent) (now : Nat)
    (hP : p.index.Placed) : p.EchoSuppressed d events now :=
  EchoSuppressed.of_queues (handleBatch_queue p d events now hP).2 (tick_queue p d now hP).2

end Pipeline

/-- A fresh pipeline whose exclusions hold `/w/a.tid` back: echo suppression holds for a batch
that creates that file and removes another, and the creation's step changes nothing but the
exclusions and the halt flag. -/
theorem echo_suppressed_fresh :
    let p := Pipeline.new {} {} ⟨0, [("/w/a.tid", none)]⟩ ⟨0, 0, 0⟩ false
    let events := [RawEvent.created "/w/a.tid", .removed "/w/b.tid"]
    p.index.Placed ∧ p.exclusions.blocks "/w/a.tid" 0 = true ∧ p.EchoSuppressed default events 0 ∧
      Pipeline.OnlyExclusions p (p.batchAfter default events 0 1).1 := by
  intro p events
  have hP : p.index.Placed := fun ix hix => by cases hix
  have hblocks : p.exclusions.blocks "/w/a.tid" 0 = true := by
    simp [p, Pipeline.new, Exclusions.blocks, Exclusions.excludedAt, Exclusions.entry?, Path.same]
  have h := Pipeline.echo_suppressed p default events 0 hP
  exact ⟨hP, hblocks, h, (h.batch_held 0 (by decide) hblocks).1⟩

end WikiSync
