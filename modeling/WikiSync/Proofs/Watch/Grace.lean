import WikiSync.Proofs.Watch.Move
import WikiSync.Proofs.Watch.Queue

/-!
# The grace period of a removed file

A removed file is not deleted at once: its removal waits out a grace period
(`Pipeline.scheduleDelete`), and the first tick at or after the deadline settles it. This module
follows one removal through whatever reaches the pipeline in between. The inputs of a run
(`Pipeline.Input`) are batches of events, ticks, changes of the roots and of their rules, and the
exclusions and the queue as the rest of the program leaves them.

* Every input keeps the index sound (`Pipeline.run_sound`).
* An admitted removal, in a batch whose other events do not reach the file, leaves the removal
  waiting for its grace deadline (`Pipeline.awaits_of_batch`).
* An input that spares the file (`Pipeline.Input.Spares`) keeps its removal waiting for the
  deadline it had (`Pipeline.Awaits.run`): no event of a batch reaches the file, a tick comes
  before the deadline, and a root taken away does not hold the file. When a tick at or after the
  deadline comes, the awaited removal is due, and no other due removal reaches the file
  (`Pipeline.Awaits.due`).

What the tick then does to the index and the queue is the subject of the module on settling a
removal. What is left out here is what reaches the file. A removal of its sidecar is a removal
of the file and pushes the deadline back; an event that reads the file or its sidecar cancels
the removal, whether or not a file is there to read.

The note `b` of a wiki at `/w` (`Pipeline.watchedNote`) is the running example.
-/

namespace WikiSync

namespace Debouncer

/-- Recording a key keeps the keys that were pending and may add the key itself. -/
theorem mem_record {db : Debouncer} {k : String} {now : Nat} {e : String × Nat}
    (he : e ∈ (db.record k now).1.pending) : (∃ e' ∈ db.pending, e'.1 = e.1) ∨ e.1 = k := by
  unfold record at he
  dsimp only at he
  split at he
  · obtain ⟨e₀, h₀, rfl⟩ := List.mem_map.mp he
    exact .inl ⟨e₀, h₀, by split <;> rfl⟩
  · rcases List.mem_append.mp he with he | he
    · exact .inl ⟨e, he, rfl⟩
    · rw [List.mem_singleton.mp he]
      exact .inr rfl

end Debouncer

namespace Pipeline

/-! ## Runs -/

/-- What reaches a pipeline from outside. -/
inductive Input where
  /-- A batch of change events, handled at `now` against the disk as it is. -/
  | batch (d : Disk) (events : List RawEvent) (now : Nat)
  /-- A tick at `now`. -/
  | tick (d : Disk) (now : Nat)
  /-- A root starts being watched under its rules. -/
  | addRoot (r : RootRules)
  /-- A root stops being watched. -/
  | removeRoot (root : String)
  /-- A root's ignore rules are replaced. -/
  | updateIgnore (root : String) (ignore : IgnoreRules)
  /-- The exclusions, as the program's own writes leave them. -/
  | exclusions (x : Exclusions)
  /-- The queue, as the synchronizer's reads leave it. -/
  | queue (q : ChangeQueue)

/-- Take one input. -/
def step (p : Pipeline) : Input → Pipeline
  | .batch d events now => p.handleBatch d events now
  | .tick d now => (p.tick d now).1
  | .addRoot r => p.addRoot r
  | .removeRoot root => p.removeRoot root
  | .updateIgnore root ignore => p.updateIgnore root ignore
  | .exclusions x => { p with exclusions := x }
  | .queue q => { p with queue := q }

/-- Take inputs one after another. -/
def run (p : Pipeline) (inputs : List Input) : Pipeline :=
  inputs.foldl step p

/-- A property of pipelines that every step of a fold keeps holds after the fold. Batches and
ticks are such folds, over the steps of their events and over the due removals. -/
theorem foldl_keeps {α : Type} {f : Pipeline × List String → α → Pipeline × List String}
    (P : Pipeline → Prop) (l : List α) (hf : ∀ acc, ∀ a ∈ l, P acc.1 → P (f acc a).1)
    (acc : Pipeline × List String) (h : P acc.1) : P (l.foldl f acc).1 := by
  induction l generalizing acc with
  | nil => exact h
  | cons a l ih =>
    rw [List.foldl_cons]
    exact ih (fun acc b hb => hf acc b (List.mem_cons_of_mem a hb)) _
      (hf acc a List.mem_cons_self h)

/-- The steps of an event are about the paths it names. -/
theorem path_mem_of_steps {e : RawEvent} {s : EventStep} (h : s ∈ e.steps) : s.path ∈ e.paths := by
  cases e <;> simp only [RawEvent.steps, List.mem_cons, List.not_mem_nil, or_false] at h <;>
    rcases h with rfl | rfl <;> simp [EventStep.path, RawEvent.paths]

/-! ## Events leave the rules alone -/

section Rules

variable (p : Pipeline) (d : Disk) (path : String) (now : Nat)

theorem accept_rules : (p.accept d path now).1.rules = p.rules := by
  obtain ⟨x, h, heq⟩ := accept_only p d path now
  rw [heq]

theorem recordDocuments_rules (docs : List Fields) :
    (p.recordDocuments d path docs).1.rules = p.rules := by
  unfold recordDocuments
  split
  · rfl
  · dsimp only
    split
    · rfl
    · split <;> rfl

theorem upsert_rules : (p.upsert d path now).1.rules = p.rules := by
  rw [← accept_rules p d path now]
  unfold upsert
  rcases p.accept d path now with ⟨p', _ | doc⟩
  · rfl
  · dsimp only
    repeat' split
    all_goals first | rfl | exact recordDocuments_rules _ _ _ _

theorem deleteNow_rules : (p.deleteNow d path now).1.rules = p.rules := by
  rw [← accept_rules p d path now]
  unfold deleteNow
  rcases p.accept d path now with ⟨p', _ | doc⟩
  · rfl
  · dsimp only
    repeat' split
    all_goals rfl

theorem scheduleDelete_rules : (p.scheduleDelete d path now).rules = p.rules := by
  rw [← accept_rules p d path now]
  unfold scheduleDelete
  rcases p.accept d path now with ⟨p', _ | doc⟩ <;> rfl

theorem runStep_rules (acc : Pipeline × List String) (s : EventStep) :
    (runStep d now acc s).1.rules = acc.1.rules := by
  obtain ⟨q, touched⟩ := acc
  cases s with
  | upsert path => exact upsert_rules q d path now
  | scheduleDelete path => exact scheduleDelete_rules q d path now
  | deleteNow path => exact deleteNow_rules q d path now

theorem settleDelete_rules (acc : Pipeline × List String) :
    (settleDelete d now acc path).1.rules = acc.1.rules := by
  obtain ⟨q, touched⟩ := acc
  unfold settleDelete
  by_cases hf : d.isFile path = true
  · simp only [hf, if_true]
    exact upsert_rules q d path now
  · simp only [hf, Bool.false_eq_true, if_false]
    exact deleteNow_rules q d path now

/-- A batch of events leaves the rules of the roots as they were. -/
theorem handleBatch_rules (events : List RawEvent) :
    (p.handleBatch d events now).rules = p.rules := by
  rw [handleBatch_eq_steps]
  obtain ⟨sync, vcs, harm⟩ := arm_eq ((events.flatMap RawEvent.steps).foldl (runStep d now) (p, [])).1
    ((events.flatMap RawEvent.steps).foldl (runStep d now) (p, [])).2 now
  rw [harm]
  exact foldl_keeps (fun q => q.rules = p.rules) _
    (fun acc s _ h => (runStep_rules d now acc s).trans h) _ rfl

end Rules

/-! ## The index stays sound -/

section Sound

variable {p : Pipeline} (d : Disk) (now : Nat)

/-- Reading a file's documents keeps the index sound. -/
theorem recordDocuments_sound (hs : p.index.Sound) (doc : String) (docs : List Fields) :
    (p.recordDocuments d doc docs).1.index.Sound := by
  unfold recordDocuments
  split
  · exact hs
  · dsimp only
    split
    · exact hs
    · split
      · exact hs
      · rename_i s' _ hins
        exact (hs.insert hins).setBundled _ _

/-- Reading a created or modified file keeps the index sound. -/
theorem upsert_sound (hs : p.index.Sound) (path : String) : (p.upsert d path now).1.index.Sound := by
  unfold upsert
  rcases hacc : p.accept d path now with ⟨p', _ | doc⟩
  · rw [(accept_fst hacc).1]
    exact hs
  · have hs' : ({ p' with pendingDeletes := (p'.pendingDeletes.remove doc).1 } : Pipeline).index.Sound := by
      show p'.index.Sound
      rw [(accept_fst hacc).1]
      exact hs
    dsimp only
    -- every branch either stops with the pipeline as accepted or records the file's documents
    repeat' split
    all_goals first | exact hs' | exact recordDocuments_sound d hs' _ _

/-- Deleting a file at once keeps the index sound. -/
theorem deleteNow_sound (hs : p.index.Sound) (path : String) :
    (p.deleteNow d path now).1.index.Sound := by
  unfold deleteNow
  rcases hacc : p.accept d path now with ⟨p', _ | doc⟩
  · rw [(accept_fst hacc).1]
    exact hs
  · have hs' : p'.index.Sound := by rw [(accept_fst hacc).1]; exact hs
    dsimp only
    repeat' split
    all_goals first | exact hs' | exact hs'.removePath _

/-- One step of a batch keeps the index sound. -/
theorem runStep_sound (acc : Pipeline × List String) (s : EventStep) (hs : acc.1.index.Sound) :
    (runStep d now acc s).1.index.Sound := by
  obtain ⟨p, touched⟩ := acc
  cases s with
  | upsert path => exact upsert_sound d now hs path
  | scheduleDelete path =>
    show (p.scheduleDelete d path now).index.Sound
    rw [(scheduleDelete_fst p d path now).1]
    exact hs
  | deleteNow path => exact deleteNow_sound d now hs path

/-- Settling a due removal keeps the index sound. -/
theorem settleDelete_sound (acc : Pipeline × List String) (path : String)
    (hs : acc.1.index.Sound) : (settleDelete d now acc path).1.index.Sound := by
  obtain ⟨p, touched⟩ := acc
  unfold settleDelete
  by_cases hf : d.isFile path = true
  · simp only [hf, if_true]
    exact upsert_sound d now hs path
  · simp only [hf, Bool.false_eq_true, if_false]
    exact deleteNow_sound d now hs path

/-- A batch of events keeps the index sound. -/
theorem handleBatch_sound (hs : p.index.Sound) (events : List RawEvent) :
    (p.handleBatch d events now).index.Sound := by
  rw [handleBatch_eq_steps]
  obtain ⟨sync, vcs, harm⟩ := arm_eq ((events.flatMap RawEvent.steps).foldl (runStep d now) (p, [])).1
    ((events.flatMap RawEvent.steps).foldl (runStep d now) (p, [])).2 now
  rw [harm]
  exact foldl_keeps (fun q => q.index.Sound) _ (fun acc s _ h => runStep_sound d now acc s h) _ hs

/-- A tick keeps the index sound. -/
theorem tick_sound (hs : p.index.Sound) : (p.tick d now).1.index.Sound := by
  rw [tick_fst]
  obtain ⟨sync, vcs, harm⟩ := arm_eq
    ((p.dueDeletions now).foldl (settleDelete d now) (p.settleStart now, [])).1
    ((p.dueDeletions now).foldl (settleDelete d now) (p.settleStart now, [])).2 now
  rw [harm]
  exact foldl_keeps (fun q => q.index.Sound) _
    (fun acc path _ h => settleDelete_sound d now acc path h) _ hs

end Sound

/-- Every input keeps the index sound. -/
theorem step_sound {p : Pipeline} (hs : p.index.Sound) : ∀ i : Input, (p.step i).index.Sound
  | .batch d events now => handleBatch_sound d now hs events
  | .tick d now => tick_sound d now hs
  | .addRoot r => hs.registerRoot r.root
  | .removeRoot root => hs.deregisterRoot root
  | .updateIgnore _ _ => hs
  | .exclusions _ => hs
  | .queue _ => hs

/-- Every run keeps the index sound. -/
theorem run_sound {p : Pipeline} (hs : p.index.Sound) (inputs : List Input) :
    (p.run inputs).index.Sound := by
  induction inputs generalizing p with
  | nil => exact hs
  | cons i inputs ih => exact ih (step_sound hs i)

/-! ## A removal waiting for its deadline -/

/-- The document file an event path is about: the file a sidecar describes, else the path. -/
def documentOf (path : String) : String :=
  (primaryForSidecar path).getD path

/-- An event at `q` can reach the file at `path`: the document file of `q` is the file, or the
document file of that is, which is what a removal of `q` reaches when its grace period ends. -/
def Reaches (path q : String) : Prop :=
  Path.components (documentOf q) = Path.components path ∨
    Path.components (documentOf (documentOf q)) = Path.components path

/-- An input leaves the removal of the file at `path`, due at `deadline`, alone: no event of a
batch reaches the file, a tick comes before the deadline, and a root taken away does not hold
the file. -/
def Input.Spares (path : String) (deadline : Nat) : Input → Prop
  | .batch _ events _ => ∀ e ∈ events, ∀ q ∈ e.paths, ¬ Reaches path q
  | .tick _ now => now < deadline
  | .removeRoot root => Path.startsWith path root = false
  | _ => True

/-- Every pending removal of the file at `path`, or of a file whose document file it is, is
recorded under `path` itself. -/
def PendingUnder (p : Pipeline) (path : String) : Prop :=
  ∀ e ∈ p.pendingDeletes.pending, (Path.components e.1 = Path.components path ∨
    Path.components (documentOf e.1) = Path.components path) → e.1 = path

/-- The removal of the file at `path` waits for `deadline`: it is pending under that name with
that deadline, and it is the only pending removal that reaches the file when settled. -/
structure Awaits (p : Pipeline) (path : String) (deadline : Nat) : Prop where
  /-- The removal is pending with its deadline. -/
  pending : (path, deadline) ∈ p.pendingDeletes.pending
  /-- No other pending removal has the file as its document file. -/
  only : ∀ e ∈ p.pendingDeletes.pending,
    Path.components (documentOf e.1) = Path.components path → e = (path, deadline)

/-- Accepting an event path leaves the pending removals alone. -/
theorem accept_pendingDeletes (p : Pipeline) (d : Disk) (path : String) (now : Nat) :
    (p.accept d path now).1.pendingDeletes = p.pendingDeletes := by
  obtain ⟨x, h, heq⟩ := accept_only p d path now
  rw [heq]

/-- Reading a file's documents leaves the pending removals alone. -/
theorem recordDocuments_pendingDeletes (p : Pipeline) (d : Disk) (doc : String)
    (docs : List Fields) : (p.recordDocuments d doc docs).1.pendingDeletes = p.pendingDeletes := by
  unfold recordDocuments
  split
  · rfl
  · dsimp only
    split
    · rfl
    · split <;> rfl

/-- What reading a file does to the pending removals: nothing, or it cancels the removal of its
document file. -/
theorem upsert_pendingDeletes (p : Pipeline) (d : Disk) (path : String) (now : Nat) :
    (p.upsert d path now).1.pendingDeletes = p.pendingDeletes ∨
      (p.upsert d path now).1.pendingDeletes = (p.pendingDeletes.remove (documentOf path)).1 := by
  unfold upsert
  rcases hacc : p.accept d path now with ⟨p', _ | doc⟩
  · left
    rw [← accept_pendingDeletes p d path now, hacc]
  · right
    have hdoc : doc = documentOf path := (accept_some p d path doc now (by rw [hacc])).1
    have hp' : p'.pendingDeletes = p.pendingDeletes := by
      rw [← accept_pendingDeletes p d path now, hacc]
    rw [← hdoc, ← hp']
    dsimp only
    repeat' split
    all_goals first | rfl | exact recordDocuments_pendingDeletes _ _ _ _

/-- What deleting a file at once does to the pending removals: nothing, or it cancels the
removal of its document file. -/
theorem deleteNow_pendingDeletes (p : Pipeline) (d : Disk) (path : String) (now : Nat) :
    (p.deleteNow d path now).1.pendingDeletes = p.pendingDeletes ∨
      (p.deleteNow d path now).1.pendingDeletes =
        (p.pendingDeletes.remove (documentOf path)).1 := by
  unfold deleteNow
  rcases hacc : p.accept d path now with ⟨p', _ | doc⟩
  · left
    rw [← accept_pendingDeletes p d path now, hacc]
  · right
    have hdoc : doc = documentOf path := (accept_some p d path doc now (by rw [hacc])).1
    have hp' : p'.pendingDeletes = p.pendingDeletes := by
      rw [← accept_pendingDeletes p d path now, hacc]
    rw [← hdoc, ← hp']
    dsimp only
    repeat' split
    all_goals rfl

/-- What a removal does to the pending removals: nothing, or it records the removal of its
document file at `now`. -/
theorem scheduleDelete_pendingDeletes (p : Pipeline) (d : Disk) (path : String) (now : Nat) :
    (p.scheduleDelete d path now).pendingDeletes = p.pendingDeletes ∨
      (p.scheduleDelete d path now).pendingDeletes =
        (p.pendingDeletes.record (documentOf path) now).1 := by
  unfold scheduleDelete
  rcases hacc : p.accept d path now with ⟨p', _ | doc⟩
  · left
    rw [← accept_pendingDeletes p d path now, hacc]
  · right
    have hdoc : doc = documentOf path := (accept_some p d path doc now (by rw [hacc])).1
    have hp' : p'.pendingDeletes = p.pendingDeletes := by
      rw [← accept_pendingDeletes p d path now, hacc]
    rw [← hdoc, ← hp']

section Awaits

variable {path : String} {deadline : Nat}

/-- The awaited removal stays awaited under the same pending removals. -/
theorem Awaits.congr {p q : Pipeline} (hw : p.Awaits path deadline)
    (h : q.pendingDeletes.pending = p.pendingDeletes.pending) : q.Awaits path deadline :=
  ⟨h ▸ hw.pending, fun e he => hw.only e (h ▸ he)⟩

/-- Dropping pending removals other than the awaited one keeps it awaited. -/
theorem Awaits.filter {p q : Pipeline} (hw : p.Awaits path deadline) (keep : String × Nat → Bool)
    (h : q.pendingDeletes.pending = p.pendingDeletes.pending.filter keep)
    (hkeep : keep (path, deadline) = true) : q.Awaits path deadline :=
  ⟨h ▸ List.mem_filter.mpr ⟨hw.pending, hkeep⟩,
    fun e he hdoc => hw.only e (List.mem_filter.mp (h ▸ he)).1 hdoc⟩

/-- Cancelling the removal of another file keeps the awaited one. -/
theorem Awaits.remove {p q : Pipeline} (hw : p.Awaits path deadline) {k : String}
    (hk : Path.components k ≠ Path.components path)
    (h : q.pendingDeletes = (p.pendingDeletes.remove k).1) : q.Awaits path deadline :=
  hw.filter _ (by rw [h]; rfl) (by simp [Path.same_eq, Ne.symm hk])

/-- Recording the removal of another file, one whose document file is not the awaited file
either, keeps the awaited removal and its deadline. -/
theorem Awaits.record {p q : Pipeline} (hw : p.Awaits path deadline) {k : String} (now : Nat)
    (hk : Path.components k ≠ Path.components path)
    (hdoc : Path.components (documentOf k) ≠ Path.components path)
    (h : q.pendingDeletes = (p.pendingDeletes.record k now).1) : q.Awaits path deadline := by
  have hsame : Path.same path k = false := by simp [Path.same_eq, Ne.symm hk]
  have hlist : q.pendingDeletes.pending = (p.pendingDeletes.record k now).1.pending := by rw [h]
  unfold Debouncer.record at hlist
  by_cases hp : p.pendingDeletes.isPending k = true
  · simp only [hp, if_true] at hlist
    refine ⟨hlist ▸ List.mem_map.mpr ⟨_, hw.pending, by simp [hsame]⟩, fun e' he' hdoc' => ?_⟩
    rw [hlist] at he'
    obtain ⟨e, he, rfl⟩ := List.mem_map.mp he'
    by_cases hek : Path.same e.1 k = true
    · simp only [hek, if_true] at hdoc' ⊢
      have he_eq := hw.only e he hdoc'
      rw [he_eq] at hek
      exact absurd hek (by simp [hsame])
    · simp only [hek, Bool.false_eq_true, if_false] at hdoc' ⊢
      exact hw.only e he hdoc'
  · simp only [Bool.not_eq_true] at hp
    simp only [hp, Bool.false_eq_true, if_false] at hlist
    refine ⟨hlist ▸ List.mem_append_left _ hw.pending, fun e' he' hdoc' => ?_⟩
    rw [hlist] at he'
    rcases List.mem_append.mp he' with he' | he'
    · exact hw.only e' he' hdoc'
    · rw [List.mem_singleton] at he'
      subst he'
      exact absurd hdoc' hdoc

/-- Reading a file whose document file is another keeps the awaited removal. -/
theorem Awaits.upsert {p : Pipeline} (hw : p.Awaits path deadline) (d : Disk) {q : String}
    (now : Nat) (hq : Path.components (documentOf q) ≠ Path.components path) :
    (p.upsert d q now).1.Awaits path deadline := by
  rcases upsert_pendingDeletes p d q now with h | h
  · exact hw.congr (by rw [h])
  · exact hw.remove hq h

/-- Deleting at once a file whose document file is another keeps the awaited removal. -/
theorem Awaits.deleteNow {p : Pipeline} (hw : p.Awaits path deadline) (d : Disk) {q : String}
    (now : Nat) (hq : Path.components (documentOf q) ≠ Path.components path) :
    (p.deleteNow d q now).1.Awaits path deadline := by
  rcases deleteNow_pendingDeletes p d q now with h | h
  · exact hw.congr (by rw [h])
  · exact hw.remove hq h

/-- A removal that does not reach the file keeps the awaited removal and its deadline. -/
theorem Awaits.scheduleDelete {p : Pipeline} (hw : p.Awaits path deadline) (d : Disk)
    {q : String} (now : Nat) (hq : ¬ Reaches path q) :
    (p.scheduleDelete d q now).Awaits path deadline := by
  rcases scheduleDelete_pendingDeletes p d q now with h | h
  · exact hw.congr (by rw [h])
  · exact hw.record now (fun h' => hq (.inl h')) (fun h' => hq (.inr h')) h

/-- A step of a batch about a path that does not reach the file keeps the awaited removal. -/
theorem Awaits.runStep {acc : Pipeline × List String} (hw : acc.1.Awaits path deadline)
    (d : Disk) (now : Nat) (s : EventStep) (hs : ¬ Reaches path s.path) :
    (runStep d now acc s).1.Awaits path deadline := by
  obtain ⟨p, touched⟩ := acc
  cases s with
  | upsert q => exact hw.upsert d now (fun h => hs (.inl h))
  | scheduleDelete q => exact hw.scheduleDelete d now hs
  | deleteNow q => exact hw.deleteNow d now (fun h => hs (.inl h))

/-- Settling a due removal whose document file is another keeps the awaited removal. -/
theorem Awaits.settleDelete {acc : Pipeline × List String} (hw : acc.1.Awaits path deadline)
    (d : Disk) (now : Nat) {k : String}
    (hk : Path.components (documentOf k) ≠ Path.components path) :
    (WikiSync.Pipeline.settleDelete d now acc k).1.Awaits path deadline := by
  obtain ⟨p, touched⟩ := acc
  unfold Pipeline.settleDelete
  by_cases hf : d.isFile k = true
  · simp only [hf, if_true]
    exact hw.upsert d now hk
  · simp only [hf, Bool.false_eq_true, if_false]
    exact hw.deleteNow d now hk

/-- Arming timers keeps the awaited removal. -/
theorem Awaits.arm {p : Pipeline} (hw : p.Awaits path deadline) (touched : List String)
    (now : Nat) : (p.arm touched now).Awaits path deadline := by
  obtain ⟨sync, vcs, harm⟩ := arm_eq p touched now
  exact hw.congr (by rw [harm])

/-- A batch none of whose events reaches the file keeps the awaited removal. -/
theorem Awaits.handleBatch {p : Pipeline} (hw : p.Awaits path deadline) (d : Disk)
    (events : List RawEvent) (now : Nat) (hev : ∀ e ∈ events, ∀ q ∈ e.paths, ¬ Reaches path q) :
    (p.handleBatch d events now).Awaits path deadline := by
  rw [handleBatch_eq_steps]
  refine Awaits.arm ?_ _ now
  refine foldl_keeps (fun q => q.Awaits path deadline) _ (fun acc s hs h => ?_) _ hw
  obtain ⟨e, he, hse⟩ := List.mem_flatMap.mp hs
  exact h.runStep d now s (hev e he s.path (path_mem_of_steps hse))

/-- The only due removal that reaches the file is the awaited one, once its deadline has come. -/
theorem Awaits.due {p : Pipeline} (hw : p.Awaits path deadline) {now : Nat} {k : String}
    (hk : k ∈ p.dueDeletions now)
    (hdoc : Path.components (documentOf k) = Path.components path) : k = path ∧ deadline ≤ now := by
  obtain ⟨e, he, rfl⟩ := List.mem_map.mp hk
  obtain ⟨hmem, hlate⟩ := List.mem_filter.mp he
  have he_eq := hw.only e hmem hdoc
  rw [he_eq] at hlate ⊢
  exact ⟨rfl, of_decide_eq_true hlate⟩

/-- The awaited removal falls due at its deadline. -/
theorem Awaits.mem_due {p : Pipeline} (hw : p.Awaits path deadline) {now : Nat}
    (hnow : deadline ≤ now) : path ∈ p.dueDeletions now :=
  List.mem_map.mpr ⟨(path, deadline), List.mem_filter.mpr ⟨hw.pending, by simpa using hnow⟩, rfl⟩

/-- A tick before the deadline keeps the awaited removal: what falls due is due earlier, so
none of it has the file as its document file. -/
theorem Awaits.tick {p : Pipeline} (hw : p.Awaits path deadline) (d : Disk) {now : Nat}
    (hnow : now < deadline) : (p.tick d now).1.Awaits path deadline := by
  rw [tick_fst]
  have hstart : (p.settleStart now).Awaits path deadline :=
    hw.filter _ rfl (by simpa using hnow)
  have hsettled := foldl_keeps (fun q => q.Awaits path deadline) (p.dueDeletions now)
    (fun acc k hk h => h.settleDelete d now fun hdoc => absurd (hw.due hk hdoc).2 (by omega))
    (p.settleStart now, []) hstart
  exact (hsettled.arm _ now).congr rfl

/-- Every input that spares the file keeps the awaited removal and its deadline. -/
theorem Awaits.step {p : Pipeline} (hw : p.Awaits path deadline) :
    ∀ i : Input, i.Spares path deadline → (p.step i).Awaits path deadline
  | .batch d events now, hi => hw.handleBatch d events now hi
  | .tick d _, hi => hw.tick d hi
  | .addRoot _, _ => hw.congr rfl
  | .removeRoot root, hi => hw.filter _ rfl (by rw [Input.Spares] at hi; simp [hi])
  | .updateIgnore _ _, _ => hw.congr rfl
  | .exclusions _, _ => hw.congr rfl
  | .queue _, _ => hw.congr rfl

/-- A run of inputs that all spare the file keeps the awaited removal and its deadline. -/
theorem Awaits.run {p : Pipeline} (hw : p.Awaits path deadline) (inputs : List Input)
    (hi : ∀ i ∈ inputs, i.Spares path deadline) : (p.run inputs).Awaits path deadline := by
  induction inputs generalizing p with
  | nil => exact hw
  | cons i inputs ih =>
    exact ih (hw.step i (hi i List.mem_cons_self)) fun j hj => hi j (List.mem_cons_of_mem i hj)

end Awaits

/-! ## The removal is reported -/

/-- Pending removals under no new keys keep every removal reaching the file recorded under its
name. -/
theorem PendingUnder.mono {p q : Pipeline} {path : String} (h : p.PendingUnder path)
    (hk : ∀ e ∈ q.pendingDeletes.pending, ∃ e' ∈ p.pendingDeletes.pending, e'.1 = e.1) :
    q.PendingUnder path := by
  intro e he hreach
  obtain ⟨e', he', heq⟩ := hk e he
  rw [← heq] at hreach ⊢
  exact h e' he' hreach

/-- A step about a path that does not reach the file keeps every removal reaching the file
recorded under its name: it cancels removals, or records one whose key reaches elsewhere. -/
theorem PendingUnder.runStep {acc : Pipeline × List String} {path : String}
    (h : acc.1.PendingUnder path) (d : Disk) (now : Nat) (s : EventStep)
    (hs : ¬ Reaches path s.path) : (runStep d now acc s).1.PendingUnder path := by
  obtain ⟨p, touched⟩ := acc
  have hsame : ∀ {q : Pipeline}, q.pendingDeletes = p.pendingDeletes → q.PendingUnder path :=
    fun hq => h.mono fun e he => ⟨e, by rwa [hq] at he, rfl⟩
  have hremove : ∀ {q : Pipeline} (k : String), q.pendingDeletes = (p.pendingDeletes.remove k).1 →
      q.PendingUnder path := fun k hq =>
    h.mono fun e he => ⟨e, (List.mem_filter.mp (by rwa [hq] at he)).1, rfl⟩
  cases s with
  | upsert q => exact (upsert_pendingDeletes p d q now).elim hsame (hremove _)
  | deleteNow q => exact (deleteNow_pendingDeletes p d q now).elim hsame (hremove _)
  | scheduleDelete q =>
    rcases scheduleDelete_pendingDeletes p d q now with hq | hq
    · exact hsame hq
    · intro e he hreach
      rw [show (Pipeline.runStep d now (p, touched) (.scheduleDelete q)).1 = p.scheduleDelete d q now
        from rfl, hq] at he
      rcases Debouncer.mem_record he with ⟨e', he', heq⟩ | hkey
      · rw [← heq] at hreach ⊢
        exact h e' he' hreach
      · rw [hkey] at hreach
        exact absurd hreach hs

/-- Steps keep how long removals wait. -/
theorem runStep_duration (d : Disk) (now : Nat) (acc : Pipeline × List String) (s : EventStep) :
    (runStep d now acc s).1.pendingDeletes.duration = acc.1.pendingDeletes.duration := by
  obtain ⟨p, touched⟩ := acc
  cases s with
  | upsert q =>
    show (p.upsert d q now).1.pendingDeletes.duration = _
    rcases upsert_pendingDeletes p d q now with h | h <;> simp only [h, Debouncer.remove]
  | scheduleDelete q =>
    show (p.scheduleDelete d q now).pendingDeletes.duration = _
    rcases scheduleDelete_pendingDeletes p d q now with h | h <;> simp only [h, Debouncer.record]
  | deleteNow q =>
    show (p.deleteNow d q now).1.pendingDeletes.duration = _
    rcases deleteNow_pendingDeletes p d q now with h | h <;> simp only [h, Debouncer.remove]

/-- A step of a batch keeps a path admitted at the batch's time. -/
theorem Admits.runStep {acc : Pipeline × List String} {d : Disk} {path : String} {now : Nat}
    (h : acc.1.Admits d path now) (s : EventStep) : (runStep d now acc s).1.Admits d path now :=
  h.congr (runStep_rules d now acc s) (excludedAt_runStep d now acc s path)

/-- An admitted removal of a file leaves the pipeline awaiting it until the grace deadline counted
from `now`, when every removal pending for the file before was recorded under its name: a removal
pending already moves to the new deadline. -/
theorem awaits_of_scheduleDelete {p : Pipeline} {d : Disk} {path : String} {now : Nat}
    (hadm : p.Admits d path now) (hunder : p.PendingUnder path) :
    (p.scheduleDelete d path now).Awaits path (now + p.pendingDeletes.duration) := by
  obtain ⟨x, hsch, -⟩ := scheduleDelete_of_admits hadm
  rw [hsch]
  suffices h : (path, now + p.pendingDeletes.duration) ∈ (p.pendingDeletes.record path now).1.pending ∧
      ∀ e ∈ (p.pendingDeletes.record path now).1.pending,
        Path.components (documentOf e.1) = Path.components path →
          e = (path, now + p.pendingDeletes.duration) from ⟨h.1, h.2⟩
  unfold Debouncer.record
  dsimp only
  by_cases hp : p.pendingDeletes.isPending path = true
  · simp only [hp, if_true]
    obtain ⟨e, he, hsame⟩ := List.any_eq_true.mp hp
    have hname : e.1 = path := hunder e he (.inl (by simpa [Path.same_eq] using hsame))
    refine ⟨List.mem_map.mpr ⟨e, he, by simp [hname, Path.same_eq]⟩, fun e' he' hdoc => ?_⟩
    obtain ⟨e₀, he₀, rfl⟩ := List.mem_map.mp he'
    by_cases hs₀ : Path.same e₀.1 path = true
    · simp only [hs₀, if_true]
      rw [hunder e₀ he₀ (.inl (by simpa [Path.same_eq] using hs₀))]
    · simp only [hs₀, Bool.false_eq_true, if_false] at hdoc
      rw [hunder e₀ he₀ (.inr hdoc)] at hs₀
      simp [Path.same_eq] at hs₀
  · simp only [Bool.not_eq_true] at hp
    simp only [hp, Bool.false_eq_true, if_false]
    refine ⟨List.mem_append_right _ (List.mem_singleton_self _), fun e' he' hdoc => ?_⟩
    rcases List.mem_append.mp he' with he' | he'
    · have hpending : p.pendingDeletes.isPending path = true :=
        List.any_eq_true.mpr ⟨e', he', by simp [hunder e' he' (.inr hdoc), Path.same_eq]⟩
      rw [hp] at hpending
      cases hpending
    · exact List.mem_singleton.mp he'

/-- A removal reported in a batch of its own is awaited likewise. -/
theorem awaits_of_removed {p : Pipeline} {d : Disk} {path : String} {now : Nat}
    (hadm : p.Admits d path now) (hunder : p.PendingUnder path) :
    (p.handleBatch d [.removed path] now).Awaits path (now + p.pendingDeletes.duration) :=
  awaits_of_scheduleDelete hadm hunder

/-- An admitted removal of a file, in a batch whose other events do not reach the file, leaves
the pipeline awaiting it until the grace deadline counted from `now`, when every removal pending
for the file before was recorded under its name. -/
theorem awaits_of_batch {p : Pipeline} {d : Disk} {path : String} {now : Nat}
    (pre post : List RawEvent) (hadm : p.Admits d path now) (hunder : p.PendingUnder path)
    (hev : ∀ e ∈ pre ++ post, ∀ q ∈ e.paths, ¬ Reaches path q) :
    (p.handleBatch d (pre ++ .removed path :: post) now).Awaits path
      (now + p.pendingDeletes.duration) := by
  have hreach : ∀ l : List RawEvent, (∀ e ∈ l, e ∈ pre ++ post) →
      ∀ s ∈ l.flatMap RawEvent.steps, ¬ Reaches path s.path := fun l hl s hs => by
    obtain ⟨e, he, hse⟩ := List.mem_flatMap.mp hs
    exact hev e (hl e he) s.path (path_mem_of_steps hse)
  obtain ⟨hadm₁, hunder₁, hdur₁⟩ := foldl_keeps
    (fun q => q.Admits d path now ∧ q.PendingUnder path ∧
      q.pendingDeletes.duration = p.pendingDeletes.duration) (pre.flatMap RawEvent.steps)
    (fun acc s hs h => ⟨h.1.runStep s,
      h.2.1.runStep d now s (hreach pre (fun e he => List.mem_append_left _ he) s hs),
      (runStep_duration d now acc s).trans h.2.2⟩) (p, []) ⟨hadm, hunder, rfl⟩
  rw [handleBatch_eq_steps, List.flatMap_append, List.flatMap_cons, List.foldl_append,
    List.foldl_append]
  refine Awaits.arm ?_ _ now
  refine foldl_keeps (fun q => q.Awaits path (now + p.pendingDeletes.duration)) _
    (fun acc s hs h => h.runStep d now s
      (hreach post (fun e he => List.mem_append_right _ he) s hs)) _ ?_
  rw [← hdur₁]
  exact awaits_of_scheduleDelete hadm₁ hunder₁

/-! ## A note removed from a wiki -/

/-- A pipeline watching `/w` under no ignore rules, which tracks the note `/w/a.tid` under the
title `b`, with nothing pending, nothing excluded and a grace period of 100 ms. -/
def watchedNote : Pipeline :=
  { index := ({} : IndexSet).run
      [.registerRoot "/w", .insert ⟨"", "/w/a.tid", "b", defaultContentType, false, true⟩]
    queue := {}, exclusions := .new 0, rules := [("/w", ⟨⟨"/w", []⟩, false⟩)],
    pendingDeletes := .new 100, syncTimer := .new 200, vcsTimers := .new 1000,
    cacheFields := false }

/-- The wiki's folder, with the note's file gone. -/
def bareWiki : Disk := ⟨[(["w"], .dir)], 0⟩

theorem isFile_bareWiki_note : bareWiki.isFile "/w/a.tid" = false := by
  have htext : Pathname.ofText "/w/a.tid" = ⟨true, [.name "w", .name "a.tid"], false⟩ := by
    have hend : "/w/a.tid".endsWith "/" = false := by with_unfolding_all decide
    have hstart : "/w/a.tid".startsWith "/" = true := by with_unfolding_all decide
    simp +decide [Pathname.ofText, hend, hstart]
  simp only [Disk.isFile, Disk.stat, Disk.reach, Disk.locate, htext]
  decide

/-- Under the note's rules and with nothing excluded, the note's path is admitted. -/
theorem watchedNote_admits {p : Pipeline} (hrules : p.rules = watchedNote.rules)
    (hx : p.exclusions.entries = []) (now : Nat) : p.Admits bareWiki "/w/a.tid" now := by
  have hbegins : Path.startsWith "/w/a.tid" "/w" = true := by with_unfolding_all decide
  refine ⟨by with_unfolding_all decide, ⟨⟨⟨"/w", []⟩, false⟩, ?_, ?_⟩, ?_⟩
  · simp [Pipeline.rulesFor, hrules, watchedNote, hbegins]
  · simp [Pipeline.ignores, IgnoreRules.isIgnored]
  · simp [Exclusions.excludedAt, Exclusions.entry?, hx]

theorem titleAt_watchedNote : watchedNote.index.titleAt "/w/a.tid" = .ok "b" :=
  Except.eq_ok_of_toOption (by with_unfolding_all decide)

end Pipeline

end WikiSync
