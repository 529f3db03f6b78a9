import WikiSync.Proofs.Watch.Upsert

/-!
# A file removed and created again

A file removed, then created or modified again before its grace period ends, is read again: the
event cancels the removal waiting for the file, and the file's titles are queued as
modifications. This module follows the file from its removal to the event that brings it back,
and past it.

* While the removal waits, nothing else reaches the file (`Pipeline.Awaits.run`, from the
  module on the grace period).
* The event that reads the file again leaves no pending removal that reaches it
  (`Pipeline.Awaits.cancelled`), and inputs that do not reach the file keep it so, ticks at any
  time included (`Pipeline.Clear.run`): no tick settles a removal of the file afterwards
  (`Pipeline.Clear.due`).
* What the read queues is what any read queues (`Pipeline.Recorded`): the kind of the
  modification is a change exactly when the index still tracks the path when the event comes.
* An editor reports a creation and a modification together. The further events of the batch read
  the file again from a pipeline that now tracks it, and keep it read back
  (`Pipeline.Restored.foldl_upsert`): they are accepted as the first one was, since acceptance
  reads only the rules and what is excluded (`Pipeline.accept_snd_congr`).

`Pipeline.removal_then_recreate_is_change` puts these together. The index need not track the
path any more when the event comes: another file may have taken the title meanwhile, and then
the read is queued as an addition (`Pipeline.recreate_after_title_moved_is_add`).
-/

namespace WikiSync

namespace IndexSet

/-- A tracked path lies under a root of the set. -/
theorem root_of_recordAt? {s : IndexSet} {p : String} (h : (s.recordAt? p).isSome = true) :
    ∃ root ∈ s.roots, Path.startsWith p root = true := by
  rcases split_cases s p with ⟨root, rel, ho, -⟩ | ⟨-, herr⟩
  · obtain ⟨hr, hbegins, -⟩ := owns_of_owningRoot? ho
    exact ⟨root, hr, hbegins⟩
  · rw [(lookup_of_split_error herr).1] at h
    cases h

/-- Bundling titles keeps the roots of a sound set. -/
theorem Sound.setBundled_roots {s : IndexSet} (h : s.Sound) (p : String) (ts : List String) :
    (s.setBundled p ts).roots = s.roots := by
  unfold IndexSet.setBundled
  split
  · split
    · rename_i ix hix
      exact update_roots h (index?_eq_some hix).1 (FileIndex.setBundled_root _ _ _)
    · rfl
  · rfl

end IndexSet

namespace Pipeline

/-! ## Events keep the roots -/

section Roots

variable {p : Pipeline} (d : Disk) (now : Nat)

theorem recordDocuments_roots (hs : p.index.Sound) (doc : String) (docs : List Fields) :
    (p.recordDocuments d doc docs).1.index.roots = p.index.roots := by
  unfold recordDocuments
  split
  · rfl
  · dsimp only
    split
    · rfl
    · split
      · rfl
      · rename_i s' _ hins
        exact ((hs.insert hins).setBundled_roots _ _).trans (hs.insert_roots hins)

theorem upsert_roots (hs : p.index.Sound) (path : String) :
    (p.upsert d path now).1.index.roots = p.index.roots := by
  unfold upsert
  rcases hacc : p.accept d path now with ⟨p', _ | doc⟩
  · rw [(accept_fst hacc).1]
  · have hi : p'.index = p.index := (accept_fst hacc).1
    have hs' : ({ p' with pendingDeletes := (p'.pendingDeletes.remove doc).1 } : Pipeline).index.Sound := by
      show p'.index.Sound
      rw [hi]
      exact hs
    dsimp only
    repeat' split
    all_goals first | exact congrArg IndexSet.roots hi | exact (recordDocuments_roots d hs' _ _).trans (congrArg IndexSet.roots hi)

theorem deleteNow_roots (hs : p.index.Sound) (path : String) :
    (p.deleteNow d path now).1.index.roots = p.index.roots := by
  unfold deleteNow
  rcases hacc : p.accept d path now with ⟨p', _ | doc⟩
  · rw [(accept_fst hacc).1]
  · have hi : p'.index = p.index := (accept_fst hacc).1
    have hs' : p'.index.Sound := by rw [hi]; exact hs
    dsimp only
    repeat' split
    all_goals first | exact congrArg IndexSet.roots hi | exact (hs'.removePath_roots _).trans (congrArg IndexSet.roots hi)

theorem runStep_roots (acc : Pipeline × List String) (s : EventStep) (hs : acc.1.index.Sound) :
    (runStep d now acc s).1.index.roots = acc.1.index.roots := by
  obtain ⟨p, touched⟩ := acc
  cases s with
  | upsert path => exact upsert_roots d now hs path
  | scheduleDelete path => exact congrArg IndexSet.roots (scheduleDelete_fst p d path now).1
  | deleteNow path => exact deleteNow_roots d now hs path

/-- A batch of events keeps the roots of a sound index: only adding and removing roots change
them. -/
theorem handleBatch_roots (hs : p.index.Sound) (events : List RawEvent) :
    (p.handleBatch d events now).index.roots = p.index.roots := by
  rw [handleBatch_eq_steps]
  obtain ⟨sync, vcs, harm⟩ := arm_eq ((events.flatMap RawEvent.steps).foldl (runStep d now) (p, [])).1
    ((events.flatMap RawEvent.steps).foldl (runStep d now) (p, [])).2 now
  rw [harm]
  -- soundness is carried along, as each step needs it to keep the roots
  refine (foldl_keeps (fun q => q.index.Sound ∧ q.index.roots = p.index.roots) _
    (fun acc s _ h => ?_) _ ⟨hs, rfl⟩).2
  exact ⟨runStep_sound d now acc s h.1, (runStep_roots d now acc s h.1).trans h.2⟩

/-- With nothing excluded, a batch of events leaves nothing excluded. -/
theorem handleBatch_exclusions_of_nil (h : p.exclusions.entries = []) (events : List RawEvent) :
    (p.handleBatch d events now).exclusions = p.exclusions := by
  rw [handleBatch_eq_steps]
  obtain ⟨sync, vcs, harm⟩ := arm_eq ((events.flatMap RawEvent.steps).foldl (runStep d now) (p, [])).1
    ((events.flatMap RawEvent.steps).foldl (runStep d now) (p, [])).2 now
  rw [harm]
  refine foldl_keeps (fun q => q.exclusions = p.exclusions) _ (fun acc s _ hx => ?_) _ rfl
  obtain ⟨q, touched⟩ := acc
  have hq : q.exclusions.entries = [] := by
    rw [show q.exclusions = p.exclusions from hx]
    exact h
  cases s with
  | upsert path =>
    exact ((upsert_exclusions q d path now).trans (accept_exclusions_of_nil hq d path now)).trans hx
  | scheduleDelete path =>
    exact ((scheduleDelete_exclusions q d path now).trans
      (accept_exclusions_of_nil hq d path now)).trans hx
  | deleteNow path =>
    exact ((deleteNow_exclusions q d path now).trans (accept_exclusions_of_nil hq d path now)).trans hx

end Roots

/-! ## No removal reaches the file -/

/-- No pending removal reaches the file at `path` when it is settled. -/
def Clear (p : Pipeline) (path : String) : Prop :=
  ∀ e ∈ p.pendingDeletes.pending, Path.components (documentOf e.1) ≠ Path.components path

/-- An input that no event of a batch of which reaches the file at `path`. -/
def Input.Quiet (path : String) : Input → Prop
  | .batch _ events _ => ∀ e ∈ events, ∀ q ∈ e.paths, ¬ Reaches path q
  | _ => True

section Clear

variable {path : String}

/-- Pending removals under keys that were pending keep the file clear. -/
theorem Clear.of_keys {p q : Pipeline} (hc : p.Clear path)
    (h : ∀ e ∈ q.pendingDeletes.pending, ∃ e' ∈ p.pendingDeletes.pending, e'.1 = e.1) :
    q.Clear path := fun e he hdoc => by
  obtain ⟨e', he', hkey⟩ := h e he
  exact hc e' he' (hkey ▸ hdoc)

theorem Clear.of_subset {p q : Pipeline} (hc : p.Clear path)
    (h : q.pendingDeletes.pending ⊆ p.pendingDeletes.pending) : q.Clear path :=
  hc.of_keys fun e he => ⟨e, h he, rfl⟩

/-- The file stays clear under the same pending removals. -/
theorem Clear.congr {p q : Pipeline} (hc : p.Clear path)
    (h : q.pendingDeletes = p.pendingDeletes) : q.Clear path :=
  fun e he => hc e (h ▸ he)

theorem remove_subset (db : Debouncer) (k : String) : (db.remove k).1.pending ⊆ db.pending :=
  fun _ he => (List.mem_filter.mp he).1

theorem Clear.upsert {p : Pipeline} (hc : p.Clear path) (d : Disk) (q : String) (now : Nat) :
    (p.upsert d q now).1.Clear path := by
  rcases upsert_pendingDeletes p d q now with h | h
  · exact hc.congr h
  · exact hc.of_subset (by rw [h]; exact remove_subset _ _)

theorem Clear.deleteNow {p : Pipeline} (hc : p.Clear path) (d : Disk) (q : String) (now : Nat) :
    (p.deleteNow d q now).1.Clear path := by
  rcases deleteNow_pendingDeletes p d q now with h | h
  · exact hc.congr h
  · exact hc.of_subset (by rw [h]; exact remove_subset _ _)

/-- A removal that does not reach the file records a key whose settling does not reach it. -/
theorem Clear.scheduleDelete {p : Pipeline} (hc : p.Clear path) (d : Disk) {q : String}
    (now : Nat) (hq : ¬ Reaches path q) : (p.scheduleDelete d q now).Clear path := by
  rcases scheduleDelete_pendingDeletes p d q now with h | h
  · exact hc.congr h
  · intro e he hdoc
    rw [h] at he
    rcases Debouncer.mem_record he with ⟨e', he', hkey⟩ | hkey
    · exact hc e' he' (hkey ▸ hdoc)
    · rw [hkey] at hdoc
      exact hq (.inr hdoc)

theorem Clear.arm {p : Pipeline} (hc : p.Clear path) (touched : List String) (now : Nat) :
    (p.arm touched now).Clear path := by
  obtain ⟨sync, vcs, harm⟩ := arm_eq p touched now
  exact hc.congr (by rw [harm])

theorem Clear.runStep {acc : Pipeline × List String} (hc : acc.1.Clear path) (d : Disk)
    (now : Nat) (s : EventStep) (hs : ¬ Reaches path s.path) : (runStep d now acc s).1.Clear path := by
  obtain ⟨p, touched⟩ := acc
  cases s with
  | upsert q => exact hc.upsert d q now
  | scheduleDelete q => exact hc.scheduleDelete d now hs
  | deleteNow q => exact hc.deleteNow d q now

/-- A batch none of whose events reaches the file keeps it clear. -/
theorem Clear.handleBatch {p : Pipeline} (hc : p.Clear path) (d : Disk) (events : List RawEvent)
    (now : Nat) (hev : ∀ e ∈ events, ∀ q ∈ e.paths, ¬ Reaches path q) :
    (p.handleBatch d events now).Clear path := by
  rw [handleBatch_eq_steps]
  refine Clear.arm ?_ _ now
  refine foldl_keeps (fun q => q.Clear path) _ (fun acc s hs h => ?_) _ hc
  obtain ⟨e, he, hse⟩ := List.mem_flatMap.mp hs
  exact h.runStep d now s (hev e he s.path (path_mem_of_steps hse))

theorem Clear.settleDelete {acc : Pipeline × List String} (hc : acc.1.Clear path) (d : Disk)
    (now : Nat) (k : String) : (WikiSync.Pipeline.settleDelete d now acc k).1.Clear path := by
  obtain ⟨p, touched⟩ := acc
  unfold Pipeline.settleDelete
  by_cases hf : d.isFile k = true
  · simp only [hf, if_true]
    exact hc.upsert d k now
  · simp only [hf, Bool.false_eq_true, if_false]
    exact hc.deleteNow d k now

/-- A tick, at any time, keeps the file clear: it settles only removals that do not reach it. -/
theorem Clear.tick {p : Pipeline} (hc : p.Clear path) (d : Disk) (now : Nat) :
    (p.tick d now).1.Clear path := by
  rw [tick_fst]
  have hstart : (p.settleStart now).Clear path :=
    hc.of_subset fun _ he => (List.mem_filter.mp he).1
  have hsettled := foldl_keeps (fun q => q.Clear path) (p.dueDeletions now)
    (fun acc k _ h => h.settleDelete d now k) (p.settleStart now, []) hstart
  exact (hsettled.arm _ now).of_subset fun _ he => he

/-- Every quiet input keeps the file clear. -/
theorem Clear.step {p : Pipeline} (hc : p.Clear path) :
    ∀ i : Input, i.Quiet path → (p.step i).Clear path
  | .batch d events now, hi => hc.handleBatch d events now hi
  | .tick d now, _ => hc.tick d now
  | .addRoot _, _ => hc.of_subset fun _ he => he
  | .removeRoot _, _ => hc.of_subset fun _ he => (List.mem_filter.mp he).1
  | .updateIgnore _ _, _ => hc.of_subset fun _ he => he
  | .exclusions _, _ => hc.of_subset fun _ he => he
  | .queue _, _ => hc.of_subset fun _ he => he

/-- A run of quiet inputs keeps the file clear. -/
theorem Clear.run {p : Pipeline} (hc : p.Clear path) (inputs : List Input)
    (hi : ∀ i ∈ inputs, i.Quiet path) : (p.run inputs).Clear path := by
  induction inputs generalizing p with
  | nil => exact hc
  | cons i inputs ih =>
    exact ih (hc.step i (hi i List.mem_cons_self)) fun j hj => hi j (List.mem_cons_of_mem i hj)

/-- While the file is clear, no removal due at a tick reaches it. -/
theorem Clear.due {p : Pipeline} (hc : p.Clear path) (now : Nat) :
    ∀ k ∈ p.dueDeletions now, Path.components (documentOf k) ≠ Path.components path := by
  intro k hk
  obtain ⟨e, he, rfl⟩ := List.mem_map.mp hk
  exact hc e (List.mem_filter.mp he).1

end Clear

/-! ## The events that bring the file back -/

/-- An event accepted as an event of the file at `path` cancels the file's pending removal and
leaves every other pending removal as it was. -/
theorem upsert_pendingDeletes_of_accept {q : Pipeline} {d : Disk} {ev path : String} {now : Nat}
    (hacc : (q.accept d ev now).2 = some path) :
    (q.upsert d ev now).1.pendingDeletes = (q.pendingDeletes.remove path).1 := by
  obtain ⟨x, hup⟩ := upsert_of_accept hacc
  rw [hup]
  split
  · exact recordDocuments_pendingDeletes _ _ _ _
  · rfl

/-- The event that reads a file whose removal waits cancels it, and with it every removal that
reaches the file. -/
theorem Awaits.cancelled {q : Pipeline} {path : String} {deadline : Nat}
    (hw : q.Awaits path deadline) {d : Disk} {ev : String} {now : Nat}
    (hacc : (q.accept d ev now).2 = some path) : (q.upsert d ev now).1.Clear path := by
  intro e' he' hdoc
  rw [upsert_pendingDeletes_of_accept hacc] at he'
  obtain ⟨hmem, hkeep⟩ := List.mem_filter.mp he'
  obtain rfl := hw.only e' hmem hdoc
  simp [Path.same] at hkeep

/-- What reading the file at `path` back leaves, its first document titled `t`. -/
structure Reread (q : Pipeline) (path t : String) : Prop where
  /-- No removal of the file is pending. -/
  cancelled : q.pendingDeletes.isPending path = false
  /-- The title waits as a modification, and not as a deletion. -/
  modified : q.queue.isModified t = true ∧ q.queue.isDeleted t = false
  /-- The modification is a change. -/
  change : (q.queue.pending t).map (·.kind) = some .change
  /-- The path is tracked under the title. -/
  tracked : (q.index.recordAt? path).map (·.title) = some t
  /-- The title's record is the path's. -/
  found : q.index.recordForTitle? t = q.index.recordAt? path
  /-- No tick settles a removal of the file while no event reaches it. -/
  spared : ∀ later : List Input, (∀ i ∈ later, i.Quiet path) →
    ∀ now, ∀ k ∈ (q.run later).dueDeletions now,
      Path.components (documentOf k) ≠ Path.components path

/-- What the events that bring the file at `path` back keep, its first document titled `t`: the
index is sound, no pending removal reaches the file, and the file is read back as `Reread`
says. -/
structure Restored (q : Pipeline) (path t : String) : Prop where
  /-- The index is sound. -/
  sound : q.index.Sound
  /-- No pending removal reaches the file. -/
  clear : q.Clear path
  /-- No removal of the file is pending. -/
  cancelled : q.pendingDeletes.isPending path = false
  /-- The title waits as a modification, and not as a deletion. -/
  modified : q.queue.isModified t = true ∧ q.queue.isDeleted t = false
  /-- The modification is a change. -/
  change : (q.queue.pending t).map (·.kind) = some .change
  /-- The path is tracked under the title. -/
  tracked : (q.index.recordAt? path).map (·.title) = some t
  /-- The title's record is the path's. -/
  found : q.index.recordForTitle? t = q.index.recordAt? path

/-- A restored file is read back: no tick settles a removal of it while no event reaches it. -/
theorem Restored.reread {q : Pipeline} {path t : String} (h : q.Restored path t) :
    q.Reread path t :=
  ⟨h.cancelled, h.modified, h.change, h.tracked, h.found,
    fun later hlater now => (h.clear.run later hlater).due now⟩

/-- Arming the timers keeps a restored file restored. -/
theorem Restored.arm {q : Pipeline} {path t : String} (h : q.Restored path t)
    (touched : List String) (now : Nat) : (q.arm touched now).Restored path t := by
  obtain ⟨sync, vcs, harm⟩ := arm_eq q touched now
  rw [harm]
  exact ⟨h.sound, h.clear.congr rfl, h.cancelled, h.modified, h.change, h.tracked, h.found⟩

/-- An event that reads the file again, from a pipeline whose sound index tracks the path,
leaves the file restored under its first title, once no pending removal reaches it. -/
theorem restored_upsert {p : Pipeline} {d : Disk} {ev path : String} {now : Nat}
    {first : Fields} {rest : List Fields} (hs : p.index.Sound)
    (hacc : (p.accept d ev now).2 = some path) (hread : p.readFile d path = some (first :: rest))
    (htracked : (p.index.recordAt? path).isSome = true) (hclear : (p.upsert d ev now).1.Clear path) :
    (p.upsert d ev now).1.Restored path (titleOf first) := by
  obtain ⟨root, rel, -, -, hrec, hpend, -, -⟩ :=
    upsert_read p d now hs hacc (IndexSet.root_of_recordAt? htracked) hread
  obtain ⟨fs', -, -, hload⟩ := hrec.loads first List.mem_cons_self
  refine ⟨upsert_sound d now hs ev, hclear, hpend, hrec.modified first List.mem_cons_self, ?_, ?_,
    hrec.found⟩
  · rw [hload, htracked]
    rfl
  · rw [hrec.recorded]
    rfl

/-- Further events of a batch that read the file again keep it restored. Each is accepted as it
would have been before the batch, since acceptance reads only the rules and what is excluded,
which every step keeps; and each reads the same documents, since reading depends on the rules
alone. -/
theorem Restored.foldl_upsert {q : Pipeline} {d : Disk} {path : String} {now : Nat}
    {first : Fields} {rest : List Fields} (hread : q.readFile d path = some (first :: rest)) :
    ∀ (steps : List EventStep),
      (∀ s ∈ steps, ∃ ev, s = .upsert ev ∧ (q.accept d ev now).2 = some path) →
      ∀ acc : Pipeline × List String, acc.1.Restored path (titleOf first) →
        acc.1.rules = q.rules →
        (∀ x, acc.1.exclusions.excludedAt x now = q.exclusions.excludedAt x now) →
        (steps.foldl (runStep d now) acc).1.Restored path (titleOf first)
  | [], _, _, h, _, _ => h
  | s :: steps, hsteps, ⟨p, touched⟩, h, hr, hx => by
    obtain ⟨ev, rfl, hacc⟩ := hsteps s List.mem_cons_self
    have hacc' : (p.accept d ev now).2 = some path := (accept_snd_congr d ev now hr hx).trans hacc
    have hread' : p.readFile d path = some (first :: rest) := (readFile_congr hr d path).trans hread
    have htracked : (p.index.recordAt? path).isSome = true := by
      simpa using congrArg Option.isSome h.tracked
    refine Restored.foldl_upsert hread steps
      (fun s' hs' => hsteps s' (List.mem_cons_of_mem _ hs')) _
      (restored_upsert h.sound hacc' hread' htracked (h.clear.upsert d ev now))
      ((runStep_rules d now (p, touched) (.upsert ev)).trans hr) fun x => ?_
    exact (excludedAt_runStep d now (p, touched) (.upsert ev) x).trans (hx x)

/-- A removal followed by a recreation is a modification. A removal of the file at `path`,
admitted at `t₀` and reported in a batch of its own, every removal pending for the file before
being recorded under its name, is followed by a run of inputs that spare the file until the end
of its grace period. Then a batch of created or modified events, such as the creation and the
modification an editor reports together, each accepted as an event of the file, finds it holding
documents and the index still tracking the path. The removal waited until then, and the batch
reads the file back as `Reread` says: its first title is queued as a change, the path keeps that
title, and no removal of the file is left to settle. The batch's own time does not matter: only
a tick settles a removal, and the inputs before it ticked before the deadline. -/
theorem removal_then_recreate_is_change {p q : Pipeline} {d₀ d : Disk} {events : List RawEvent}
    {path : String} {t₀ t₁ : Nat} {first : Fields} {rest : List Fields} (inputs : List Input)
    (hs : p.index.Sound) (hunder : p.PendingUnder path) (hadm : p.Admits d₀ path t₀)
    (hspare : ∀ i ∈ inputs, i.Spares path (t₀ + p.pendingDeletes.duration))
    (hq : (p.handleBatch d₀ [.removed path] t₀).run inputs = q) (hne : events ≠ [])
    (hev : ∀ e ∈ events, ∃ ev, (e = .created ev ∨ e = .modified ev) ∧
      (q.accept d ev t₁).2 = some path)
    (hread : q.readFile d path = some (first :: rest))
    (htracked : (q.index.recordAt? path).isSome = true) :
    q.Awaits path (t₀ + p.pendingDeletes.duration) ∧
      (q.handleBatch d events t₁).Reread path (titleOf first) := by
  have hsound : q.index.Sound := hq ▸ run_sound (handleBatch_sound d₀ t₀ hs _) inputs
  have hawaits : q.Awaits path (t₀ + p.pendingDeletes.duration) :=
    hq ▸ (awaits_of_removed hadm hunder).run inputs hspare
  refine ⟨hawaits, ?_⟩
  obtain ⟨e, more, rfl⟩ := List.exists_cons_of_ne_nil hne
  obtain ⟨ev, he, hacc⟩ := hev e List.mem_cons_self
  have hsteps : ∀ s ∈ more.flatMap RawEvent.steps,
      ∃ ev', s = .upsert ev' ∧ (q.accept d ev' t₁).2 = some path := by
    intro s hs'
    obtain ⟨e', he', hs'⟩ := List.mem_flatMap.mp hs'
    obtain ⟨ev', he'', hacc'⟩ := hev e' (List.mem_cons_of_mem e he')
    rcases he'' with rfl | rfl <;> exact ⟨ev', List.mem_singleton.mp hs', hacc'⟩
  have hfirst : (e :: more).flatMap RawEvent.steps = .upsert ev :: more.flatMap RawEvent.steps := by
    rcases he with rfl | rfl <;> rfl
  have h₁ : (q.upsert d ev t₁).1.Restored path (titleOf first) :=
    restored_upsert hsound hacc hread htracked (hawaits.cancelled hacc)
  rw [handleBatch_eq_steps, hfirst, List.foldl_cons]
  exact ((Restored.foldl_upsert hread _ hsteps _ h₁ (runStep_rules d t₁ (q, []) (.upsert ev))
    (excludedAt_runStep d t₁ (q, []) (.upsert ev))).arm _ t₁).reread

/-! ## A text file removed and created again -/

section Text

/-- The removal of the text file leaves the wiki's index, rules and exclusions as they were. -/
theorem textWiki_removed :
    (textWiki.handleBatch movedText [.removed "/w/a.txt"] 0).index = textWiki.index ∧
      (textWiki.handleBatch movedText [.removed "/w/a.txt"] 0).rules = textWiki.rules ∧
      (textWiki.handleBatch movedText [.removed "/w/a.txt"] 0).exclusions = textWiki.exclusions :=
  ⟨(scheduleDelete_fst textWiki movedText "/w/a.txt" 0).1, handleBatch_rules textWiki movedText 0 _,
    handleBatch_exclusions_of_nil movedText 0 rfl _⟩

/-- The text file `/w/a.txt`, removed at 0, is created and then modified again at 20, before
its grace period ends, in one batch: it is read back as a change. -/
theorem text_removal_then_recreate_is_change :
    let q := textWiki.handleBatch movedText [.removed "/w/a.txt"] 0
    let events := [RawEvent.created "/w/a.txt", .modified "/w/a.txt"]
    textWiki.index.Sound ∧ textWiki.PendingUnder "/w/a.txt" ∧
      textWiki.Admits movedText "/w/a.txt" 0 ∧
      (∀ i ∈ ([] : List Input), i.Spares "/w/a.txt" (0 + textWiki.pendingDeletes.duration)) ∧
      events ≠ [] ∧
      (∀ e ∈ events, ∃ ev, (e = .created ev ∨ e = .modified ev) ∧
        (q.accept bothTexts ev 20).2 = some "/w/a.txt") ∧
      q.readFile bothTexts "/w/a.txt" = some [textDoc] ∧
      (q.index.recordAt? "/w/a.txt").isSome ∧
      q.Awaits "/w/a.txt" (0 + textWiki.pendingDeletes.duration) ∧
      (q.handleBatch bothTexts events 20).Reread "/w/a.txt" (titleOf textDoc) := by
  intro q events
  obtain ⟨hs, htitle, -⟩ := textWiki_index
  obtain ⟨hside, -, hbegins, -⟩ := text_paths
  obtain ⟨hix, hrules, hx⟩ := textWiki_removed
  have hadm : textWiki.Admits movedText "/w/a.txt" 0 :=
    textWiki_admits rfl movedText hside hbegins (textWiki_excludes_nothing _ _)
  have hunder : textWiki.PendingUnder "/w/a.txt" := fun _ he => absurd he List.not_mem_nil
  have hadm₁ : q.Admits bothTexts "/w/a.txt" 20 :=
    textWiki_admits hrules bothTexts hside hbegins (by rw [hx]; exact textWiki_excludes_nothing _ _)
  obtain ⟨x, hacc, -⟩ := accept_of_admits hadm₁
  have hacc' : (q.accept bothTexts "/w/a.txt" 20).2 = some "/w/a.txt" := by rw [hacc]
  have hev : ∀ e ∈ events, ∃ ev, (e = .created ev ∨ e = .modified ev) ∧
      (q.accept bothTexts ev 20).2 = some "/w/a.txt" := by
    intro e he
    rcases List.mem_cons.mp he with rfl | he
    · exact ⟨"/w/a.txt", .inl rfl, hacc'⟩
    · rw [List.mem_singleton.mp he]
      exact ⟨"/w/a.txt", .inr rfl, hacc'⟩
  obtain ⟨r, hr, -⟩ := hadm₁.watched
  have hread := readFile_of_holds hr bothTexts_holds
  have htracked : (q.index.recordAt? "/w/a.txt").isSome = true := by
    obtain ⟨r, hr, -⟩ := IndexSet.recordAt?_of_titleAt htitle
    rw [hix, hr]
    rfl
  exact ⟨hs, hunder, hadm, fun _ h => absurd h List.not_mem_nil, List.cons_ne_nil _ _, hev, hread,
    htracked, removal_then_recreate_is_change [] hs hunder hadm (fun _ h => absurd h List.not_mem_nil)
      rfl (List.cons_ne_nil _ _) hev hread htracked⟩

/-- The text file `/w/a.txt`, tracked under `a`, is removed at 0 while a copy of it appears at
`/w/x/a.txt`, reported at 10; the file is created again at 20, within its grace period. The copy
took the title `a` in between, so the index no longer tracked the path when the file came back,
and `a` is queued as an addition, not as a change. -/
theorem recreate_after_title_moved_is_add :
    let q₁ := textWiki.handleBatch movedText [.removed "/w/a.txt"] 0
    let q₂ := q₁.handleBatch movedText [.created "/w/x/a.txt"] 10
    let q₃ := q₂.handleBatch bothTexts [.created "/w/a.txt"] 20
    textWiki.index.titleAt "/w/a.txt" = .ok "a" ∧ textWiki.Admits movedText "/w/a.txt" 0 ∧
      q₂.Admits bothTexts "/w/a.txt" 20 ∧ 20 < 0 + textWiki.pendingDeletes.duration ∧
      bothTexts.HoldsDocuments "/w/a.txt" [textDoc] ∧ titleOf textDoc = "a" ∧
      (q₃.queue.pending "a").map (·.kind) = some .add := by
  intro q₁ q₂ q₃
  obtain ⟨hs, htitle, hroot⟩ := textWiki_index
  obtain ⟨hside_a, hside_xa, hbegins_a, hbegins_xa⟩ := text_paths
  obtain ⟨hix₁, hrules₁, hx₁⟩ := textWiki_removed
  have htd : titleOf textDoc = "a" := rfl
  have hne : Path.components "/w/a.txt" ≠ Path.components "/w/x/a.txt" := by
    rw [components_a, components_xa]
    simp
  have hs₁ : q₁.index.Sound := hix₁ ▸ hs
  have hadm₁ : q₁.Admits movedText "/w/x/a.txt" 10 :=
    textWiki_admits hrules₁ movedText hside_xa hbegins_xa
      (by rw [hx₁]; exact textWiki_excludes_nothing _ _)
  obtain ⟨x₁, hacc₁, -⟩ := accept_of_admits hadm₁
  obtain ⟨r₁, hr₁, -⟩ := hadm₁.watched
  obtain ⟨root₁, rel₁, -, hrec₂, -⟩ := handleBatch_read q₁ movedText 10 (.inl rfl) hs₁
    (by rw [hacc₁]) ⟨"/w", hix₁ ▸ hroot, hbegins_xa⟩ (readFile_of_holds hr₁ movedText_holds)
  have hgone : q₂.index.recordAt? "/w/a.txt" = none := by
    obtain ⟨r, hr, hrt⟩ := IndexSet.recordAt?_of_titleAt htitle
    rw [hrec₂.elsewhere "/w/a.txt" hne, hix₁, hr, if_pos (by rw [Option.map_some, hrt, htd])]
  have hrules₂ : q₂.rules = textWiki.rules := (handleBatch_rules q₁ movedText 10 _).trans hrules₁
  have hx₂ : q₂.exclusions = textWiki.exclusions :=
    (handleBatch_exclusions_of_nil movedText 10 (by rw [hx₁]; rfl) _).trans hx₁
  have hroots₂ : q₂.index.roots = textWiki.index.roots :=
    (handleBatch_roots movedText 10 hs₁ _).trans (congrArg IndexSet.roots hix₁)
  have hadm₂ : q₂.Admits bothTexts "/w/a.txt" 20 :=
    textWiki_admits hrules₂ bothTexts hside_a hbegins_a
      (by rw [hx₂]; exact textWiki_excludes_nothing _ _)
  obtain ⟨x₂, hacc₂, -⟩ := accept_of_admits hadm₂
  obtain ⟨r₂, hr₂, -⟩ := hadm₂.watched
  obtain ⟨root₂, rel₂, -, hrec₃, -⟩ := handleBatch_read q₂ bothTexts 20 (.inl rfl)
    (handleBatch_sound movedText 10 hs₁ _) (by rw [hacc₂]) ⟨"/w", hroots₂ ▸ hroot, hbegins_a⟩
      (readFile_of_holds hr₂ bothTexts_holds)
  obtain ⟨fs', -, -, hload⟩ := hrec₃.loads textDoc List.mem_cons_self
  refine ⟨htitle, textWiki_admits rfl movedText hside_a hbegins_a (textWiki_excludes_nothing _ _),
    hadm₂, by decide, bothTexts_holds, htd, ?_⟩
  rw [← htd, hload, hgone]
  rfl

end Text

end Pipeline

end WikiSync
