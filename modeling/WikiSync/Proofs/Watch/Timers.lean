import Mathlib.Data.List.MinMax
import WikiSync.Proofs.Watch.Recreate
import WikiSync.Proofs.Watch.QueueHistory

/-!
# Debounced timers

The pipeline keeps three debouncers: removed files waiting out their grace period, keyed by
path; the sync timer, under the empty key; and a timer for each root. This module states what
the timers do over a run of batches and ticks.

* A batch, and the settling of due removals in a tick, acts on the change queue by performing a
  list of queue calls, whatever queue it finds (`Pipeline.Performs`). It arms the sync timer
  exactly when that list is not empty, and the timer of a root exactly when one of the calls is
  about a path the root owns; arming a timer sets its deadline to the debounce duration from now,
  pushing an earlier deadline back, and leaves the other keys alone.
* A tick reports sync exactly when the sync timer it polls, armed by the tick's own settling, has
  a deadline at or before now, and reports each root whose timer has, once; what it reports is
  taken out, so each arming is reported at most once.
* The next deadline is the least deadline of any timer, and there is none exactly when nothing
  is pending.
* A removal waits for its grace deadline and is settled by the first tick at or after it, unless
  something reaches the file before: an event about the file, a root taken away that holds it,
  or the settling of another removal whose document file is this one. The last is what a removal
  of a sidecar's sidecar leaves pending: settling it reads or deletes the sidecar's document
  file, and cancels that file's own removal, which may not yet be due.

Put together (`Pipeline.run_debounced`): every state a run reaches from a steady pipeline, one
with a sound index and no two timers of roots naming one path, has debounced timers
(`Pipeline.Debounced`).
-/

namespace WikiSync

namespace Debouncer

@[simp] theorem record_duration (db : Debouncer) (k : String) (now : Nat) :
    (db.record k now).1.duration = db.duration :=
  rfl

/-- Recording a key leaves the entries of a key naming another path as they were. -/
theorem record_filter_of_ne (db : Debouncer) {k' k : String} (h : Path.same k' k = false)
    (now : Nat) :
    (db.record k' now).1.pending.filter (Path.same ·.1 k) = db.pending.filter (Path.same ·.1 k) := by
  have hne : ∀ e : String × Nat, Path.same e.1 k = true → Path.same e.1 k' = false := by
    intro e he
    simp only [Path.same_eq, decide_eq_true_eq, decide_eq_false_iff_not] at he h ⊢
    exact fun he' => h (he'.symm.trans he)
  unfold record
  dsimp only
  split
  · induction db.pending with
    | nil => rfl
    | cons e l ih =>
      by_cases he : Path.same e.1 k = true
      · simp [he, hne e he, ih]
      · by_cases he' : Path.same e.1 k' = true <;> simp [he, he', ih]
  · simp [List.filter_append, h]

/-- Whether a key is armed, and for when, is read off the entries of its path. -/
theorem ArmedAt.of_filter {db db' : Debouncer} {k : String} {t : Nat}
    (h : db'.pending.filter (Path.same ·.1 k) = db.pending.filter (Path.same ·.1 k))
    (ha : db.ArmedAt k t) : db'.ArmedAt k t := by
  have hmem : ∀ e, e ∈ db'.pending ∧ Path.same e.1 k = true ↔
      e ∈ db.pending ∧ Path.same e.1 k = true := fun e => by
    simpa only [List.mem_filter, eq_iff_iff] using congrArg (e ∈ ·) h
  obtain ⟨hpend, hdue⟩ := ha
  refine ⟨?_, fun e he hs => hdue e ((hmem e).mp ⟨he, hs⟩).1 hs⟩
  obtain ⟨e, he, hs⟩ := List.any_eq_true.mp hpend
  exact List.any_eq_true.mpr ⟨e, ((hmem e).mpr ⟨he, hs⟩).1, hs⟩

/-- Keys naming one path are armed alike. -/
theorem ArmedAt.of_same {db : Debouncer} {k k' : String} {t : Nat} (hs : Path.same k k' = true)
    (ha : db.ArmedAt k t) : db.ArmedAt k' t := by
  have hiff : ∀ x, Path.same x k = Path.same x k' := fun x => by
    simp only [Path.same_eq, decide_eq_true_eq] at hs ⊢
    rw [hs]
  obtain ⟨hpend, hdue⟩ := ha
  refine ⟨?_, fun e he he' => hdue e he (by rw [hiff]; exact he')⟩
  unfold isPending at hpend ⊢
  simpa only [hiff] using hpend

theorem foldl_record_filter (ks : List String) (now : Nat) {k : String}
    (hk : ∀ r ∈ ks, Path.same r k = false) (db : Debouncer) :
    (ks.foldl (fun t r => (t.record r now).1) db).pending.filter (Path.same ·.1 k) =
      db.pending.filter (Path.same ·.1 k) := by
  induction ks generalizing db with
  | nil => rfl
  | cons r ks ih =>
    rw [List.foldl_cons, ih (fun r' hr' => hk r' (List.mem_cons_of_mem r hr')),
      record_filter_of_ne db (hk r List.mem_cons_self)]

/-- Recording a run of keys arms every key naming the path of one of them, for the debounce
duration from now. -/
theorem foldl_record_armedAt (ks : List String) (now : Nat) {k : String}
    (hk : ∃ r ∈ ks, Path.same r k = true) (db : Debouncer) :
    (ks.foldl (fun t r => (t.record r now).1) db).ArmedAt k (now + db.duration) := by
  induction ks generalizing db with
  | nil => simp at hk
  | cons r ks ih =>
    rw [List.foldl_cons]
    by_cases hlater : ∃ r' ∈ ks, Path.same r' k = true
    · simpa using ih hlater (db.record r now).1
    · have hr : Path.same r k = true := by
        obtain ⟨r', hr', hs⟩ := hk
        rcases List.mem_cons.mp hr' with rfl | hr'
        · exact hs
        · exact absurd ⟨r', hr', hs⟩ hlater
      have hrest : ∀ r' ∈ ks, Path.same r' k = false := fun r' hr' => by
        simpa using fun hs => hlater ⟨r', hr', hs⟩
      exact ArmedAt.of_filter (foldl_record_filter ks now hrest _)
        ((record_armedAt db r now).of_same hr)

/-- Folding deadlines into the least one so far. -/
theorem foldl_nextDeadline (l : List (String × Nat)) (m : Option Nat) :
    l.foldl (fun m e => match m with
      | none => some e.2
      | some x => some (min x e.2)) m = (m.toList ++ l.map (·.2)).min? := by
  induction l generalizing m with
  | nil => cases m <;> rfl
  | cons e l ih =>
    rw [List.foldl_cons, ih]
    cases m with
    | none => rfl
    | some x => simp [List.min?]

/-- The earliest deadline of a debouncer is the least of its pending deadlines. -/
theorem nextDeadline_eq_min? (db : Debouncer) :
    db.nextDeadline = (db.pending.map (·.2)).min? :=
  foldl_nextDeadline db.pending none

/-- The keys of a debouncer name different paths. -/
def Distinct (db : Debouncer) : Prop :=
  (db.pending.map fun e => Path.components e.1).Nodup

theorem Distinct.new (duration : Nat) : (Debouncer.new duration).Distinct :=
  List.nodup_nil

theorem Distinct.filter {db : Debouncer} (h : db.Distinct) (keep : String × Nat → Bool) :
    ({ db with pending := db.pending.filter keep } : Debouncer).Distinct :=
  h.sublist (List.filter_sublist.map _)

/-- Recording a key moves its entry, or appends it when no key names its path. -/
theorem Distinct.record {db : Debouncer} (h : db.Distinct) (k : String) (now : Nat) :
    (db.record k now).1.Distinct := by
  unfold Debouncer.record Distinct
  dsimp only
  by_cases hp : db.isPending k = true
  · have hkeys : ((db.pending.map fun e => if Path.same e.1 k then (e.1, now + db.duration) else e).map
        fun e => Path.components e.1) = db.pending.map fun e => Path.components e.1 := by
      rw [List.map_map]
      refine List.map_congr_left fun e _ => ?_
      by_cases hs : Path.same e.1 k = true <;> simp [hs]
    simp only [hp, if_true, hkeys]
    exact h
  · simp only [Bool.not_eq_true] at hp
    simp only [hp, Bool.false_eq_true, if_false, List.map_append, List.map_cons, List.map_nil]
    refine List.nodup_append.mpr ⟨h, List.nodup_singleton _, fun a ha b hb => ?_⟩
    obtain ⟨e, he, rfl⟩ := List.mem_map.mp ha
    rw [List.mem_singleton.mp hb]
    exact isPending_eq_false.mp hp e he

theorem Distinct.foldl_record {db : Debouncer} (h : db.Distinct) (ks : List String) (now : Nat) :
    (ks.foldl (fun t r => (t.record r now).1) db).Distinct := by
  induction ks generalizing db with
  | nil => exact h
  | cons k ks ih => exact ih (h.record k now)

theorem Distinct.takeReady {db : Debouncer} (h : db.Distinct) (now : Nat) :
    (db.takeReady now).1.Distinct :=
  h.filter _

/-- The keys taken out together name different paths. -/
theorem Distinct.takeReady_keys {db : Debouncer} (h : db.Distinct) (now : Nat) :
    ((db.takeReady now).2.map Path.components).Nodup := by
  unfold Debouncer.takeReady
  rw [List.map_map]
  exact h.sublist (List.filter_sublist.map _)

end Debouncer

/-- The change a call queues, if it queues one. -/
def QueueCall.change? : QueueCall → Option PendingChange
  | .modify _ c | .delete _ c => some c
  | _ => none

namespace IndexSet

/-- Which roots own a path depends on the path's components only. -/
theorem Owns.of_components {s : IndexSet} {a b root : String}
    (h : Path.components a = Path.components b) (ha : s.Owns a root) : s.Owns b root := by
  unfold Owns Path.startsWith at *
  rw [← h]
  exact ha

/-- Which roots own a path depends on the registered roots only. -/
theorem Owns.of_roots {s s' : IndexSet} {a root : String} (h : s.roots = s'.roots)
    (ha : s.Owns a root) : s'.Owns a root := by
  unfold Owns at *
  rw [← h]
  exact ha

/-- A path that splits at a root is owned by it. -/
theorem owns_of_split {s : IndexSet} {a root rel : String} (h : s.split a = .ok (root, rel)) :
    s.Owns a root := by
  rcases split_cases s a with ⟨root', rel', ho, hok⟩ | ⟨-, herr⟩
  · rw [hok] at h
    cases h
    exact owns_of_owningRoot? ho
  · rw [herr] at h
    cases h

end IndexSet

namespace Pipeline

/-! ## The next deadline -/

/-- Every deadline the pipeline waits for: its removals', its sync timer's and its roots'. -/
def deadlines (p : Pipeline) : List Nat :=
  (p.pendingDeletes.pending ++ p.syncTimer.pending ++ p.vcsTimers.pending).map (·.2)

/-- The least of two lists of deadlines is the lesser of their least ones. -/
theorem min?_append (a b : List Nat) : (a ++ b).min? = Option.merge min a.min? b.min? := by
  cases a with
  | nil => cases b <;> rfl
  | cons x a =>
    cases b with
    | nil => simp
    | cons y b =>
      simp only [List.min?, List.cons_append, List.foldl_append, List.foldl_cons, Option.merge]
      rw [List.foldl_assoc]

/-- The next deadline of a pipeline is the least deadline it waits for. -/
theorem nextDeadline_eq_min? (p : Pipeline) : p.nextDeadline = p.deadlines.min? := by
  unfold nextDeadline deadlines
  rw [p.pendingDeletes.nextDeadline_eq_min?, p.syncTimer.nextDeadline_eq_min?,
    p.vcsTimers.nextDeadline_eq_min?, List.map_append, List.map_append, min?_append, min?_append]
  generalize (p.pendingDeletes.pending.map (·.2)).min? = a
  generalize (p.syncTimer.pending.map (·.2)).min? = b
  generalize (p.vcsTimers.pending.map (·.2)).min? = c
  cases a <;> cases b <;> cases c <;> rfl

theorem nextDeadline_eq_some_iff (p : Pipeline) (t : Nat) :
    p.nextDeadline = some t ↔ t ∈ p.deadlines ∧ ∀ u ∈ p.deadlines, t ≤ u := by
  rw [nextDeadline_eq_min?, List.min?_eq_some_iff]

theorem nextDeadline_eq_none_iff (p : Pipeline) :
    p.nextDeadline = none ↔
      p.pendingDeletes.pending = [] ∧ p.syncTimer.pending = [] ∧ p.vcsTimers.pending = [] := by
  rw [nextDeadline_eq_min?, List.min?_eq_none_iff, deadlines]
  simp [List.append_eq_nil_iff]

/-! ## What a tick reports -/

/-- The pipeline a tick polls: its due removals settled, and the timers of the roots the settling
touched armed. -/
def polled (p : Pipeline) (d : Disk) (now : Nat) : Pipeline :=
  ((p.dueDeletions now).foldl (settleDelete d now) (p.settleStart now, [])).1.arm
    ((p.dueDeletions now).foldl (settleDelete d now) (p.settleStart now, [])).2 now

theorem tick_fst_polled (p : Pipeline) (d : Disk) (now : Nat) :
    (p.tick d now).1 = (p.polled d now).fireTimers now :=
  tick_fst p d now

/-- A tick reports sync exactly when the sync timer it polls has a deadline at or before now. -/
theorem tick_sync (p : Pipeline) (d : Disk) (now : Nat) :
    (p.tick d now).2.sync = true ↔ ∃ e ∈ (p.polled d now).syncTimer.pending, e.2 ≤ now := by
  show (!((((p.polled d now).syncTimer.pending.filter fun e => e.2 ≤ now).map (·.1)).isEmpty)) =
    true ↔ _
  simp [List.filter_eq_nil_iff]

/-- A tick reports the roots whose timers it polls have deadlines at or before now. -/
theorem tick_vcs (p : Pipeline) (d : Disk) (now : Nat) :
    (p.tick d now).2.vcs = ((p.polled d now).vcsTimers.pending.filter fun e => e.2 ≤ now).map (·.1) :=
  rfl

/-- What a tick leaves of the timers it polls is what was not due: each reported deadline is
taken out, so an arming is reported at most once. -/
theorem tick_timers (p : Pipeline) (d : Disk) (now : Nat) :
    (p.tick d now).1.syncTimer.pending = (p.polled d now).syncTimer.pending.filter (now < ·.2) ∧
      (p.tick d now).1.vcsTimers.pending = (p.polled d now).vcsTimers.pending.filter (now < ·.2) :=
  ⟨rfl, rfl⟩

/-! ## What a step queues -/

open ChangeQueue

/-- A step, as a function of the pipeline, performs the queue calls `cs`: it reads nothing from
the queue, and whatever queue it finds it leaves with `cs` performed on it. -/
def Performs {β : Type} (f : Pipeline → Pipeline × β) (p : Pipeline) (cs : List QueueCall) :
    Prop :=
  ∀ q, f { p with queue := q } = ({ (f p).1 with queue := cs.foldl perform q }, (f p).2)

/-- What a step handling one file reports: a root exactly when it made a queue call, and then
every call queues a change about a path that root owns. -/
structure Reports (s : IndexSet) (cs : List QueueCall) (root : Option String) : Prop where
  /-- A root is reported exactly when a call was made. -/
  isSome_iff : root.isSome ↔ cs ≠ []
  /-- Every call queues a change about a path the reported root owns. -/
  owned : ∀ r, root = some r → ∀ c ∈ cs, ∃ ch, c.change? = some ch ∧ s.Owns ch.absolutePath r

theorem Reports.nil (s : IndexSet) : Reports s [] none :=
  ⟨by simp, fun _ h => by cases h⟩

/-- Accepting an event path neither reads nor changes the queue. -/
theorem accept_performs (p : Pipeline) (d : Disk) (path : String) (now : Nat) :
    Performs (·.accept d path now) p [] := by
  intro q
  have hrules : ({ p with queue := q } : Pipeline).rulesFor = p.rulesFor := rfl
  unfold accept
  simp only [hrules, List.foldl_nil]
  rcases p.rulesFor ((primaryForSidecar path).getD path) with _ | r
  · rfl
  · dsimp only
    rcases ignoresEither r d path ((primaryForSidecar path).getD path) with _ | _ | _
    · rfl
    · dsimp only
      split_ifs <;> rfl
    · rfl

/-- Recording the documents read from a file queues the title it displaced and the titles the
file no longer holds as deleted, then each document as modified, all under the file's root. -/
theorem recordDocuments_performs (p : Pipeline) (d : Disk) (doc : String) (docs : List Fields)
    (hP : p.index.Placed) :
    ∃ cs, Performs (·.recordDocuments d doc docs) p cs ∧
      Reports p.index cs (p.recordDocuments d doc docs).2 := by
  cases docs with
  | nil => exact ⟨[], fun q => rfl, Reports.nil _⟩
  | cons first rest =>
    rcases hs : p.index.split doc with e | ⟨root, rel⟩
    · refine ⟨[], fun q => ?_, ?_⟩
      · simp only [recordDocuments, hs, List.foldl_nil]
      · simp only [recordDocuments, hs]
        exact Reports.nil _
    · rcases hi : p.index.insert (FileRecord.discovered doc first (d.isFile (sidecarPath doc))) with
        e | ⟨index, displaced⟩
      · refine ⟨[], fun q => ?_, ?_⟩
        · simp only [recordDocuments, hs, hi, List.foldl_nil]
        · simp only [recordDocuments, hs, hi]
          exact Reports.nil _
      · refine ⟨(displaced.map fun old =>
            QueueCall.delete old.title (.deleted old.absolutePath old.relativePath)).toList ++
          (((p.index.bundledAt doc).filter fun t => !((first :: rest).map titleOf).contains t).map
            fun t => QueueCall.delete t (.deleted doc rel)) ++
          (((first :: rest).zip ((first :: rest).map titleOf)).map fun x =>
            QueueCall.modify x.2 ⟨doc, rel, if (p.index.recordAt? doc).isSome then .change else .add,
              if p.cacheFields then some x.1 else none⟩), fun q => ?_, ?_⟩
        · simp only [recordDocuments, hs, hi, List.foldl_append, List.foldl_map]
          cases displaced <;> rfl
        · have hroot : (p.recordDocuments d doc (first :: rest)).2 = some root := by
            simp only [recordDocuments, hs, hi]
          have howns : p.index.Owns doc root := IndexSet.owns_of_split hs
          rw [hroot]
          refine ⟨by simp, fun r hr c hc => ?_⟩
          cases hr
          rcases List.mem_append.mp hc with hc | hc
          · rcases List.mem_append.mp hc with hc | hc
            · cases displaced with
              | none => cases hc
              | some old =>
                rw [Option.map_some, Option.toList_some, List.mem_singleton] at hc
                subst hc
                exact ⟨_, rfl, howns.of_components (IndexSet.insert_displaced hP hi).symm⟩
            · obtain ⟨t, -, rfl⟩ := List.mem_map.mp hc
              exact ⟨_, rfl, howns⟩
          · obtain ⟨x, -, rfl⟩ := List.mem_map.mp hc
            exact ⟨_, rfl, howns⟩

/-- Deleting a file at once queues every title tracked at it as deleted, under its root. -/
theorem deleteNow_performs (p : Pipeline) (d : Disk) (path : String) (now : Nat) :
    ∃ cs, Performs (·.deleteNow d path now) p cs ∧ Reports p.index cs (p.deleteNow d path now).2 := by
  have hacc := accept_performs p d path now
  rcases ha : p.accept d path now with ⟨p₁, _ | doc⟩
  · have hq : ∀ q, ({ p with queue := q } : Pipeline).accept d path now =
        ({ p₁ with queue := q }, none) := fun q => by simpa only [ha, List.foldl_nil] using hacc q
    refine ⟨[], fun q => ?_, ?_⟩
    · simp only [deleteNow, hq, List.foldl_nil]
    · simp only [deleteNow, ha]
      exact Reports.nil _
  · have hidx : p₁.index = p.index := (accept_fst ha).1
    have hq : ∀ q, ({ p with queue := q } : Pipeline).accept d path now =
        ({ p₁ with queue := q }, some doc) := fun q => by simpa only [ha, List.foldl_nil] using hacc q
    rcases hs : p₁.index.split doc with e | ⟨root, rel⟩
    · refine ⟨[], fun q => ?_, ?_⟩
      · simp only [deleteNow, hq, hs, List.foldl_nil]
      · simp only [deleteNow, ha, hs]
        exact Reports.nil _
    · rcases ht : p₁.index.titleAt doc with e | t
      · refine ⟨[], fun q => ?_, ?_⟩
        · simp only [deleteNow, hq, hs, ht, List.foldl_nil]
        · simp only [deleteNow, ha, hs, ht]
          exact Reports.nil _
      · refine ⟨(t :: p₁.index.bundledAt doc).map fun u => QueueCall.delete u (.deleted doc rel),
          fun q => ?_, ?_⟩
        · simp only [deleteNow, hq, hs, ht, List.foldl_map]
          rfl
        · have hroot : (p.deleteNow d path now).2 = some root := by
            simp only [deleteNow, ha, hs, ht]
          have howns : p.index.Owns doc root := hidx ▸ IndexSet.owns_of_split hs
          rw [hroot]
          refine ⟨by simp, fun r hr c hc => ?_⟩
          cases hr
          obtain ⟨u, -, rfl⟩ := List.mem_map.mp hc
          exact ⟨_, rfl, howns⟩

/-- Reading a created or modified file either reports no root and leaves the queue alone, whatever
the queue, or is a read of the file's documents from a pipeline with the same index. -/
theorem upsert_cases (p : Pipeline) (d : Disk) (path : String) (now : Nat) :
    (∃ p' : Pipeline, p.upsert d path now = (p', none) ∧
      ∀ q, ({ p with queue := q } : Pipeline).upsert d path now = ({ p' with queue := q }, none)) ∨
    (∃ (p₂ : Pipeline) (doc : String) (docs : List Fields), p₂.index = p.index ∧
      p.upsert d path now = p₂.recordDocuments d doc docs ∧
      ∀ q, ({ p with queue := q } : Pipeline).upsert d path now =
        ({ p₂ with queue := q } : Pipeline).recordDocuments d doc docs) := by
  have hacc := accept_performs p d path now
  rcases ha : p.accept d path now with ⟨p₁, _ | doc⟩
  · have hq : ∀ q, ({ p with queue := q } : Pipeline).accept d path now =
        ({ p₁ with queue := q }, none) := fun q => by simpa only [ha, List.foldl_nil] using hacc q
    exact .inl ⟨p₁, by simp only [upsert, ha], fun q => by simp only [upsert, hq]⟩
  have hidx : p₁.index = p.index := (accept_fst ha).1
  have hq : ∀ q, ({ p with queue := q } : Pipeline).accept d path now =
      ({ p₁ with queue := q }, some doc) := fun q => by simpa only [ha, List.foldl_nil] using hacc q
  rcases hr : p₁.rulesFor doc with _ | r
  · have hr' : ∀ X q, Pipeline.rulesFor { p₁ with pendingDeletes := X, queue := q } doc = none :=
      fun _ _ => hr
    exact .inl ⟨{ p₁ with pendingDeletes := (p₁.pendingDeletes.remove doc).1 },
      by simp only [upsert, ha, hr'], fun q => by simp only [upsert, hq, hr']⟩
  have hr' : ∀ X q, Pipeline.rulesFor { p₁ with pendingDeletes := X, queue := q } doc = some r :=
    fun _ _ => hr
  rcases hst : d.stat doc false with e | ⟨place, node⟩
  · exact .inl ⟨{ p₁ with pendingDeletes := (p₁.pendingDeletes.remove doc).1 },
      by simp only [upsert, ha, hr', hst], fun q => by simp only [upsert, hq, hr', hst]⟩
  cases hsl : r.ignoreSymlinks
  rotate_left
  rcases node with ⟨b, m⟩ | _ | t
  on_goal 3 =>
    exact .inl ⟨{ p₁ with pendingDeletes := (p₁.pendingDeletes.remove doc).1 },
      by simp only [upsert, ha, hr', hst, hsl, Bool.and_self, if_true],
      fun q => by simp only [upsert, hq, hr', hst, hsl, Bool.and_self, if_true]⟩
  all_goals
    rcases hf : d.isFile doc with _ | _
    · exact .inl ⟨{ p₁ with pendingDeletes := (p₁.pendingDeletes.remove doc).1 },
        by simp only [upsert, ha, hr', hst, hsl, hf, Bool.and_false, Bool.false_and,
          Bool.not_false, Bool.false_eq_true, reduceIte],
        fun q => by simp only [upsert, hq, hr', hst, hsl, hf, Bool.and_false, Bool.false_and,
          Bool.not_false, Bool.false_eq_true, reduceIte]⟩
    · rcases hrd : readDocuments d doc with e | docs
      · exact .inl ⟨{ p₁ with pendingDeletes := (p₁.pendingDeletes.remove doc).1 },
          by simp only [upsert, ha, hr', hst, hsl, hf, hrd, Bool.and_false, Bool.false_and,
            Bool.not_true, Bool.false_eq_true, reduceIte],
          fun q => by simp only [upsert, hq, hr', hst, hsl, hf, hrd, Bool.and_false, Bool.false_and,
            Bool.not_true, Bool.false_eq_true, reduceIte]⟩
      · exact .inr ⟨{ p₁ with pendingDeletes := (p₁.pendingDeletes.remove doc).1 }, doc, docs, hidx,
          by simp only [upsert, ha, hr', hst, hsl, hf, hrd, Bool.and_false, Bool.false_and,
            Bool.not_true, Bool.false_eq_true, reduceIte],
          fun q => by simp only [upsert, hq, hr', hst, hsl, hf, hrd, Bool.and_false, Bool.false_and,
            Bool.not_true, Bool.false_eq_true, reduceIte]⟩

/-- Reading a created or modified file queues what recording its documents queues, or nothing. -/
theorem upsert_performs (p : Pipeline) (d : Disk) (path : String) (now : Nat)
    (hP : p.index.Placed) :
    ∃ cs, Performs (·.upsert d path now) p cs ∧ Reports p.index cs (p.upsert d path now).2 := by
  rcases upsert_cases p d path now with ⟨p', hup, hq⟩ | ⟨p₂, doc, docs, hidx, hup, hq⟩
  · refine ⟨[], fun q => ?_, ?_⟩
    · dsimp only
      rw [hq q, hup]
      rfl
    · rw [hup]
      exact Reports.nil _
  · obtain ⟨cs, hperf, hrep⟩ := recordDocuments_performs p₂ d doc docs (hidx ▸ hP)
    refine ⟨cs, fun q => ?_, ?_⟩
    · dsimp only
      rw [hq q, hup]
      exact hperf q
    · rw [hup, ← hidx]
      exact hrep

/-! ### Timers kept by the steps -/

/-- The sync timer and the timers of the roots. -/
def timers (p : Pipeline) : Debouncer × Debouncer :=
  (p.syncTimer, p.vcsTimers)

section Timers

variable (p : Pipeline) (d : Disk) (path : String) (now : Nat)

theorem accept_timers : (p.accept d path now).1.timers = p.timers := by
  obtain ⟨x, h, heq⟩ := accept_only p d path now
  rw [heq]
  rfl

theorem recordDocuments_timers (docs : List Fields) :
    (p.recordDocuments d path docs).1.timers = p.timers := by
  unfold recordDocuments
  split
  · rfl
  · dsimp only
    split
    · rfl
    · split <;> rfl

theorem upsert_timers : (p.upsert d path now).1.timers = p.timers := by
  rw [← accept_timers p d path now]
  unfold upsert
  rcases p.accept d path now with ⟨p', _ | doc⟩
  · rfl
  · dsimp only
    repeat' split
    all_goals first | rfl | exact recordDocuments_timers _ _ _ _

theorem deleteNow_timers : (p.deleteNow d path now).1.timers = p.timers := by
  rw [← accept_timers p d path now]
  unfold deleteNow
  rcases p.accept d path now with ⟨p', _ | doc⟩
  · rfl
  · dsimp only
    repeat' split
    all_goals rfl

theorem scheduleDelete_timers : (p.scheduleDelete d path now).timers = p.timers := by
  rw [← accept_timers p d path now]
  unfold scheduleDelete
  rcases p.accept d path now with ⟨p', _ | doc⟩ <;> rfl

end Timers

theorem scheduleDelete_performs (p : Pipeline) (d : Disk) (path : String) (now : Nat) :
    Performs (fun p => (p.scheduleDelete d path now, ())) p [] := by
  have hacc := accept_performs p d path now
  intro q
  rcases ha : p.accept d path now with ⟨p₁, _ | doc⟩
  · have hq : ({ p with queue := q } : Pipeline).accept d path now = ({ p₁ with queue := q }, none) := by
      simpa only [ha, List.foldl_nil] using hacc q
    simp only [scheduleDelete, hq, ha, List.foldl_nil]
  · have hq : ({ p with queue := q } : Pipeline).accept d path now =
        ({ p₁ with queue := q }, some doc) := by
      simpa only [ha, List.foldl_nil] using hacc q
    simp only [scheduleDelete, hq, ha, List.foldl_nil]

theorem Performs.touch {f : Pipeline → Pipeline × Option String} {p : Pipeline}
    {cs : List QueueCall} (h : Performs f p cs) (touched : List String) :
    Performs (fun p => ((f p).1, Pipeline.touch touched (f p).2)) p cs := fun q => by
  simp only [h q]

/-! ### Steps that handle one file -/

/-- A call of `cs` queues a change about a path that a root named `k` owns. -/
def QueuedUnder (s : IndexSet) (cs : List QueueCall) (k : String) : Prop :=
  ∃ c ∈ cs, ∃ ch r, c.change? = some ch ∧ s.Owns ch.absolutePath r ∧ Path.same r k = true

/-- Every call of `cs` queues a change about a path some root of `s` owns. -/
def Owned (s : IndexSet) (cs : List QueueCall) : Prop :=
  ∀ c ∈ cs, ∃ ch r, c.change? = some ch ∧ s.Owns ch.absolutePath r

theorem Owned.nil (s : IndexSet) : Owned s [] :=
  fun _ hc => by cases hc

theorem Reports.owned_some {s : IndexSet} {cs : List QueueCall} {root : Option String}
    (h : Reports s cs root) : Owned s cs := by
  intro c hc
  obtain ⟨r, hr⟩ := Option.isSome_iff_exists.mp (h.isSome_iff.mpr (List.ne_nil_of_mem hc))
  obtain ⟨ch, hch, howns⟩ := h.owned r hr c hc
  exact ⟨ch, r, hch, howns⟩

/-- The roots a step queued changes under are the root it reports, when no two roots name the
same path. -/
theorem Reports.queuedUnder_iff {s : IndexSet} {cs : List QueueCall} {root : Option String}
    (h : Reports s cs root) (hn : (s.roots.map Path.components).Nodup) (k : String) :
    QueuedUnder s cs k ↔ ∃ r, root = some r ∧ Path.same r k = true := by
  constructor
  · rintro ⟨c, hc, ch, r', hch, howns', hsame⟩
    obtain ⟨r, hr⟩ := Option.isSome_iff_exists.mp (h.isSome_iff.mpr (List.ne_nil_of_mem hc))
    obtain ⟨ch', hch', howns⟩ := h.owned r hr c hc
    rw [hch] at hch'
    cases hch'
    rw [IndexSet.Owns.unique hn howns' howns] at hsame
    exact ⟨r, hr, hsame⟩
  · rintro ⟨r, hr, hsame⟩
    obtain ⟨c, hc⟩ := List.exists_mem_of_ne_nil cs (h.isSome_iff.mp (by simp [hr]))
    obtain ⟨ch, hch, howns⟩ := h.owned r hr c hc
    exact ⟨c, hc, ch, r, hch, howns, hsame⟩

/-- The roots touched after adding a reported root name the paths they named and the reported
root's. -/
theorem mem_touch_same (touched : List String) (root : Option String) (k : String) :
    (∃ r ∈ touch touched root, Path.same r k = true) ↔
      (∃ r ∈ touched, Path.same r k = true) ∨ ∃ r, root = some r ∧ Path.same r k = true := by
  cases root with
  | none => simp [touch]
  | some r =>
    simp only [touch]
    split
    · rename_i hany
      obtain ⟨r', hr', hsame'⟩ := List.any_eq_true.mp hany
      constructor
      · exact .inl
      · rintro (h | ⟨r₀, hr₀, hsame⟩)
        · exact h
        · cases hr₀
          refine ⟨r', hr', ?_⟩
          simp only [Path.same_eq, decide_eq_true_eq] at hsame' hsame ⊢
          exact hsame'.trans hsame
    · simp [or_comm]

theorem touch_eq_nil (touched : List String) (root : Option String) :
    touch touched root = [] ↔ touched = [] ∧ root = none := by
  cases root with
  | none => simp [touch]
  | some r =>
    simp only [touch]
    split
    · rename_i hany
      constructor
      · rintro rfl
        simp at hany
      · rintro ⟨-, h⟩
        cases h
    · simp

/-- A step of a batch or of a tick's settling, from a pipeline whose index is sound: it performs
some queue calls and adds the root it reports to the roots touched, keeping the timers, the roots
and the soundness of the index. -/
def FileStep (g : Pipeline × List String → Pipeline × List String) : Prop :=
  ∀ p touched, p.index.Sound → ∃ cs root,
    Performs (fun p => g (p, touched)) p cs ∧ Reports p.index cs root ∧
      (g (p, touched)).2 = touch touched root ∧ (g (p, touched)).1.timers = p.timers ∧
      (g (p, touched)).1.index.Sound ∧ (g (p, touched)).1.index.roots = p.index.roots

/-- Handling one file by `f`, which reports the root it queued changes under: `f` performs its
calls and reports them, and keeps the timers, the roots and the soundness of the index. -/
def Handles (f : Pipeline → Pipeline × Option String) : Prop :=
  ∀ p, p.index.Sound → ∃ cs, Performs f p cs ∧ Reports p.index cs (f p).2 ∧
    (f p).1.timers = p.timers ∧ (f p).1.index.Sound ∧ (f p).1.index.roots = p.index.roots

theorem upsert_handles (d : Disk) (path : String) (now : Nat) : Handles (·.upsert d path now) :=
  fun p hs => by
    obtain ⟨cs, hperf, hrep⟩ := upsert_performs p d path now hs.placed
    exact ⟨cs, hperf, hrep, upsert_timers p d path now, upsert_sound d now hs path,
      upsert_roots d now hs path⟩

theorem deleteNow_handles (d : Disk) (path : String) (now : Nat) :
    Handles (·.deleteNow d path now) :=
  fun p hs => by
    obtain ⟨cs, hperf, hrep⟩ := deleteNow_performs p d path now
    exact ⟨cs, hperf, hrep, deleteNow_timers p d path now, deleteNow_sound d now hs path,
      deleteNow_roots d now hs path⟩

/-- Handling one file and adding the root reported to the roots touched is a file step. -/
theorem Handles.fileStep {f : Pipeline → Pipeline × Option String} (hf : Handles f)
    {g : Pipeline × List String → Pipeline × List String}
    (hg : ∀ p touched, g (p, touched) = ((f p).1, touch touched (f p).2)) : FileStep g := by
  intro p touched hs
  obtain ⟨cs, hperf, hrep, htimers, hsound, hroots⟩ := hf p hs
  refine ⟨cs, _, fun q => ?_, hrep, by rw [hg], by rw [hg]; exact htimers,
    by rw [hg]; exact hsound, by rw [hg]; exact hroots⟩
  dsimp only
  rw [hg, hg]
  exact hperf.touch touched q

theorem runStep_fileStep (d : Disk) (now : Nat) (s : EventStep) :
    FileStep (runStep d now · s) := by
  cases s with
  | upsert path => exact (upsert_handles d path now).fileStep fun _ _ => rfl
  | scheduleDelete path =>
    intro p touched hs
    have hperf := scheduleDelete_performs p d path now
    obtain ⟨hidx, -⟩ := scheduleDelete_fst p d path now
    refine ⟨[], none, fun q => ?_, Reports.nil _, rfl, scheduleDelete_timers p d path now,
      hidx ▸ hs, congrArg IndexSet.roots hidx⟩
    have h := hperf q
    simp only [Prod.mk.injEq, and_true] at h
    simp only [runStep, h]
  | deleteNow path => exact (deleteNow_handles d path now).fileStep fun _ _ => rfl

/-- Settling a due removal reads the file again when one is there, and deletes it otherwise. -/
theorem settleDelete_fileStep (d : Disk) (now : Nat) (path : String) :
    FileStep (settleDelete d now · path) := by
  by_cases hf : d.isFile path = true
  · exact (upsert_handles d path now).fileStep fun _ _ => by
      simp only [settleDelete, hf, if_true]
  · exact (deleteNow_handles d path now).fileStep fun _ _ => by
      simp only [settleDelete, hf, Bool.false_eq_true, if_false]

theorem queuedUnder_append (s : IndexSet) (a b : List QueueCall) (k : String) :
    QueuedUnder s (a ++ b) k ↔ QueuedUnder s a k ∨ QueuedUnder s b k := by
  simp only [QueuedUnder, List.mem_append, or_and_right, exists_or]

/-- A run of file steps performs the calls of its steps one after another; it adds to the roots
touched exactly the roots the calls queued changes under, touches none when it made no call, and
keeps the timers. -/
theorem foldl_fileSteps {α : Type} (g : Pipeline × List String → α → Pipeline × List String)
    (l : List α) (hg : ∀ a ∈ l, FileStep (g · a)) (p : Pipeline) (touched : List String)
    (hs : p.index.Sound) :
    ∃ cs, Performs (fun p => l.foldl g (p, touched)) p cs ∧ Owned p.index cs ∧
      (∀ k, (∃ r ∈ (l.foldl g (p, touched)).2, Path.same r k = true) ↔
        (∃ r ∈ touched, Path.same r k = true) ∨ QueuedUnder p.index cs k) ∧
      ((l.foldl g (p, touched)).2 = [] ↔ touched = [] ∧ cs = []) ∧
      (l.foldl g (p, touched)).1.timers = p.timers := by
  induction l generalizing p touched with
  | nil => exact ⟨[], fun q => rfl, Owned.nil _, fun k => by simp [QueuedUnder], by simp, rfl⟩
  | cons a l ih =>
    obtain ⟨cs₁, root, hperf₁, hrep, htouch, htimers, hs', hroots⟩ :=
      hg a List.mem_cons_self p touched hs
    obtain ⟨cs₂, hperf₂, howned₂, hunder₂, hnil₂, htimers₂⟩ :=
      ih (fun b hb => hg b (List.mem_cons_of_mem a hb)) (g (p, touched) a).1 (g (p, touched) a).2 hs'
    have howns : ∀ x r, (g (p, touched) a).1.index.Owns x r ↔ p.index.Owns x r := fun x r =>
      ⟨IndexSet.Owns.of_roots hroots, IndexSet.Owns.of_roots hroots.symm⟩
    have hunder : ∀ k, QueuedUnder (g (p, touched) a).1.index cs₂ k ↔ QueuedUnder p.index cs₂ k :=
      fun k => by simp only [QueuedUnder, howns]
    refine ⟨cs₁ ++ cs₂, fun q => ?_, fun c hc => ?_, fun k => ?_, ?_, ?_⟩
    · have h₁ := hperf₁ q
      have h₂ := hperf₂ (cs₁.foldl perform q)
      dsimp only at h₁ h₂ ⊢
      rw [List.foldl_cons, h₁, h₂, List.foldl_append, Prod.mk.eta]
      rfl
    · rcases List.mem_append.mp hc with hc | hc
      · exact hrep.owned_some c hc
      · obtain ⟨ch, r, hch, hown⟩ := howned₂ c hc
        exact ⟨ch, r, hch, (howns _ _).mp hown⟩
    · rw [List.foldl_cons, hunder₂ k, htouch, mem_touch_same, hunder k, queuedUnder_append,
        hrep.queuedUnder_iff hs.roots_nodup k, or_assoc]
    · rw [List.foldl_cons, hnil₂, htouch, touch_eq_nil, List.append_eq_nil_iff]
      have hnone : root = none ↔ cs₁ = [] := by
        rw [← Option.not_isSome_iff_eq_none, hrep.isSome_iff, not_not]
      rw [hnone, and_assoc]
    · rw [List.foldl_cons, htimers₂, htimers]

/-! ### Arming -/

theorem arm_queue (p : Pipeline) (touched : List String) (now : Nat) (q : ChangeQueue) :
    ({ p with queue := q } : Pipeline).arm touched now = { p.arm touched now with queue := q } := by
  unfold arm
  split <;> rfl

theorem arm_syncTimer (p : Pipeline) (touched : List String) (now : Nat) :
    (p.arm touched now).syncTimer =
      if touched = [] then p.syncTimer else (p.syncTimer.record "" now).1 := by
  cases touched <;> rfl

theorem arm_vcsTimers (p : Pipeline) (touched : List String) (now : Nat) :
    (p.arm touched now).vcsTimers = touched.foldl (fun t r => (t.record r now).1) p.vcsTimers := by
  cases touched <;> rfl

/-- How a step that made the queue calls `cs` at `now` arms the timers of `p`, leaving them as
`p'` has them: the sync timer exactly when a call was made, and the timer of a root exactly when a
call queued a change about a path the root owns; each for the debounce duration from now, which
pushes an earlier deadline back. -/
structure Arms (p p' : Pipeline) (cs : List QueueCall) (now : Nat) : Prop where
  sync_armed : cs ≠ [] → p'.syncTimer.ArmedAt "" (now + p.syncTimer.duration)
  sync_kept : cs = [] → p'.syncTimer = p.syncTimer
  vcs_armed : ∀ k, QueuedUnder p.index cs k → p'.vcsTimers.ArmedAt k (now + p.vcsTimers.duration)
  vcs_kept : ∀ k, ¬QueuedUnder p.index cs k →
    p'.vcsTimers.pending.filter (Path.same ·.1 k) = p.vcsTimers.pending.filter (Path.same ·.1 k)

/-- A run of file steps from no roots touched, followed by arming the roots it touched: what a
batch does, and what a tick does before it polls. -/
theorem fileSteps_arm {α : Type} (g : Pipeline × List String → α → Pipeline × List String)
    (l : List α) (hg : ∀ a ∈ l, FileStep (g · a)) (p : Pipeline) (now : Nat)
    (hs : p.index.Sound) :
    ∃ cs, Performs (fun p => ((l.foldl g (p, [])).1.arm (l.foldl g (p, [])).2 now, ())) p cs ∧
      Owned p.index cs ∧ Arms p ((l.foldl g (p, [])).1.arm (l.foldl g (p, [])).2 now) cs now ∧
      (p.vcsTimers.Distinct →
        ((l.foldl g (p, [])).1.arm (l.foldl g (p, [])).2 now).vcsTimers.Distinct) := by
  obtain ⟨cs, hperf, howned, hunder, hnil, htimers⟩ := foldl_fileSteps g l hg p [] hs
  have hsync : (l.foldl g (p, [])).1.syncTimer = p.syncTimer := congrArg Prod.fst htimers
  have hvcs : (l.foldl g (p, [])).1.vcsTimers = p.vcsTimers := congrArg Prod.snd htimers
  have hnil' : (l.foldl g (p, [])).2 = [] ↔ cs = [] := by simpa using hnil
  refine ⟨cs, fun q => ?_, howned, ⟨fun hcs => ?_, fun hcs => ?_, fun k hk => ?_, fun k hk => ?_⟩,
    fun hd => ?_⟩
  · have h := hperf q
    dsimp only at h ⊢
    rw [h, arm_queue]
  · rw [arm_syncTimer, if_neg (mt hnil'.mp hcs), hsync]
    exact Debouncer.record_armedAt _ _ _
  · rw [arm_syncTimer, if_pos (hnil'.mpr hcs), hsync]
  · rw [arm_vcsTimers, hvcs]
    obtain ⟨r, hr, hs⟩ := (hunder k).mpr (.inr hk)
    exact Debouncer.foldl_record_armedAt _ now ⟨r, hr, hs⟩ _
  · rw [arm_vcsTimers, hvcs]
    refine Debouncer.foldl_record_filter _ now (fun r hr => ?_) _
    cases hs : Path.same r k
    · rfl
    · exact absurd (((hunder k).mp ⟨r, hr, hs⟩).resolve_left (by simp)) hk
  · rw [arm_vcsTimers, hvcs]
    exact hd.foldl_record _ now

/-- A batch performs some queue calls, each about a path a root owns, and arms the timers for
them. -/
theorem handleBatch_arms (p : Pipeline) (d : Disk) (events : List RawEvent) (now : Nat)
    (hs : p.index.Sound) :
    ∃ cs, Performs (fun p => (p.handleBatch d events now, ())) p cs ∧ Owned p.index cs ∧
      Arms p (p.handleBatch d events now) cs now ∧
      (p.vcsTimers.Distinct → (p.handleBatch d events now).vcsTimers.Distinct) := by
  obtain ⟨cs, hperf, howned, harms, hd⟩ := fileSteps_arm (runStep d now)
    (events.flatMap RawEvent.steps) (fun s _ => runStep_fileStep d now s) p now hs
  refine ⟨cs, fun q => ?_, howned, ?_, ?_⟩
  · have h := hperf q
    dsimp only at h ⊢
    rw [handleBatch_eq_steps, handleBatch_eq_steps, h]
  · rw [handleBatch_eq_steps]
    exact harms
  · rw [handleBatch_eq_steps]
    exact hd

/-- The settling of a tick, from where it starts, performs some queue calls, each about a path a
root owns, and arms the timers for them in the pipeline the tick polls. -/
theorem polled_arms (p : Pipeline) (d : Disk) (now : Nat) (hs : p.index.Sound) :
    ∃ cs, (∀ q, ({ p with queue := q } : Pipeline).polled d now =
        { p.polled d now with queue := cs.foldl perform q }) ∧ Owned p.index cs ∧
      Arms p (p.polled d now) cs now ∧
      (p.vcsTimers.Distinct → (p.polled d now).vcsTimers.Distinct) := by
  obtain ⟨cs, hperf, howned, harms, hd⟩ := fileSteps_arm (settleDelete d now)
    (p.dueDeletions now) (fun k _ => settleDelete_fileStep d now k) (p.settleStart now) now hs
  refine ⟨cs, fun q => ?_, howned,
    ⟨harms.sync_armed, harms.sync_kept, harms.vcs_armed, harms.vcs_kept⟩, hd⟩
  have h := hperf q
  dsimp only at h
  exact congrArg Prod.fst h

/-- What a tick does to the queue is what its settling does: it performs the same calls whatever
queue it finds, and reports the same signals. -/
theorem tick_performs {p : Pipeline} {d : Disk} {now : Nat} {cs : List QueueCall}
    (h : ∀ q, ({ p with queue := q } : Pipeline).polled d now =
      { p.polled d now with queue := cs.foldl perform q }) :
    Performs (·.tick d now) p cs := by
  intro q
  have heq : ∀ p' : Pipeline, p'.tick d now = ((p'.polled d now).fireTimers now,
      ⟨!((p'.polled d now).syncTimer.takeReady now).2.isEmpty,
        ((p'.polled d now).vcsTimers.takeReady now).2⟩) := fun p' => rfl
  dsimp only
  rw [heq, heq, h]
  rfl

/-! ## A removal fires at its deadline -/

/-- The awaited removal of a file that is no sidecar falls due exactly from its deadline on. -/
theorem Awaits.mem_dueDeletions_iff {q : Pipeline} {path : String} {deadline : Nat}
    (hw : q.Awaits path deadline) (hown : primaryForSidecar path = none) (now : Nat) :
    path ∈ q.dueDeletions now ↔ deadline ≤ now := by
  unfold dueDeletions Debouncer.takeReady
  constructor
  · intro h
    obtain ⟨e, he, rfl⟩ := List.mem_map.mp h
    obtain ⟨hmem, hdue⟩ := List.mem_filter.mp he
    have hdoc : Path.components (documentOf e.1) = Path.components e.1 := by
      simp [documentOf, hown]
    rw [hw.only e hmem hdoc] at hdue
    exact of_decide_eq_true hdue
  · intro h
    exact List.mem_map.mpr ⟨(path, deadline), List.mem_filter.mpr ⟨hw.pending, by simpa using h⟩, rfl⟩

/-- A removal admitted at `t₀`, reported in a batch of its own when every removal pending for the
file is recorded under its name, stays pending with its grace deadline through a run that spares
the file, and falls due at a tick exactly when the tick is at or after the deadline. -/
theorem removal_fires_at_deadline {p : Pipeline} {d : Disk} {path : String} {t₀ : Nat}
    (inputs : List Input) (hadm : p.Admits d path t₀) (hunder : p.PendingUnder path)
    (hspare : ∀ i ∈ inputs, i.Spares path (t₀ + p.pendingDeletes.duration)) :
    (path, t₀ + p.pendingDeletes.duration) ∈
        ((p.handleBatch d [.removed path] t₀).run inputs).pendingDeletes.pending ∧
      ∀ now, path ∈ ((p.handleBatch d [.removed path] t₀).run inputs).dueDeletions now ↔
        t₀ + p.pendingDeletes.duration ≤ now := by
  have hw := (awaits_of_removed hadm hunder).run inputs hspare
  exact ⟨hw.pending, hw.mem_dueDeletions_iff hadm.own_file⟩

/-! ## Runs -/

/-- What every state of a run keeps: a sound index, and the timers of the roots under keys that
name different paths. -/
structure Steady (p : Pipeline) : Prop where
  /-- The index is sound. -/
  sound : p.index.Sound
  /-- No two timers of roots name one path. -/
  distinct : p.vcsTimers.Distinct

/-- Every input keeps a pipeline steady: the roots' timers change only by recording, by taking
out what is due and by dropping a root's timer. -/
theorem Steady.step {p : Pipeline} (h : p.Steady) (i : Input) : (p.step i).Steady := by
  refine ⟨step_sound h.sound i, ?_⟩
  cases i with
  | batch d events now =>
    obtain ⟨-, -, -, -, hd⟩ := handleBatch_arms p d events now h.sound
    exact hd h.distinct
  | tick d now =>
    obtain ⟨-, -, -, -, hd⟩ := polled_arms p d now h.sound
    exact (hd h.distinct).takeReady now
  | removeRoot root => exact h.distinct.filter _
  | addRoot _ | updateIgnore _ _ | exclusions _ | queue _ => exact h.distinct

theorem Steady.run {p : Pipeline} (h : p.Steady) (inputs : List Input) : (p.run inputs).Steady := by
  induction inputs generalizing p with
  | nil => exact h
  | cons i inputs ih => exact ih (h.step i)

/-- What the timers of a pipeline do at its next batch or tick. -/
structure Debounced (p : Pipeline) : Prop where
  /-- A batch performs some queue calls, each about a path a root owns, and arms the timers
  for them. -/
  batch : ∀ d events now, ∃ cs, Performs (fun p => (p.handleBatch d events now, ())) p cs ∧
    Owned p.index cs ∧ Arms p (p.handleBatch d events now) cs now
  /-- A tick does the same for the calls its settling makes, in the pipeline it polls. -/
  tick : ∀ d now, ∃ cs, Performs (·.tick d now) p cs ∧ Owned p.index cs ∧
    Arms p (p.polled d now) cs now
  /-- A tick reports sync exactly when the sync timer it polls is due. -/
  sync : ∀ d now,
    (p.tick d now).2.sync = true ↔ ∃ e ∈ (p.polled d now).syncTimer.pending, e.2 ≤ now
  /-- A tick reports the roots whose timers it polls are due, each path once. -/
  vcs : ∀ d now,
    (p.tick d now).2.vcs = ((p.polled d now).vcsTimers.pending.filter (·.2 ≤ now)).map (·.1) ∧
      ((p.tick d now).2.vcs.map Path.components).Nodup
  /-- A tick takes out what it reports and keeps what is due later. -/
  fired : ∀ d now,
    (p.tick d now).1.syncTimer.pending = (p.polled d now).syncTimer.pending.filter (now < ·.2) ∧
      (p.tick d now).1.vcsTimers.pending = (p.polled d now).vcsTimers.pending.filter (now < ·.2)
  /-- The next deadline is the least deadline pending. -/
  next : ∀ t, p.nextDeadline = some t ↔ t ∈ p.deadlines ∧ ∀ u ∈ p.deadlines, t ≤ u
  /-- There is no next deadline exactly when nothing is pending. -/
  idle : p.nextDeadline = none ↔
    p.pendingDeletes.pending = [] ∧ p.syncTimer.pending = [] ∧ p.vcsTimers.pending = []
  /-- A removal admitted now waits for its grace deadline through a run that spares the file,
  and falls due at the first tick at or after it. -/
  grace : ∀ d path t₀ (inputs : List Input), p.Admits d path t₀ → p.PendingUnder path →
    (∀ i ∈ inputs, i.Spares path (t₀ + p.pendingDeletes.duration)) →
    (path, t₀ + p.pendingDeletes.duration) ∈
        ((p.handleBatch d [.removed path] t₀).run inputs).pendingDeletes.pending ∧
      ∀ now, path ∈ ((p.handleBatch d [.removed path] t₀).run inputs).dueDeletions now ↔
        t₀ + p.pendingDeletes.duration ≤ now

/-- A steady pipeline's timers are debounced. -/
theorem Steady.debounced {p : Pipeline} (h : p.Steady) : p.Debounced where
  batch d events now := by
    obtain ⟨cs, hperf, howned, harms, -⟩ := handleBatch_arms p d events now h.sound
    exact ⟨cs, hperf, howned, harms⟩
  tick d now := by
    obtain ⟨cs, hperf, howned, harms, -⟩ := polled_arms p d now h.sound
    exact ⟨cs, tick_performs hperf, howned, harms⟩
  sync := tick_sync p
  vcs d now := by
    obtain ⟨-, -, -, -, hd⟩ := polled_arms p d now h.sound
    exact ⟨tick_vcs p d now, (hd h.distinct).takeReady_keys now⟩
  fired := tick_timers p
  next := nextDeadline_eq_some_iff p
  idle := nextDeadline_eq_none_iff p
  grace _ _ _ inputs hadm hunder hspare := removal_fires_at_deadline inputs hadm hunder hspare

/-- Every state a run reaches from a steady pipeline has debounced timers. -/
theorem run_debounced {p : Pipeline} (h : p.Steady) (inputs : List Input) :
    (p.run inputs).Debounced :=
  (h.run inputs).debounced

/-- The watched note's pipeline is steady, and so its timers are debounced after its removal. -/
theorem watchedNote_run_debounced :
    watchedNote.Steady ∧ (watchedNote.run [.batch bareWiki [.removed "/w/a.tid"] 0]).Debounced :=
  have h : watchedNote.Steady := ⟨IndexSet.sound_empty.run _, Debouncer.Distinct.new 1000⟩
  ⟨h, run_debounced h _⟩

end Pipeline

end WikiSync
