import WikiSync.Proofs.Index.Reach
import WikiSync.Proofs.Watch.Echo

/-!
# Moving a file

A file moved from one watched path to another reaches the pipeline in one of two ways: as one
rename event, or as a removal of the old path followed by a creation of the new one, the removal
settled by a tick once its grace period is over. This module shows that the two reports end
alike (`Pipeline.move_reports_agree`): every title of the file waits as a modification and none
as a deletion, the index tracks the file at its new path and nothing at the old one, and no
removal of the old path is left pending (`Pipeline.Moved`).

Each event is taken apart into what the pipeline does with an admitted path (`Pipeline.Admits`):
a rename deletes the old path at once and reads the new one (`deleteNow_of_admits`,
`upsert_of_admits`); recording the new file's documents inserts its first record, bundles the
other titles with it and queues every title as a modification last (`recordDocuments_spec`). A
removal only starts a grace period (`scheduleDelete_of_admits`); by the time it ends the new
file has taken the title away from the old path, so settling the removal finds nothing there to
delete (`tick_of_untracked`).

Both paths must name their own files: a path that names a sidecar is read as an event of its
primary file, and a move onto a sidecar's name is no move of the file.
-/

namespace WikiSync

/-- A disk holds at a path a regular file, itself no link, whose documents read as `docs`. -/
structure Disk.HoldsDocuments (d : Disk) (path : String) (docs : List Fields) : Prop where
  /-- The path names a regular file, not through a link. -/
  regular : ∃ place bytes modified, d.stat path false = .ok (place, .file bytes modified)
  /-- The path leads to a regular file. -/
  isFile : d.isFile path = true
  /-- The file reads as these documents. -/
  read : readDocuments d path = .ok docs



namespace Debouncer

/-- A key is not pending when no pending key names its path. -/
theorem isPending_eq_false {d : Debouncer} {k : String} :
    d.isPending k = false ↔ ∀ e ∈ d.pending, Path.components e.1 ≠ Path.components k := by
  unfold isPending
  simp [Path.same_eq]

/-- Cancelling a key leaves it not pending. -/
theorem isPending_remove_self (d : Debouncer) (k : String) : (d.remove k).1.isPending k = false :=
  isPending_eq_false.mpr fun e he => by
    have hkept := (List.mem_filter.mp he).2
    simpa [Path.same_eq] using hkept

/-- Cancelling a key keeps every key that was not pending so. -/
theorem isPending_remove_of_false {d : Debouncer} {k : String} (h : d.isPending k = false)
    (k' : String) : (d.remove k').1.isPending k = false :=
  isPending_eq_false.mpr fun e he => isPending_eq_false.mp h e (List.mem_filter.mp he).1

/-- Recording a key that is not pending appends it with its deadline. -/
theorem record_pending {d : Debouncer} {k : String} (h : d.isPending k = false) (now : Nat) :
    (d.record k now).1.pending = d.pending ++ [(k, now + d.duration)] := by
  unfold record
  simp [h]

end Debouncer

namespace Pipeline

/-- The pipeline takes an event at `path` at `now` as an event of the file there: the path names
no sidecar, the rules of the watched root holding it do not ignore it, and it is not excluded. -/
structure Admits (p : Pipeline) (d : Disk) (path : String) (now : Nat) : Prop where
  /-- The path names no sidecar, so the event is about the file itself. -/
  own_file : primaryForSidecar path = none
  /-- A watched root holds the path and its rules do not ignore it. -/
  watched : ∃ r, p.rulesFor path = some r ∧ ignores r d path = some false
  /-- The path is not excluded. -/
  not_excluded : p.exclusions.excludedAt path now = false

/-- Admission reads only the rules and what is excluded at the time. -/
theorem Admits.congr {p q : Pipeline} {d : Disk} {path : String} {now : Nat}
    (h : p.Admits d path now) (hr : q.rules = p.rules)
    (hx : q.exclusions.excludedAt path now = p.exclusions.excludedAt path now) :
    q.Admits d path now where
  own_file := h.own_file
  watched := by
    obtain ⟨r, hrules, hign⟩ := h.watched
    refine ⟨r, ?_, hign⟩
    unfold rulesFor
    rw [hr]
    exact hrules
  not_excluded := by rw [hx]; exact h.not_excluded

/-- An admitted path is accepted as itself. Looking it up leaves every path with other components
excluded or not, at any time, as it was. -/
theorem accept_of_admits {p : Pipeline} {d : Disk} {path : String} {now : Nat}
    (h : p.Admits d path now) :
    ∃ x : Exclusions, p.accept d path now = ({ p with exclusions := x }, some path) ∧
      ∀ q later, Path.components q ≠ Path.components path →
        x.excludedAt q later = p.exclusions.excludedAt q later := by
  obtain ⟨hside, ⟨r, hr, hign⟩, hx⟩ := h
  rcases h₁ : p.exclusions.isExcluded path now with ⟨x₁, b₁⟩
  have hb₁ : b₁ = false := by
    have hsnd := Exclusions.isExcluded_snd p.exclusions path now
    rw [h₁] at hsnd
    exact hsnd.trans hx
  rcases h₂ : x₁.isExcluded path now with ⟨x₂, b₂⟩
  have hb₂ : b₂ = false := by
    have hsnd := Exclusions.isExcluded_snd x₁ path now
    have hkeep := Exclusions.excludedAt_isExcluded p.exclusions path path now
    rw [h₂] at hsnd
    rw [h₁] at hkeep
    exact hsnd.trans (hkeep.trans hx)
  refine ⟨x₂, ?_, fun q later hq => ?_⟩
  · unfold accept
    simp only [hside, Option.getD_none, hr, ignoresEither, hign, h₁, hb₁, h₂, hb₂]
    rfl
  · have hkeep₁ := Exclusions.excludedAt_isExcluded_of_ne p.exclusions hq now later
    have hkeep₂ := Exclusions.excludedAt_isExcluded_of_ne x₁ hq now later
    rw [h₁] at hkeep₁
    rw [h₂] at hkeep₂
    rw [hkeep₂, hkeep₁]

/-- Reading an admitted path that holds a regular file cancels the file's pending removal and
records the file's documents. -/
theorem upsert_of_admits {p : Pipeline} {d : Disk} {path : String} {now : Nat}
    {docs : List Fields} (h : p.Admits d path now) (hf : d.HoldsDocuments path docs) :
    ∃ x : Exclusions, p.upsert d path now =
        ({ p with exclusions := x, pendingDeletes := (p.pendingDeletes.remove path).1 }
          ).recordDocuments d path docs ∧
      ∀ q later, Path.components q ≠ Path.components path →
        x.excludedAt q later = p.exclusions.excludedAt q later := by
  obtain ⟨x, hacc, hx⟩ := accept_of_admits h
  obtain ⟨r, hr, -⟩ := h.watched
  obtain ⟨place, bytes, modified, hstat⟩ := hf.regular
  refine ⟨x, ?_, hx⟩
  have hr' : ({ p with exclusions := x, pendingDeletes := (p.pendingDeletes.remove path).1 }
      : Pipeline).rulesFor path = some r := hr
  unfold upsert
  rw [hacc]
  simp only [hr', hstat, hf.isFile, hf.read]
  rfl

/-- Deleting an admitted path that the index tracks cancels its pending removal, drops it from
the index, and queues the deletion of its title and of the titles bundled with it. -/
theorem deleteNow_of_admits {p : Pipeline} {d : Disk} {path t : String} {now : Nat}
    (h : p.Admits d path now) (ht : p.index.titleAt path = .ok t) :
    ∃ x : Exclusions, ∃ root rel, p.index.split path = .ok (root, rel) ∧
      p.deleteNow d path now =
        ({ p with
            exclusions := x
            pendingDeletes := (p.pendingDeletes.remove path).1
            index := (p.index.removePath path).1
            queue := (t :: p.index.bundledAt path).foldl
              (fun q u => q.queueDeletion u (PendingChange.deleted path rel)) p.queue },
          some root) ∧
      ∀ q later, Path.components q ≠ Path.components path →
        x.excludedAt q later = p.exclusions.excludedAt q later := by
  obtain ⟨x, hacc, hx⟩ := accept_of_admits h
  have hsplit : ∃ root rel, p.index.split path = .ok (root, rel) := by
    rcases IndexSet.split_cases p.index path with ⟨root, rel, -, hok⟩ | ⟨-, herr⟩
    · exact ⟨root, rel, hok⟩
    · unfold IndexSet.titleAt at ht
      rw [herr] at ht
      cases ht
  obtain ⟨root, rel, hsplit⟩ := hsplit
  refine ⟨x, root, rel, hsplit, ?_, hx⟩
  unfold deleteNow
  rw [hacc]
  simp only [hsplit, ht]

/-- Deleting a path whose file the index does not track changes neither the index nor the
queue, touches no root, and at most cancels pending removals. -/
theorem deleteNow_of_untracked (p : Pipeline) (d : Disk) (now : Nat) {path : String}
    (hside : primaryForSidecar path = none) (ht : p.index.recordAt? path = none) :
    (p.deleteNow d path now).1.index = p.index ∧ (p.deleteNow d path now).1.queue = p.queue ∧
      (p.deleteNow d path now).1.pendingDeletes.pending ⊆ p.pendingDeletes.pending ∧
      (p.deleteNow d path now).2 = none := by
  have herr : (p.index.titleAt path).toOption = none := by
    rw [IndexSet.titleAt_toOption, ht, Option.map_none]
  unfold deleteNow
  rcases hacc : p.accept d path now with ⟨p', _ | doc⟩
  · obtain ⟨hi, hq⟩ := accept_fst hacc
    obtain ⟨x, halted, hp'⟩ := accept_only p d path now
    rw [hacc] at hp'
    dsimp only at hp'
    subst hp'
    exact ⟨rfl, rfl, fun _ he => he, rfl⟩
  · obtain ⟨hdoc, -⟩ := accept_some p d path doc now (by rw [hacc])
    rw [hside, Option.getD_none] at hdoc
    subst hdoc
    obtain ⟨x, halted, hp'⟩ := accept_only p d doc now
    rw [hacc] at hp'
    dsimp only at hp'
    subst hp'
    have hdropped : (p.pendingDeletes.remove doc).1.pending ⊆ p.pendingDeletes.pending :=
      fun _ he => (List.mem_filter.mp he).1
    dsimp only
    split
    · exact ⟨rfl, rfl, hdropped, rfl⟩
    · split
      · exact ⟨rfl, rfl, hdropped, rfl⟩
      · rename_i title htitle
        rw [htitle] at herr
        cases herr

/-- Starting the grace period of an admitted path records its removal. -/
theorem scheduleDelete_of_admits {p : Pipeline} {d : Disk} {path : String} {now : Nat}
    (h : p.Admits d path now) :
    ∃ x : Exclusions, p.scheduleDelete d path now =
        { p with exclusions := x, pendingDeletes := (p.pendingDeletes.record path now).1 } ∧
      ∀ q later, Path.components q ≠ Path.components path →
        x.excludedAt q later = p.exclusions.excludedAt q later := by
  obtain ⟨x, hacc, hx⟩ := accept_of_admits h
  refine ⟨x, ?_, hx⟩
  unfold scheduleDelete
  rw [hacc]

/-- Recording the documents of a file whose first document the index takes: the record goes in,
the other titles are bundled with it, and every document is queued as a modification after
whatever deletions the record's arrival queues. -/
theorem recordDocuments_of_insert {p : Pipeline} {d : Disk} {doc root rel : String}
    {first : Fields} {rest : List Fields} {s' : IndexSet} {dsp : Option FileRecord}
    (hsplit : p.index.split doc = .ok (root, rel))
    (hins : p.index.insert (FileRecord.discovered doc first (d.isFile (sidecarPath doc))) =
      .ok (s', dsp)) :
    ∃ f : ChangeQueue → Fields × String → ChangeQueue, ∃ q₀ : ChangeQueue,
      (∀ q b, ∃ c, f q b = q.queueModification b.2 c) ∧
      p.recordDocuments d doc (first :: rest) =
        ({ p with
            index := s'.setBundled doc (rest.map titleOf)
            queue := ((first :: rest).zip ((first :: rest).map titleOf)).foldl f q₀ },
          some root) := by
  unfold recordDocuments
  simp only [hsplit, hins]
  refine ⟨_, _, ?_, rfl⟩
  intro q b
  obtain ⟨fs, u⟩ := b
  exact ⟨_, rfl⟩

/-- Recording the documents of a file under a root of the index, when they are titled `t :: B`:
the file's first record, titled `t` and naming the file, is inserted and `B` bundled with it;
every title of the file then waits as a modification and not as a deletion; and the pending
removals stay as they were. -/
theorem recordDocuments_spec (p : Pipeline) (d : Disk) {doc t : String} {B : List String}
    {docs : List Fields} (htitles : docs.map titleOf = t :: B)
    (hroot : ∃ root ∈ p.index.roots, Path.startsWith doc root = true) :
    ∃ r s' dsp, r.absolutePath = doc ∧ r.title = t ∧ p.index.insert r = .ok (s', dsp) ∧
      (p.recordDocuments d doc docs).1.index = s'.setBundled doc B ∧
      (∀ u ∈ t :: B, (p.recordDocuments d doc docs).1.queue.isModified u = true ∧
        (p.recordDocuments d doc docs).1.queue.isDeleted u = false) ∧
      (p.recordDocuments d doc docs).1.pendingDeletes = p.pendingDeletes := by
  obtain ⟨first, rest, rfl⟩ : ∃ first rest, docs = first :: rest := by
    cases docs with
    | nil => cases htitles
    | cons first rest => exact ⟨first, rest, rfl⟩
  rw [List.map_cons, List.cons.injEq] at htitles
  obtain ⟨hfirst, hrest⟩ := htitles
  obtain ⟨root, hr, hbegins⟩ := hroot
  obtain ⟨owner, rel, hsplit⟩ := IndexSet.split_ok_of_startsWith hr hbegins
  obtain ⟨⟨s', dsp⟩, hins⟩ := IndexSet.insert_ok_of_startsWith
    (r := FileRecord.discovered doc first (d.isFile (sidecarPath doc))) hr hbegins
  obtain ⟨f, q₀, hf, heq⟩ := recordDocuments_of_insert hsplit hins
  refine ⟨_, s', dsp, rfl, hfirst, hins, ?_, fun u hu => ?_, ?_⟩
  · rw [heq, hrest]
  · have hsnd : u ∈ ((first :: rest).zip ((first :: rest).map titleOf)).map Prod.snd := by
      rw [List.map_snd_zip (by simp), List.map_cons, hfirst, hrest]
      exact hu
    obtain ⟨b, hb, rfl⟩ := List.mem_map.mp hsnd
    rw [heq]
    exact ChangeQueue.foldl_modified f Prod.snd hf _ q₀ b.2 (.inl ⟨b, hb, rfl⟩)
  · rw [heq]

/-- Arming timers changes nothing but the timers. -/
theorem arm_eq (p : Pipeline) (touched : List String) (now : Nat) :
    ∃ sync vcs, p.arm touched now = { p with syncTimer := sync, vcsTimers := vcs } := by
  unfold arm
  split
  · exact ⟨p.syncTimer, p.vcsTimers, rfl⟩
  · exact ⟨_, _, rfl⟩

/-- A batch of one rename deletes the old path at once, then reads the new one. -/
theorem handleBatch_renamed (p : Pipeline) (d : Disk) (src dst : String) (now : Nat) :
    p.handleBatch d [.renamed src dst] now =
      ((p.deleteNow d src now).1.upsert d dst now).1.arm
        (touch (touch [] (p.deleteNow d src now).2) ((p.deleteNow d src now).1.upsert d dst now).2)
        now :=
  rfl

/-- A batch of one creation reads the file. -/
theorem handleBatch_created (p : Pipeline) (d : Disk) (path : String) (now : Nat) :
    p.handleBatch d [.created path] now =
      (p.upsert d path now).1.arm (touch [] (p.upsert d path now).2) now :=
  rfl

/-- A batch of one removal starts the file's grace period and arms no timer. -/
theorem handleBatch_removed (p : Pipeline) (d : Disk) (path : String) (now : Nat) :
    p.handleBatch d [.removed path] now = p.scheduleDelete d path now :=
  rfl

/-- A tick whose only due removal is of a path that holds no file and no record changes neither
the index nor the queue, and leaves no removal of that path pending when none of the removals
still waiting is of it. -/
theorem tick_of_untracked (p : Pipeline) (d : Disk) (now : Nat) {path : String}
    (hside : primaryForSidecar path = none) (hdue : p.dueDeletions now = [path])
    (hgone : d.isFile path = false) (hrec : p.index.recordAt? path = none)
    (hwait : ∀ e ∈ p.pendingDeletes.pending, now < e.2 →
      Path.components e.1 ≠ Path.components path) :
    (p.tick d now).1.index = p.index ∧ (p.tick d now).1.queue = p.queue ∧
      (p.tick d now).1.pendingDeletes.isPending path = false := by
  have hsettle : settleDelete d now (p.settleStart now, []) path =
      (((p.settleStart now).deleteNow d path now).1,
        touch [] ((p.settleStart now).deleteNow d path now).2) := by
    unfold settleDelete
    rw [hgone]
    rfl
  obtain ⟨hidx, hq, hsub, -⟩ := deleteNow_of_untracked (p.settleStart now) d now hside hrec
  rw [tick_fst, hdue, List.foldl_cons, List.foldl_nil, hsettle]
  obtain ⟨sync, vcs, harm⟩ := arm_eq ((p.settleStart now).deleteNow d path now).1
    (touch [] ((p.settleStart now).deleteNow d path now).2) now
  rw [harm]
  refine ⟨hidx, hq, Debouncer.isPending_eq_false.mpr fun e he => ?_⟩
  obtain ⟨hmem, hlate⟩ := List.mem_filter.mp (hsub he)
  exact hwait e hmem (by simpa using hlate)

/-- What moving a file from `src` to `dst` leaves behind, when the file's titles are `t :: B`:
every title of the file waits as a modification and none as a deletion; the index tracks `t` at
`dst` with `B` bundled there, and nothing at `src`; and no removal of `src` is pending. -/
structure Moved (p : Pipeline) (src dst t : String) (B : List String) : Prop where
  /-- Every title of the file waits as a modification and not as a deletion. -/
  queued : ∀ u ∈ t :: B, p.queue.isModified u = true ∧ p.queue.isDeleted u = false
  /-- The index tracks the first title at the new path, with the others bundled there. -/
  tracked : p.index.TracksAt dst t B
  /-- Nothing is tracked or bundled at the old path. -/
  untracked : p.index.recordAt? src = none ∧ p.index.bundledAt src = []
  /-- No removal of the old path waits out its grace period. -/
  settled : p.pendingDeletes.isPending src = false

section Move

variable {p : Pipeline} {src dst t : String} {B : List String} {docs : List Fields}

/-- Arming timers keeps what a move leaves behind. -/
theorem Moved.arm {q : Pipeline} (h : q.Moved src dst t B) (touched : List String) (now : Nat) :
    (q.arm touched now).Moved src dst t B := by
  obtain ⟨sync, vcs, harm⟩ := arm_eq q touched now
  rw [harm]
  exact ⟨h.queued, h.tracked, h.untracked, h.settled⟩

/-- Reported as one rename, a move of a tracked file deletes the old path at once and records the
new one: the index first loses the old path, then tracks the new file, and the modifications
of its titles, queued last, win over the deletions queued for the old path. -/
theorem moved_of_rename (hs : p.index.Sound) (htracked : p.index.titleAt src = .ok t)
    (hne : Path.components src ≠ Path.components dst)
    (hroot : ∃ root ∈ p.index.roots, Path.startsWith dst root = true)
    (htitles : docs.map titleOf = t :: B) {d : Disk} {now : Nat}
    (hf : d.HoldsDocuments dst docs) (hsrc : p.Admits d src now) (hdst : p.Admits d dst now) :
    (p.handleBatch d [.renamed src dst] now).Moved src dst t B := by
  obtain ⟨x, root, rel, -, hdel, hx⟩ := deleteNow_of_admits hsrc htracked
  set p₁ := (p.deleteNow d src now).1 with hp₁
  have hidx₁ : p₁.index = (p.index.removePath src).1 := by rw [hp₁, hdel]
  have hpend₁ : p₁.pendingDeletes = (p.pendingDeletes.remove src).1 := by rw [hp₁, hdel]
  have hdst₁ : p₁.Admits d dst now :=
    hdst.congr (by rw [hp₁, hdel]) (by rw [hp₁, hdel]; exact hx dst now (Ne.symm hne))
  obtain ⟨hnone₁, hempty₁⟩ := hs.lookup_removePath_self src
  rw [handleBatch_renamed]
  refine Moved.arm ?_ _ _
  obtain ⟨x', hup, -⟩ := upsert_of_admits hdst₁ hf
  rw [hup]
  obtain ⟨r, s₂, dsp, hrpath, hrtitle, hins, hidx, hqueue, hpend⟩ := recordDocuments_spec
    { p₁ with exclusions := x', pendingDeletes := (p₁.pendingDeletes.remove dst).1 } d htitles
    (by rw [hidx₁, hs.removePath_roots]; exact hroot)
  have hins₁ : (p.index.removePath src).1.insert r = .ok (s₂, dsp) := by rw [← hidx₁]; exact hins
  obtain ⟨-, htracks, hothers⟩ := (hs.removePath src).insert_setBundled hins₁ B
  rw [hrpath, hrtitle] at htracks
  rw [hrpath] at hothers
  obtain ⟨hrec, hbun⟩ := hothers src hne
  refine ⟨hqueue, ?_, ?_, ?_⟩
  · rw [hidx]
    exact htracks
  · rw [hidx, hrec, hbun, hnone₁, hempty₁]
    simp
  · rw [hpend]
    show (p₁.pendingDeletes.remove dst).1.isPending src = false
    rw [hpend₁]
    exact Debouncer.isPending_remove_of_false (Debouncer.isPending_remove_self _ _) dst

/-- Reported as a removal, then a creation of the new file, then a tick at or after the
removal's grace deadline with nothing left at the old path, a move of a tracked file ends as the
rename does: recording the new file takes the title away from the old path, so the removal
finds nothing to delete when its grace period ends. -/
theorem moved_of_remove_create_tick (hs : p.index.Sound) (htracked : p.index.titleAt src = .ok t)
    (hne : Path.components src ≠ Path.components dst)
    (hroot : ∃ root ∈ p.index.roots, Path.startsWith dst root = true)
    (htitles : docs.map titleOf = t :: B) {d₀ d₁ d₂ : Disk} {t₀ t₁ t₂ : Nat}
    (hf : d₁.HoldsDocuments dst docs) (hsrc : p.Admits d₀ src t₀) (hdst : p.Admits d₁ dst t₁)
    (hdue : t₀ + p.pendingDeletes.duration ≤ t₂) (hgone : d₂.isFile src = false)
    (hquiet : ∀ e ∈ p.pendingDeletes.pending,
      Path.components e.1 ≠ Path.components src ∧ t₂ < e.2) :
    (((p.handleBatch d₀ [.removed src] t₀).handleBatch d₁ [.created dst] t₁).tick d₂ t₂).1.Moved
      src dst t B := by
  obtain ⟨x₀, hsch, hx₀⟩ := scheduleDelete_of_admits hsrc
  rw [handleBatch_removed, hsch, handleBatch_created]
  set pA : Pipeline :=
    { p with exclusions := x₀, pendingDeletes := (p.pendingDeletes.record src t₀).1 } with hpA
  obtain ⟨x₁, hup, -⟩ := upsert_of_admits (hdst.congr rfl (hx₀ dst t₁ (Ne.symm hne)) :
    pA.Admits d₁ dst t₁) hf
  rw [hup]
  set pC : Pipeline :=
    { pA with exclusions := x₁, pendingDeletes := (pA.pendingDeletes.remove dst).1 } with hpC
  obtain ⟨r, s₂, dsp, hrpath, hrtitle, hins, hidx, hqueue, hpend⟩ :=
    recordDocuments_spec pC d₁ htitles hroot
  obtain ⟨sync, vcs, harm⟩ := arm_eq (pC.recordDocuments d₁ dst docs).1
    (touch [] (pC.recordDocuments d₁ dst docs).2) t₁
  rw [harm]
  set pB : Pipeline :=
    { (pC.recordDocuments d₁ dst docs).1 with syncTimer := sync, vcsTimers := vcs } with hpB
  obtain ⟨-, htracks, hothers⟩ := hs.insert_setBundled hins B
  rw [hrpath, hrtitle] at htracks hothers
  obtain ⟨hrec, hbun⟩ := hothers src hne
  obtain ⟨r₀, hr₀, hr₀t⟩ := IndexSet.recordAt?_of_titleAt htracked
  rw [hr₀, Option.map_some, hr₀t, if_pos rfl] at hrec hbun
  have hidxB : pB.index = s₂.setBundled dst B := hidx
  have hnotpending : p.pendingDeletes.isPending src = false :=
    Debouncer.isPending_eq_false.mpr fun e he => (hquiet e he).1
  have hpendB : pB.pendingDeletes.pending =
      (p.pendingDeletes.pending ++ [(src, t₀ + p.pendingDeletes.duration)]).filter
        fun e => !Path.same e.1 dst := by
    show (pC.recordDocuments d₁ dst docs).1.pendingDeletes.pending = _
    rw [hpend]
    show List.filter _ (p.pendingDeletes.record src t₀).1.pending = _
    rw [Debouncer.record_pending hnotpending]
  have hdueB : pB.dueDeletions t₂ = [src] := by
    show (pB.pendingDeletes.pending.filter fun e => decide (e.2 ≤ t₂)).map (·.1) = [src]
    rw [hpendB, List.filter_filter, List.filter_append,
      List.filter_eq_nil_iff.mpr fun e he => by simp [(hquiet e he).2], List.nil_append]
    simp [Path.same_eq, hne, hdue]
  have hwaitB : ∀ e ∈ pB.pendingDeletes.pending, t₂ < e.2 →
      Path.components e.1 ≠ Path.components src := by
    intro e he hlate
    rw [hpendB] at he
    rcases List.mem_append.mp (List.mem_filter.mp he).1 with he | he
    · exact (hquiet e he).1
    · rw [List.mem_singleton] at he
      subst he
      exact absurd hdue (by simpa using hlate)
  obtain ⟨hidxT, hqT, hpendT⟩ := tick_of_untracked pB d₂ t₂ hsrc.own_file hdueB hgone
    (by rw [hidxB]; exact hrec) hwaitB
  refine ⟨?_, ?_, ?_, hpendT⟩
  · rw [hqT]
    exact hqueue
  · rw [hidxT, hidxB]
    exact htracks
  · rw [hidxT, hidxB]
    exact ⟨hrec, hbun⟩

end Move

/-- The two ways a move of a file is reported end alike. A file tracked at `src` with title `t`
moves to `dst`, where a regular file reads as documents titled `t :: B`; both paths name their
own files rather than sidecars. Reported as one rename, or as a removal, then a creation of the
new file, then a tick at or after the removal's grace deadline with no file left at `src` and no
other removal due, the move leaves every title of the file modified and none deleted, `t`
tracked at `dst` with `B` bundled there, nothing at `src`, and no removal of `src` pending. -/
theorem move_reports_agree (p : Pipeline) (hs : p.index.Sound) {src dst t : String}
    {B : List String} {docs : List Fields} (htracked : p.index.titleAt src = .ok t)
    (hne : Path.components src ≠ Path.components dst)
    (hroot : ∃ root ∈ p.index.roots, Path.startsWith dst root = true)
    (htitles : docs.map titleOf = t :: B) :
    (∀ d now, d.HoldsDocuments dst docs → p.Admits d src now → p.Admits d dst now →
      (p.handleBatch d [.renamed src dst] now).Moved src dst t B) ∧
    (∀ d₀ d₁ d₂ t₀ t₁ t₂, d₁.HoldsDocuments dst docs → p.Admits d₀ src t₀ →
      p.Admits d₁ dst t₁ → t₀ + p.pendingDeletes.duration ≤ t₂ → d₂.isFile src = false →
      (∀ e ∈ p.pendingDeletes.pending, Path.components e.1 ≠ Path.components src ∧ t₂ < e.2) →
      (((p.handleBatch d₀ [.removed src] t₀).handleBatch d₁ [.created dst] t₁).tick d₂ t₂).1.Moved
        src dst t B) :=
  ⟨fun _ _ hf hsrc hdst => moved_of_rename hs htracked hne hroot htitles hf hsrc hdst,
    fun _ _ _ _ _ _ hf hsrc hdst hdue hgone hquiet =>
      moved_of_remove_create_tick hs htracked hne hroot htitles hf hsrc hdst hdue hgone hquiet⟩

end Pipeline

/-- A note tracked at `/w/a.tid` under the title `b` moves to the text file `/w/b.txt`, whose one
document takes the title `b` from the file's name; both reports of the move end alike. -/
theorem move_reports_agree_txt :
    let ix : IndexSet := ({} : IndexSet).run
      [.registerRoot "/w", .insert ⟨"", "/w/a.tid", "b", defaultContentType, false, true⟩]
    let p : Pipeline :=
      { index := ix, queue := {}, exclusions := .new 0, rules := [("/w", ⟨⟨"/w", []⟩, false⟩)],
        pendingDeletes := .new 100, syncTimer := .new 200, vcsTimers := .new 1000,
        cacheFields := false }
    let d : Disk := ⟨[(["w"], .dir), (["w", "b.txt"], .file [120] 0)], 0⟩
    let docs : List Fields :=
      [((Fields.empty.insert titleField "b").insert typeField "text/plain").insert textField "x"]
    p.index.Sound ∧ p.index.titleAt "/w/a.tid" = .ok "b" ∧
      Path.components "/w/a.tid" ≠ Path.components "/w/b.txt" ∧
      (∃ root ∈ p.index.roots, Path.startsWith "/w/b.txt" root = true) ∧
      docs.map Pipeline.titleOf = ["b"] ∧ d.HoldsDocuments "/w/b.txt" docs ∧
      p.Admits d "/w/a.tid" 5 ∧ p.Admits d "/w/b.txt" 5 ∧ p.Admits d "/w/b.txt" 10 ∧
      d.isFile "/w/a.tid" = false ∧
      (p.handleBatch d [.renamed "/w/a.tid" "/w/b.txt"] 5).Moved "/w/a.tid" "/w/b.txt" "b" [] ∧
      (((p.handleBatch d [.removed "/w/a.tid"] 5).handleBatch d [.created "/w/b.txt"] 10).tick
        d 105).1.Moved "/w/a.tid" "/w/b.txt" "b" [] := by
  intro ix p d docs
  have hcw : Path.components "/w" = [.root, .normal "w"] := by
    simp +decide [Path.components, Path.pieces]
  have hca : Path.components "/w/a.tid" = [.root, .normal "w", .normal "a.tid"] := by
    simp +decide [Path.components, Path.pieces]
  have hcb : Path.components "/w/b.txt" = [.root, .normal "w", .normal "b.txt"] := by
    simp +decide [Path.components, Path.pieces]
  have hbegins_a : Path.startsWith "/w/a.tid" "/w" = true := by
    simp +decide [Path.startsWith, hcw, hca]
  have hbegins_b : Path.startsWith "/w/b.txt" "/w" = true := by
    simp +decide [Path.startsWith, hcw, hcb]
  have htext_a : Pathname.ofText "/w/a.tid" = ⟨true, [.name "w", .name "a.tid"], false⟩ := by
    have hend : "/w/a.tid".endsWith "/" = false := by decide +kernel
    have hstart : "/w/a.tid".startsWith "/" = true := by decide +kernel
    simp +decide [Pathname.ofText, hend, hstart]
  have htext_b : Pathname.ofText "/w/b.txt" = ⟨true, [.name "w", .name "b.txt"], false⟩ := by
    have hend : "/w/b.txt".endsWith "/" = false := by decide +kernel
    have hstart : "/w/b.txt".startsWith "/" = true := by decide +kernel
    simp +decide [Pathname.ofText, hend, hstart]
  have htext_meta : Pathname.ofText "/w/b.txt.meta" =
      ⟨true, [.name "w", .name "b.txt.meta"], false⟩ := by
    have hend : "/w/b.txt.meta".endsWith "/" = false := by decide +kernel
    have hstart : "/w/b.txt.meta".startsWith "/" = true := by decide +kernel
    simp +decide [Pathname.ofText, hend, hstart]
  have hsound₀ : (IndexSet.withRoot "/w").Sound := IndexSet.sound_empty.registerRoot "/w"
  obtain ⟨⟨s', dsp⟩, hins⟩ := IndexSet.insert_ok_of_startsWith
    (r := ⟨"", "/w/a.tid", "b", defaultContentType, false, true⟩)
    (s := IndexSet.withRoot "/w") (List.mem_singleton.mpr rfl) hbegins_a
  have hix : ix = s' := by
    show (IndexSet.withRoot "/w").apply
      (.insert ⟨"", "/w/a.tid", "b", defaultContentType, false, true⟩) = s'
    simp only [IndexSet.apply, hins]
  have hsound : p.index.Sound := by
    show ix.Sound
    rw [hix]
    exact hsound₀.insert hins
  have htracked : p.index.titleAt "/w/a.tid" = .ok "b" := by
    obtain ⟨root, rel, -, -, hat⟩ := hsound₀.insert_found hins
    show ix.titleAt "/w/a.tid" = .ok "b"
    rw [hix]
    exact IndexSet.titleAt_of_recordAt? hat
  have hroot : ∃ root ∈ p.index.roots, Path.startsWith "/w/b.txt" root = true := by
    refine ⟨"/w", ?_, hbegins_b⟩
    show "/w" ∈ ix.roots
    rw [hix, hsound₀.insert_roots hins]
    exact List.mem_singleton.mpr rfl
  have hne : Path.components "/w/a.tid" ≠ Path.components "/w/b.txt" := by
    rw [hca, hcb]
    decide
  have htitles : docs.map Pipeline.titleOf = ["b"] := by decide
  have hadmits : ∀ path now, primaryForSidecar path = none → Path.startsWith path "/w" = true →
      p.Admits d path now := by
    intro path now hside hbegins
    refine ⟨hside, ⟨⟨⟨"/w", []⟩, false⟩, ?_, ?_⟩, rfl⟩
    · simp [Pipeline.rulesFor, p, hbegins]
    · simp [Pipeline.ignores, IgnoreRules.isIgnored]
  have hside_a : primaryForSidecar "/w/a.tid" = none := by
    have hend : "a.tid".endsWith sidecarSuffix = false := by decide +kernel
    simp [primaryForSidecar, Path.fileName?, hca, hend]
  have hside_b : primaryForSidecar "/w/b.txt" = none := by
    have hend : "b.txt".endsWith sidecarSuffix = false := by decide +kernel
    simp [primaryForSidecar, Path.fileName?, hcb, hend]
  have hholds : d.HoldsDocuments "/w/b.txt" docs := by
    have hbytes : d.read "/w/b.txt" = .ok [120] := by
      simp only [Disk.read, Disk.stat, Disk.reach, Disk.locate, htext_b]
      rfl
    have hdec : Utf8.decode? [120] = some "x" := by decide +kernel
    have hread : d.readText "/w/b.txt" = .ok "x" := by
      simp only [Disk.readText, hbytes, bind, Except.bind, hdec]
      rfl
    have hmeta : d.isFile (sidecarPath "/w/b.txt") = false := by
      have hs : sidecarPath "/w/b.txt" = "/w/b.txt.meta" := by decide
      rw [hs]
      simp only [Disk.isFile, Disk.stat, Disk.reach, Disk.locate, htext_meta]
      decide
    have hext : Path.extension? "/w/b.txt" = some "txt" := by
      simp +decide [Path.extension?, Path.fileName?, hcb, Path.splitName]
    have hstem : Codec.stemOf "/w/b.txt" = "b" := by
      simp +decide [Codec.stemOf, Path.fileStem?, Path.fileName?, hcb, Path.splitName]
    have hlow : asciiLower "txt" = "txt" := by
      rw [← String.toList_inj, asciiLower, String.toList_map]
      decide
    have htype : typeForExtension "txt" = some "text/plain" := by
      simp [typeForExtension, rawTypes, hlow]
    refine ⟨⟨["w", "b.txt"], [120], 0, ?_⟩, ?_, ?_⟩
    · simp only [Disk.stat, Disk.reach, Disk.locate, htext_b]
      rfl
    · simp only [Disk.isFile, Disk.stat, Disk.reach, Disk.locate, htext_b]
      decide
    · unfold readDocuments
      simp only [hread, hmeta, decode, hext, Option.getD_some, hlow, htype, hstem]
      rfl
  have hgone : d.isFile "/w/a.tid" = false := by
    simp only [Disk.isFile, Disk.stat, Disk.reach, Disk.locate, htext_a]
    decide
  have hsrc := hadmits _ 5 hside_a hbegins_a
  have hdst := hadmits _ 5 hside_b hbegins_b
  have hdst' := hadmits _ 10 hside_b hbegins_b
  have hmoves := Pipeline.move_reports_agree p hsound htracked hne hroot htitles
  exact ⟨hsound, htracked, hne, hroot, htitles, hholds, hsrc, hdst, hdst', hgone,
    hmoves.1 d 5 hholds hsrc hdst,
    hmoves.2 d d d 5 10 105 hholds hsrc hdst' (by decide) hgone fun e he => by cases he⟩

end WikiSync
