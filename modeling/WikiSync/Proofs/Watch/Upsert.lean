import WikiSync.Proofs.Watch.Grace
import WikiSync.Proofs.Index.Titles

/-!
# Reading a created or modified file

A created or modified file is read at once (`Pipeline.upsert`). The event's path is accepted as
the document file it concerns, whose pending removal is cancelled. The file is then read when its
root's rules do not skip it as a link and it is a regular file that decodes
(`Pipeline.readFile`); nothing else changes when it is not.

Recording the documents read (`Pipeline.recordDocuments`) does everything at once
(`Pipeline.Recorded`): the file's first document becomes the record at the path, with the path
relative to its root, and is tracked nowhere else; the other titles are bundled with it; every
title of the file waits as a modification that names the file, of kind change when the path was
tracked before and add otherwise, with the fields read when the queue keeps them; and every
title the path held before and holds no more waits as a deletion. Three facts carry it: the
latest change of a title wins in the queue (`ChangeQueue.foldl_modifications_pending`), a record
inserted at a path displaces the record there exactly when the titles differ
(`IndexSet.Sound.insert_snd`), and the insertion leaves every other path as it was unless its
record had the inserted title (`IndexSet.Sound.insert_setBundled`).

`Pipeline.handleBatch_upsert` puts this together for a batch of one event, with the timers it
arms: a sound index, a created or modified event accepted as an event of a file under a root
of the index, and the two outcomes of reading the file.
-/

namespace WikiSync

namespace IndexSet

/-- In a sound set, inserting a record displaces the record found at its path when that record
has another title, and nothing otherwise. -/
theorem Sound.insert_snd {s s' : IndexSet} (h : s.Sound) {r : FileRecord} {dsp : Option FileRecord}
    (hi : s.insert r = .ok (s', dsp)) :
    dsp = (s.recordAt? r.absolutePath).filter (·.title != r.title) := by
  obtain ⟨root, rel, ix, hsplit, hix, -, hd⟩ := insert_eq_ok hi
  obtain ⟨hmem, hroot⟩ := index?_eq_some hix
  have hmem₀ : ix ∈ s.indexes := mem_of_dropTitleElsewhere hmem hroot
  rw [hd, FileIndex.set_snd, (h.lookup_of_split hsplit hmem₀ hroot).1]
  rfl

end IndexSet

namespace Debouncer

/-- A key's timer is armed to fire at `deadline`: the key is pending, and every pending entry of
it is due then. -/
def ArmedAt (db : Debouncer) (k : String) (deadline : Nat) : Prop :=
  db.isPending k = true ∧ ∀ e ∈ db.pending, Path.same e.1 k = true → e.2 = deadline

/-- Recording a key arms its timer for the debounce duration from now. -/
theorem record_armedAt (db : Debouncer) (k : String) (now : Nat) :
    (db.record k now).1.ArmedAt k (now + db.duration) := by
  have hself : Path.same k k = true := by simp [Path.same_eq]
  unfold record
  dsimp only
  by_cases hp : db.isPending k = true
  · simp only [hp, if_true]
    obtain ⟨e, he, hsame⟩ := List.any_eq_true.mp hp
    refine ⟨List.any_eq_true.mpr ⟨(e.1, now + db.duration), List.mem_map.mpr ⟨e, he, by simp [hsame]⟩,
      hsame⟩, fun e' he' hsame' => ?_⟩
    obtain ⟨e₀, -, rfl⟩ := List.mem_map.mp he'
    by_cases h₀ : Path.same e₀.1 k = true
    · simp [h₀]
    · simp [h₀] at hsame'
  · simp only [hp, Bool.false_eq_true, if_false]
    refine ⟨List.any_eq_true.mpr ⟨(k, now + db.duration), by simp, hself⟩, fun e he hsame => ?_⟩
    rcases List.mem_append.mp he with he | he
    · exact absurd (List.any_eq_true.mpr ⟨e, he, hsame⟩) hp
    · rw [List.mem_singleton.mp he]

end Debouncer

namespace Pipeline

/-! ## Accepting the event and reading the file -/

/-- An accepted event path leaves the pipeline halted or not as it was. -/
theorem accept_halted {p : Pipeline} {d : Disk} {ev doc : String} {now : Nat}
    (h : (p.accept d ev now).2 = some doc) : (p.accept d ev now).1.halted = p.halted := by
  dsimp only [accept] at h ⊢
  repeat' split at h
  all_goals simp_all

/-- The document file of an accepted event lies under a watched root. -/
theorem accept_rulesFor {p : Pipeline} {d : Disk} {ev doc : String} {now : Nat}
    (h : (p.accept d ev now).2 = some doc) : ∃ r, p.rulesFor doc = some r := by
  have hdoc := (accept_some p d ev doc now h).1
  subst hdoc
  cases hr : p.rulesFor ((primaryForSidecar ev).getD ev) with
  | some r => exact ⟨r, rfl⟩
  | none => simp [accept, hr] at h

/-- Accepting an event path as the path of a document file changes only the exclusions. -/
theorem accept_eq_some {p : Pipeline} {d : Disk} {ev doc : String} {now : Nat}
    (h : (p.accept d ev now).2 = some doc) :
    ∃ x : Exclusions, p.accept d ev now = ({ p with exclusions := x }, some doc) := by
  obtain ⟨x, hh, heq⟩ := accept_only p d ev now
  have hhalted := accept_halted h
  rw [heq] at hhalted
  dsimp only at hhalted
  subst hhalted
  refine ⟨x, ?_⟩
  rw [← h, ← heq]

/-- The document file an event path is accepted as: a root's rules must hold the file and
ignore neither path, and neither path may be excluded at the time. -/
theorem accept_snd_eq (p : Pipeline) (d : Disk) (ev : String) (now : Nat) :
    (p.accept d ev now).2 =
      match p.rulesFor ((primaryForSidecar ev).getD ev) with
      | none => none
      | some r =>
        if ignoresEither r d ev ((primaryForSidecar ev).getD ev) = some false ∧
            p.exclusions.blocks ev now = false then some ((primaryForSidecar ev).getD ev)
        else none := by
  dsimp only [accept]
  cases hr : p.rulesFor ((primaryForSidecar ev).getD ev) with
  | none => rfl
  | some r =>
    dsimp only
    cases hi : ignoresEither r d ev ((primaryForSidecar ev).getD ev) with
    | none => simp
    | some b =>
      cases b
      · rcases h₁ : p.exclusions.isExcluded ev now with ⟨x₁, b₁⟩
        have hb₁ := Exclusions.isExcluded_snd p.exclusions ev now
        have hkeep :=
          Exclusions.excludedAt_isExcluded p.exclusions ev ((primaryForSidecar ev).getD ev) now
        rw [h₁] at hb₁ hkeep
        dsimp only at hb₁ hkeep ⊢
        cases b₁
        · simp only [Exclusions.blocks, ← hb₁, Exclusions.isExcluded_snd, hkeep, Bool.false_or,
            Bool.false_eq_true, if_false]
          cases p.exclusions.excludedAt ((primaryForSidecar ev).getD ev) now <;> simp
        · simp [Exclusions.blocks, ← hb₁]
      · simp

/-- Which document file an event path is accepted as depends only on the rules and on what is
excluded at the time. -/
theorem accept_snd_congr {p p' : Pipeline} (d : Disk) (ev : String) (now : Nat)
    (hr : p'.rules = p.rules)
    (hx : ∀ x, p'.exclusions.excludedAt x now = p.exclusions.excludedAt x now) :
    (p'.accept d ev now).2 = (p.accept d ev now).2 := by
  have hrules : p'.rulesFor ((primaryForSidecar ev).getD ev) =
      p.rulesFor ((primaryForSidecar ev).getD ev) := by
    unfold rulesFor
    rw [hr]
  rw [accept_snd_eq, accept_snd_eq, hrules, Exclusions.blocks, Exclusions.blocks, hx, hx]

/-- The documents read from the file at an accepted path: none when no root holds it, when it is
missing, when it is a link its root's rules skip, when it is not a regular file, or when it does
not decode. -/
def readFile (p : Pipeline) (d : Disk) (path : String) : Option (List Fields) :=
  match p.rulesFor path with
  | none => none
  | some r =>
    match d.stat path false with
    | .error _ => none
    | .ok (_, node) =>
      let isLink := match node with
        | .link _ => true
        | _ => false
      if isLink && r.ignoreSymlinks then none
      else if !d.isFile path then none
      else (readDocuments d path).toOption

/-- A regular file, itself no link, is read as the documents it decodes to. -/
theorem readFile_of_holds {p : Pipeline} {d : Disk} {path : String} {docs : List Fields} {r : RootRules}
    (hr : p.rulesFor path = some r) (hf : d.HoldsDocuments path docs) :
    p.readFile d path = some docs := by
  obtain ⟨place, bytes, modified, hstat⟩ := hf.regular
  simp [readFile, hr, hstat, hf.isFile, hf.read]
  rfl

/-- What is read from a file depends only on the rules. -/
theorem readFile_congr {p p' : Pipeline} (hr : p'.rules = p.rules) (d : Disk) (path : String) :
    p'.readFile d path = p.readFile d path := by
  unfold readFile rulesFor
  rw [hr]

/-- An event accepted as an event of the file at `path` cancels the file's pending removal and
records the documents read from the file, if any. -/
theorem upsert_of_accept {p : Pipeline} {d : Disk} {ev path : String} {now : Nat}
    (h : (p.accept d ev now).2 = some path) :
    ∃ x : Exclusions, p.upsert d ev now =
      match p.readFile d path with
      | some docs =>
        ({ p with exclusions := x, pendingDeletes := (p.pendingDeletes.remove path).1 }
          ).recordDocuments d path docs
      | none => ({ p with exclusions := x, pendingDeletes := (p.pendingDeletes.remove path).1 },
          none) := by
  obtain ⟨x, hacc⟩ := accept_eq_some h
  obtain ⟨r, hr⟩ := accept_rulesFor h
  have hr' : ({ p with exclusions := x, pendingDeletes := (p.pendingDeletes.remove path).1 }
      : Pipeline).rulesFor path = some r := hr
  refine ⟨x, ?_⟩
  unfold upsert readFile
  rw [hacc]
  dsimp only
  rw [hr', hr]
  dsimp only
  rcases d.stat path false with e | ⟨place, node⟩
  · rfl
  · cases node <;> cases r.ignoreSymlinks <;> cases d.isFile path <;>
      cases readDocuments d path <;> rfl

/-- A batch of one created or modified event reads the file it names. -/
theorem handleBatch_single {e : RawEvent} {ev : String} (he : e = .created ev ∨ e = .modified ev)
    (p : Pipeline) (d : Disk) (now : Nat) :
    p.handleBatch d [e] now = (p.upsert d ev now).1.arm (touch [] (p.upsert d ev now).2) now := by
  rcases he with rfl | rfl <;> rfl

/-! ## Recording the documents read -/

/-- Recording documents changes only the index and the queue. -/
theorem recordDocuments_only (p : Pipeline) (d : Disk) (doc : String) (docs : List Fields) :
    ∃ ix q, (p.recordDocuments d doc docs).1 = { p with index := ix, queue := q } := by
  unfold recordDocuments
  split
  · exact ⟨p.index, p.queue, rfl⟩
  · dsimp only
    split
    · exact ⟨p.index, p.queue, rfl⟩
    · split
      · exact ⟨p.index, p.queue, rfl⟩
      · exact ⟨_, _, rfl⟩

/-- What recording the documents `first :: rest` of the file at `doc`, under the path `rel`
relative to its root, leaves in `q`, read into `p`. -/
structure Recorded (q p : Pipeline) (d : Disk) (doc rel : String) (first : Fields)
    (rest : List Fields) : Prop where
  /-- The record at the path is the one the first document gives, relative to its root. -/
  recorded : q.index.recordAt? doc =
    some { FileRecord.discovered doc first (d.isFile (sidecarPath doc)) with relativePath := rel }
  /-- The first title's record is the one at the path. -/
  found : q.index.recordForTitle? (titleOf first) = q.index.recordAt? doc
  /-- The other titles are bundled with it. -/
  bundled : q.index.bundledAt doc = rest.map titleOf
  /-- Every other path keeps its record, unless the record had the first title. -/
  elsewhere : ∀ x, Path.components x ≠ Path.components doc →
    q.index.recordAt? x =
      if (p.index.recordAt? x).map (·.title) = some (titleOf first) then none
      else p.index.recordAt? x
  /-- Every title of the file waits as a modification and not as a deletion. -/
  modified : ∀ fs ∈ first :: rest,
    q.queue.isModified (titleOf fs) = true ∧ q.queue.isDeleted (titleOf fs) = false
  /-- The modification waiting for a title names the file, is a change when the path was tracked
  and an addition otherwise, and keeps the fields of a document of that title when the queue
  keeps fields. -/
  loads : ∀ fs ∈ first :: rest, ∃ fs' ∈ first :: rest, titleOf fs' = titleOf fs ∧
    q.queue.pending (titleOf fs) = some ⟨doc, rel,
      if (p.index.recordAt? doc).isSome then .change else .add,
      if p.cacheFields then some fs' else none⟩
  /-- A title the path held or bundled before, and holds no more, waits as a deletion. -/
  dropped : ∀ u, u ∉ (first :: rest).map titleOf →
    ((p.index.recordAt? doc).map (·.title) = some u ∨ u ∈ p.index.bundledAt doc) →
      q.queue.isDeleted u = true

/-- What recording left depends only on the index and the queue after, and on the index and
whether fields are kept before. -/
theorem Recorded.congr {q q' p p' : Pipeline} {d : Disk} {doc rel : String} {first : Fields}
    {rest : List Fields} (h : q.Recorded p d doc rel first rest) (hi : q'.index = q.index)
    (hq : q'.queue = q.queue) (hpi : p'.index = p.index) (hpc : p'.cacheFields = p.cacheFields) :
    q'.Recorded p' d doc rel first rest := by
  refine ⟨?_, ?_, ?_, fun x hx => ?_, fun fs hfs => ?_, fun fs hfs => ?_, fun u hu hheld => ?_⟩
  · rw [hi]
    exact h.recorded
  · rw [hi]
    exact h.found
  · rw [hi]
    exact h.bundled
  · rw [hi, hpi]
    exact h.elsewhere x hx
  · rw [hq]
    exact h.modified fs hfs
  · rw [hq, hpi, hpc]
    exact h.loads fs hfs
  · rw [hpi] at hheld
    rw [hq]
    exact h.dropped u hu hheld

/-- Arming timers keeps what recording left. -/
theorem Recorded.arm {q p : Pipeline} {d : Disk} {doc rel : String} {first : Fields}
    {rest : List Fields} (h : q.Recorded p d doc rel first rest) (touched : List String)
    (now : Nat) : (q.arm touched now).Recorded p d doc rel first rest := by
  obtain ⟨sync, vcs, harm⟩ := arm_eq q touched now
  exact h.congr (by rw [harm]) (by rw [harm]) rfl rfl

theorem snd_eq_of_mem_zip_map {α β : Type} (f : α → β) :
    ∀ (l : List α) (b : α × β), b ∈ l.zip (l.map f) → b.2 = f b.1
  | [], _, hb => by cases hb
  | a :: l, b, hb => by
    rw [List.map_cons, List.zip_cons_cons, List.mem_cons] at hb
    rcases hb with rfl | hb
    · rfl
    · exact snd_eq_of_mem_zip_map f l b hb

/-- Recording the documents of a file under a root of a sound index: the record of the first goes
in, the root holding the file is touched, and the pipeline is left as `Recorded` says. -/
theorem recordDocuments_post (p : Pipeline) (d : Disk) (hs : p.index.Sound) {doc : String}
    (first : Fields) (rest : List Fields)
    (hroot : ∃ root ∈ p.index.roots, Path.startsWith doc root = true) :
    ∃ root rel, p.index.split doc = .ok (root, rel) ∧
      (p.recordDocuments d doc (first :: rest)).2 = some root ∧
      (p.recordDocuments d doc (first :: rest)).1.Recorded p d doc rel first rest := by
  obtain ⟨root₀, hr, hbegins⟩ := hroot
  obtain ⟨root, rel, hsplit⟩ := IndexSet.split_ok_of_startsWith hr hbegins
  have hins₀ : ∃ v, p.index.insert (FileRecord.discovered doc first (d.isFile (sidecarPath doc))) =
      .ok v := IndexSet.insert_ok_of_startsWith hr hbegins
  obtain ⟨⟨s', dsp⟩, hins⟩ := hins₀
  obtain ⟨root', rel', hsplit', -, hat⟩ := hs.insert_found hins
  obtain ⟨-, htracks, hothers⟩ := hs.insert_setBundled hins (rest.map titleOf)
  have hdsp := hs.insert_snd hins
  have hs' := hs.insert hins
  rw [show (FileRecord.discovered doc first (d.isFile (sidecarPath doc))).absolutePath = doc
    from rfl] at hsplit' hat htracks hothers hdsp
  rw [hsplit] at hsplit'
  obtain ⟨rfl, rfl⟩ : root = root' ∧ rel = rel' := by simpa using hsplit'
  set titles := (first :: rest).map titleOf with htitles
  set kind : ChangeKind := if (p.index.recordAt? doc).isSome then .change else .add with hkind
  set change : Fields × String → PendingChange :=
    fun b => ⟨doc, rel, kind, if p.cacheFields then some b.1 else none⟩ with hchange
  set f : ChangeQueue → Fields × String → ChangeQueue :=
    fun q b => q.queueModification b.2 (change b) with hf
  set Q₁ : ChangeQueue := dsp.elim p.queue fun old =>
    p.queue.queueDeletion old.title (PendingChange.deleted old.absolutePath old.relativePath)
    with hQ₁
  set Q₂ : ChangeQueue := ((p.index.bundledAt doc).filter fun t => !titles.contains t).foldl
    (fun q t => q.queueDeletion t (PendingChange.deleted doc rel)) Q₁ with hQ₂
  have heq : p.recordDocuments d doc (first :: rest) =
      ({ p with
          index := s'.setBundled doc (rest.map titleOf)
          queue := ((first :: rest).zip titles).foldl f Q₂ }, some root) := by
    unfold recordDocuments
    simp only [hsplit, hins]
    cases dsp <;> rfl
  have hmods : ((first :: rest).zip titles).map Prod.snd = titles :=
    List.map_snd_zip (by simp [htitles])
  have hf' : ∀ q b, ∃ c, f q b = q.queueModification b.2 c := fun q b => ⟨change b, rfl⟩
  obtain ⟨r', hat', hfound', -, -⟩ := htracks.found
  refine ⟨root, rel, hsplit, by rw [heq], ?_⟩
  rw [heq]
  refine ⟨?_, ?_, htracks.bundled, fun x hx => ?_, fun fs hfs => ?_, fun fs hfs => ?_,
    fun u hu hheld => ?_⟩
  · exact ((hs'.lookup_setBundled doc _ doc).1).trans hat
  · show (s'.setBundled doc (rest.map titleOf)).recordForTitle? (titleOf first) =
      (s'.setBundled doc (rest.map titleOf)).recordAt? doc
    rw [hat']
    exact hfound'
  · exact (hothers x hx).1
  · have hx : titleOf fs ∈ ((first :: rest).zip titles).map Prod.snd := by
      rw [hmods]
      exact List.mem_map_of_mem hfs
    obtain ⟨b, hb, hbx⟩ := List.mem_map.mp hx
    exact ChangeQueue.foldl_modified f Prod.snd hf' _ Q₂ (titleOf fs) (.inl ⟨b, hb, hbx⟩)
  · have hx : titleOf fs ∈ ((first :: rest).zip titles).map Prod.snd := by
      rw [hmods]
      exact List.mem_map_of_mem hfs
    obtain ⟨b, hb, hbx, hpend⟩ :=
      ChangeQueue.foldl_modifications_pending f Prod.snd change (fun _ _ => rfl) _ Q₂ hx
    have hb₁ := (List.of_mem_zip hb).1
    have hb₂ := snd_eq_of_mem_zip_map titleOf (first :: rest) b hb
    exact ⟨b.1, hb₁, by rw [← hb₂, hbx], hpend⟩
  · have hnot : u ∉ ((first :: rest).zip titles).map Prod.snd := by
      rw [hmods]
      exact hu
    show (((first :: rest).zip titles).foldl f Q₂).isDeleted u = true
    rw [(ChangeQueue.foldl_modifications_of_not_mem f Prod.snd change (fun _ _ => rfl) _ Q₂
      hnot).2]
    have hdel : ∀ q t, ∃ c, (fun q t => ChangeQueue.queueDeletion q t
        (PendingChange.deleted doc rel)) q t = q.queueDeletion (id t) c := fun q t => ⟨_, rfl⟩
    refine ChangeQueue.foldl_deleted _ id hdel _ Q₁ u ?_
    rcases hheld with hold | hbun
    · right
      obtain ⟨old, hrec, rfl⟩ := Option.map_eq_some_iff.mp hold
      have hne : (old.title != titleOf first) = true := by
        have hfirst : titleOf first ∈ titles := List.mem_cons_self
        simp only [bne_iff_ne, ne_eq]
        exact fun h => hu (h ▸ hfirst)
      have hsome : dsp = some old := by
        rw [hdsp, hrec]
        exact Option.filter_eq_some_iff.mpr ⟨rfl, hne⟩
      rw [hQ₁, hsome]
      exact ChangeQueue.queueDeletion_deleted _ _ _ _ (.inl rfl)
    · left
      refine ⟨u, List.mem_filter.mpr ⟨hbun, ?_⟩, rfl⟩
      rw [htitles]
      simpa using hu

/-! ## A batch of one created or modified event -/

/-- An event accepted as an event of a file under a root of a sound index, which reads as the
documents `first :: rest`, records them as `Recorded` says, cancels the file's pending removal
and touches the root holding the file; the timers are left alone. -/
theorem upsert_read (p : Pipeline) (d : Disk) {ev path : String} (now : Nat) (hs : p.index.Sound)
    (hacc : (p.accept d ev now).2 = some path)
    (hroot : ∃ root ∈ p.index.roots, Path.startsWith path root = true) {first : Fields}
    {rest : List Fields} (hread : p.readFile d path = some (first :: rest)) :
    ∃ root rel, p.index.split path = .ok (root, rel) ∧ (p.upsert d ev now).2 = some root ∧
      (p.upsert d ev now).1.Recorded p d path rel first rest ∧
      (p.upsert d ev now).1.pendingDeletes.isPending path = false ∧
      (p.upsert d ev now).1.syncTimer = p.syncTimer ∧
      (p.upsert d ev now).1.vcsTimers = p.vcsTimers := by
  obtain ⟨x, hup⟩ := upsert_of_accept hacc
  set p' : Pipeline :=
    { p with exclusions := x, pendingDeletes := (p.pendingDeletes.remove path).1 } with hp'
  rw [hread] at hup
  dsimp only at hup
  obtain ⟨root, rel, hsplit, htouch, hrec⟩ := recordDocuments_post p' d hs first rest hroot
  obtain ⟨ix, q, hq⟩ := recordDocuments_only p' d path (first :: rest)
  have hpend := recordDocuments_pendingDeletes p' d path (first :: rest)
  rw [hup]
  refine ⟨root, rel, hsplit, htouch, hrec.congr rfl rfl rfl rfl, ?_, by rw [hq], by rw [hq]⟩
  rw [hpend]
  exact Debouncer.isPending_remove_self _ _

/-- Arming the timers of one root restarts the sync timer and that root's timer. -/
theorem arm_single (p : Pipeline) (root : String) (now : Nat) :
    p.arm [root] now = { p with
      syncTimer := (p.syncTimer.record "" now).1
      vcsTimers := (p.vcsTimers.record root now).1 } :=
  rfl

/-- A batch of one created or modified event, accepted as an event of a file under a root of a
sound index, which reads as the documents `first :: rest`: the pipeline is left as `Recorded`
says, with the file's removal no longer pending and the sync timer and the timer of the root
holding the file armed from now. -/
theorem handleBatch_read (p : Pipeline) (d : Disk) {e : RawEvent} {ev path : String}
    (now : Nat) (he : e = .created ev ∨ e = .modified ev) (hs : p.index.Sound)
    (hacc : (p.accept d ev now).2 = some path)
    (hroot : ∃ root ∈ p.index.roots, Path.startsWith path root = true) {first : Fields}
    {rest : List Fields} (hread : p.readFile d path = some (first :: rest)) :
    ∃ root rel, p.index.split path = .ok (root, rel) ∧
      (p.handleBatch d [e] now).Recorded p d path rel first rest ∧
      (p.handleBatch d [e] now).pendingDeletes.isPending path = false ∧
      (p.handleBatch d [e] now).syncTimer.ArmedAt "" (now + p.syncTimer.duration) ∧
      (p.handleBatch d [e] now).vcsTimers.ArmedAt root (now + p.vcsTimers.duration) := by
  obtain ⟨root, rel, hsplit, htouch, hrec, hpend, hsync, hvcs⟩ :=
    upsert_read p d now hs hacc hroot hread
  have harm : p.handleBatch d [e] now = (p.upsert d ev now).1.arm [root] now := by
    rw [handleBatch_single he, htouch]
    rfl
  rw [harm, arm_single]
  refine ⟨root, rel, hsplit, (hrec.arm [root] now).congr rfl rfl rfl rfl, hpend, ?_, ?_⟩
  · rw [hsync]
    exact Debouncer.record_armedAt _ _ _
  · rw [hvcs]
    exact Debouncer.record_armedAt _ _ _

/-- What a batch of one event, created or modified at `ev` and accepted as an event of the file
at `path`, leaves behind. When the file reads as documents `first :: rest`, the pipeline is left
as `Recorded` says, with the file's removal no longer pending and the sync timer and the timer of
the root holding the file armed from now. When the file cannot be read, or holds no document,
only the file's pending removal is cancelled. -/
structure Upserts (p : Pipeline) (d : Disk) (e : RawEvent) (path : String) (now : Nat) : Prop where
  read : ∀ first rest, p.readFile d path = some (first :: rest) →
    ∃ root rel, p.index.split path = .ok (root, rel) ∧
      (p.handleBatch d [e] now).Recorded p d path rel first rest ∧
      (p.handleBatch d [e] now).pendingDeletes.isPending path = false ∧
      (p.handleBatch d [e] now).syncTimer.ArmedAt "" (now + p.syncTimer.duration) ∧
      (p.handleBatch d [e] now).vcsTimers.ArmedAt root (now + p.vcsTimers.duration)
  unread : p.readFile d path = none ∨ p.readFile d path = some [] →
    (p.handleBatch d [e] now).index = p.index ∧ (p.handleBatch d [e] now).queue = p.queue ∧
      (p.handleBatch d [e] now).pendingDeletes = (p.pendingDeletes.remove path).1 ∧
      (p.handleBatch d [e] now).syncTimer = p.syncTimer ∧
      (p.handleBatch d [e] now).vcsTimers = p.vcsTimers

/-- A batch of one created or modified event, accepted as an event of a file under a root of a
sound index, does what `Upserts` says. -/
theorem handleBatch_upsert (p : Pipeline) (d : Disk) {e : RawEvent} {ev path : String}
    (now : Nat) (he : e = .created ev ∨ e = .modified ev) (hs : p.index.Sound)
    (hacc : (p.accept d ev now).2 = some path)
    (hroot : ∃ root ∈ p.index.roots, Path.startsWith path root = true) :
    p.Upserts d e path now := by
  refine ⟨fun first rest hread => handleBatch_read p d now he hs hacc hroot hread,
    fun hread => ?_⟩
  obtain ⟨x, hup⟩ := upsert_of_accept hacc
  have hnone : p.upsert d ev now =
      ({ p with exclusions := x, pendingDeletes := (p.pendingDeletes.remove path).1 }, none) := by
    rcases hread with hread | hread <;> rw [hread] at hup <;> exact hup
  rw [handleBatch_single he, hnone]
  exact ⟨rfl, rfl, rfl, rfl, rfl⟩

/-! ## A text file under a watched root -/

/-- With nothing excluded, accepting an event path leaves nothing excluded. -/
theorem accept_exclusions_of_nil {p : Pipeline} (h : p.exclusions.entries = []) (d : Disk)
    (ev : String) (now : Nat) : (p.accept d ev now).1.exclusions = p.exclusions := by
  have hnone : ∀ q, p.exclusions.entry? q = none := fun q => by
    simp [Exclusions.entry?, h]
  dsimp only [accept]
  repeat' split
  all_goals simp_all [Exclusions.isExcluded]

/-- A pipeline watching `/w` under no ignore rules, which tracks the text file `/w/a.txt` under
the title `a` its name gives, with nothing pending or excluded, a grace period of 100 ms, and
fields kept in the queue. -/
def textWiki : Pipeline :=
  { index := ({} : IndexSet).run
      [.registerRoot "/w", .insert ⟨"", "/w/a.txt", "a", "text/plain", false, true⟩]
    queue := {}, exclusions := .new 0, rules := [("/w", ⟨⟨"/w", []⟩, false⟩)],
    pendingDeletes := .new 100, syncTimer := .new 200, vcsTimers := .new 1000,
    cacheFields := true }

/-- The wiki with the text file `a` moved into the folder `x`. -/
def movedText : Disk := ⟨[(["w"], .dir), (["w", "x"], .dir), (["w", "x", "a.txt"], .file [120] 0)], 0⟩

/-- The wiki with a text file `a` at its top and another in the folder `x`. -/
def bothTexts : Disk :=
  ⟨[(["w"], .dir), (["w", "a.txt"], .file [120] 0), (["w", "x"], .dir),
    (["w", "x", "a.txt"], .file [120] 0)], 0⟩

/-- The one document of a text file named `a` that holds `x`. -/
def textDoc : Fields :=
  ((Fields.empty.insert titleField "a").insert typeField "text/plain").insert textField "x"

theorem components_w : Path.components "/w" = [.root, .normal "w"] := by
  simp +decide [Path.components, Path.pieces]

theorem components_a : Path.components "/w/a.txt" = [.root, .normal "w", .normal "a.txt"] := by
  simp +decide [Path.components, Path.pieces]

theorem components_xa :
    Path.components "/w/x/a.txt" = [.root, .normal "w", .normal "x", .normal "a.txt"] := by
  simp +decide [Path.components, Path.pieces]

theorem textWiki_index : textWiki.index.Sound ∧ textWiki.index.titleAt "/w/a.txt" = .ok "a" ∧
    "/w" ∈ textWiki.index.roots := by
  have hbegins : Path.startsWith "/w/a.txt" "/w" = true := by
    simp +decide [Path.startsWith, components_w, components_a]
  have hsound₀ : (IndexSet.withRoot "/w").Sound := IndexSet.sound_empty.registerRoot "/w"
  have hins₀ : ∃ v, (IndexSet.withRoot "/w").insert
      ⟨"", "/w/a.txt", "a", "text/plain", false, true⟩ = .ok v :=
    IndexSet.insert_ok_of_startsWith (List.mem_singleton.mpr rfl) hbegins
  obtain ⟨⟨s', dsp⟩, hins⟩ := hins₀
  have hix : textWiki.index = s' := by
    show (IndexSet.withRoot "/w").apply (.insert ⟨"", "/w/a.txt", "a", "text/plain", false, true⟩) = s'
    simp only [IndexSet.apply, hins]
  obtain ⟨root, rel, -, -, hat⟩ := hsound₀.insert_found hins
  rw [hix, hsound₀.insert_roots hins]
  exact ⟨hsound₀.insert hins, IndexSet.titleAt_of_recordAt? hat, List.mem_singleton.mpr rfl⟩

/-- A path under `/w` that names no sidecar is admitted by a pipeline with the wiki's rules,
when it is not excluded. -/
theorem textWiki_admits {p : Pipeline} (hrules : p.rules = textWiki.rules) (d : Disk)
    {path : String} {now : Nat} (hside : primaryForSidecar path = none)
    (hbegins : Path.startsWith path "/w" = true) (hx : p.exclusions.excludedAt path now = false) :
    p.Admits d path now := by
  refine ⟨hside, ⟨⟨⟨"/w", []⟩, false⟩, ?_, ?_⟩, hx⟩
  · simp [Pipeline.rulesFor, hrules, textWiki, hbegins]
  · simp [Pipeline.ignores, IgnoreRules.isIgnored]

theorem text_paths : primaryForSidecar "/w/a.txt" = none ∧ primaryForSidecar "/w/x/a.txt" = none ∧
    Path.startsWith "/w/a.txt" "/w" = true ∧ Path.startsWith "/w/x/a.txt" "/w" = true := by
  have hend : "a.txt".endsWith sidecarSuffix = false := by decide +kernel
  refine ⟨?_, ?_, ?_, ?_⟩
  · simp [primaryForSidecar, Path.fileName?, components_a, hend]
  · simp [primaryForSidecar, Path.fileName?, components_xa, hend]
  · simp +decide [Path.startsWith, components_w, components_a]
  · simp +decide [Path.startsWith, components_w, components_xa]

/-- A regular file holding `x`, with no sidecar, named `a.txt` at `path` in one of the disks:
it reads as the one document `textDoc`. -/
theorem holds_textDoc {d : Disk} {path : String} (place : Place)
    (hstat : d.stat path false = .ok (place, .file [120] 0)) (hfile : d.isFile path = true)
    (hbytes : d.read path = .ok [120]) (hmeta : d.isFile (sidecarPath path) = false)
    (hext : Path.extension? path = some "txt") (hstem : Codec.stemOf path = "a") :
    d.HoldsDocuments path [textDoc] := by
  have hdec : Utf8.decode? [120] = some "x" := by decide +kernel
  have hread : d.readText path = .ok "x" := by
    simp only [Disk.readText, hbytes, bind, Except.bind, hdec]
    rfl
  have hlow : asciiLower "txt" = "txt" := by
    rw [← String.toList_inj, asciiLower, String.toList_map]
    decide
  have htype : typeForExtension "txt" = some "text/plain" := by
    simp [typeForExtension, rawTypes, hlow]
  refine ⟨⟨place, [120], 0, hstat⟩, hfile, ?_⟩
  unfold readDocuments
  simp only [hread, hmeta, decode, hext, Option.getD_some, hlow, htype, hstem]
  rfl

theorem bothTexts_holds : bothTexts.HoldsDocuments "/w/a.txt" [textDoc] := by
  have htext : Pathname.ofText "/w/a.txt" = ⟨true, [.name "w", .name "a.txt"], false⟩ := by
    have hend : "/w/a.txt".endsWith "/" = false := by decide +kernel
    have hstart : "/w/a.txt".startsWith "/" = true := by decide +kernel
    simp +decide [Pathname.ofText, hend, hstart]
  have htext_meta : Pathname.ofText "/w/a.txt.meta" =
      ⟨true, [.name "w", .name "a.txt.meta"], false⟩ := by
    have hend : "/w/a.txt.meta".endsWith "/" = false := by decide +kernel
    have hstart : "/w/a.txt.meta".startsWith "/" = true := by decide +kernel
    simp +decide [Pathname.ofText, hend, hstart]
  have hs : sidecarPath "/w/a.txt" = "/w/a.txt.meta" := by decide
  refine holds_textDoc ["w", "a.txt"] ?_ ?_ ?_ ?_ ?_ ?_
  · simp only [Disk.stat, Disk.reach, Disk.locate, htext]
    rfl
  · simp only [Disk.isFile, Disk.stat, Disk.reach, Disk.locate, htext]
    decide
  · simp only [Disk.read, Disk.stat, Disk.reach, Disk.locate, htext]
    rfl
  · rw [hs]
    simp only [Disk.isFile, Disk.stat, Disk.reach, Disk.locate, htext_meta]
    decide
  · simp +decide [Path.extension?, Path.fileName?, components_a, Path.splitName]
  · simp +decide [Codec.stemOf, Path.fileStem?, Path.fileName?, components_a, Path.splitName]

theorem movedText_holds : movedText.HoldsDocuments "/w/x/a.txt" [textDoc] := by
  have htext : Pathname.ofText "/w/x/a.txt" = ⟨true, [.name "w", .name "x", .name "a.txt"], false⟩ := by
    have hend : "/w/x/a.txt".endsWith "/" = false := by decide +kernel
    have hstart : "/w/x/a.txt".startsWith "/" = true := by decide +kernel
    simp +decide [Pathname.ofText, hend, hstart]
  have htext_meta : Pathname.ofText "/w/x/a.txt.meta" =
      ⟨true, [.name "w", .name "x", .name "a.txt.meta"], false⟩ := by
    have hend : "/w/x/a.txt.meta".endsWith "/" = false := by decide +kernel
    have hstart : "/w/x/a.txt.meta".startsWith "/" = true := by decide +kernel
    simp +decide [Pathname.ofText, hend, hstart]
  have hs : sidecarPath "/w/x/a.txt" = "/w/x/a.txt.meta" := by decide
  refine holds_textDoc ["w", "x", "a.txt"] ?_ ?_ ?_ ?_ ?_ ?_
  · simp only [Disk.stat, Disk.reach, Disk.locate, htext]
    rfl
  · simp only [Disk.isFile, Disk.stat, Disk.reach, Disk.locate, htext]
    decide
  · simp only [Disk.read, Disk.stat, Disk.reach, Disk.locate, htext]
    rfl
  · rw [hs]
    simp only [Disk.isFile, Disk.stat, Disk.reach, Disk.locate, htext_meta]
    decide
  · simp +decide [Path.extension?, Path.fileName?, components_xa, Path.splitName]
  · simp +decide [Codec.stemOf, Path.fileStem?, Path.fileName?, components_xa, Path.splitName]

theorem textWiki_excludes_nothing (path : String) (now : Nat) :
    textWiki.exclusions.excludedAt path now = false := by
  simp [textWiki, Exclusions.new, Exclusions.excludedAt, Exclusions.entry?]

/-- The text file `/w/a.txt`, reported modified at 5, is read back into the wiki. -/
theorem handleBatch_upsert_text :
    textWiki.index.Sound ∧ (textWiki.accept bothTexts "/w/a.txt" 5).2 = some "/w/a.txt" ∧
      (∃ root ∈ textWiki.index.roots, Path.startsWith "/w/a.txt" root = true) ∧
      textWiki.Upserts bothTexts (.modified "/w/a.txt") "/w/a.txt" 5 := by
  obtain ⟨hs, -, hroot⟩ := textWiki_index
  obtain ⟨hside, -, hbegins, -⟩ := text_paths
  obtain ⟨x, hacc, -⟩ := accept_of_admits
    (textWiki_admits rfl bothTexts hside hbegins (textWiki_excludes_nothing "/w/a.txt" 5))
  have hacc' : (textWiki.accept bothTexts "/w/a.txt" 5).2 = some "/w/a.txt" := by rw [hacc]
  exact ⟨hs, hacc', ⟨"/w", hroot, hbegins⟩,
    handleBatch_upsert textWiki bothTexts 5 (.inr rfl) hs hacc' ⟨"/w", hroot, hbegins⟩⟩

end Pipeline

end WikiSync
