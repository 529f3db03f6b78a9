import WikiSync.Proofs.Watch.Deletions
import WikiSync.Proofs.Watch.Recreate

/-!
# A removal settled at its deadline

The first tick at or after the grace deadline of a removed file settles the removal: with no
regular file left at the path and the path admitted, it queues the title tracked there as
deleted and leaves it tracked nowhere (`Pipeline.removal_settles_at_deadline`), whatever else
falls due at the same tick.

The title has to reach that tick still tracked at the path, and two things in between take it
away. A file read meanwhile that holds a document of the same title takes the title over
(`Disk.Lacks` rules this out). A root registered below the root owning the path hides the path's
record: the path then splits at the new root, whose index is empty
(`Pipeline.Input.KeepsTitle` rules this out). Under both, the index holds the record at the path
under the same root all along (`IndexSet.HoldsAt.run`).

At the tick, the removals due before the file's are of other files and keep the record held;
the file's removal deletes it and queues its title; and the removals due after it neither track
the title again nor queue it as modified (`Pipeline.Settled`).
-/

namespace WikiSync

namespace Disk

/-- No file of the disk reads as a document titled `t`. -/
def Lacks (d : Disk) (t : String) : Prop :=
  ∀ q docs, readDocuments d q = .ok docs → ∀ fs ∈ docs, Pipeline.titleOf fs ≠ t

/-- A disk with no regular file reads as no document at all. -/
theorem lacks_of_no_file {d : Disk} (h : ∀ pl bs t, d.lookup pl ≠ some (.file bs t))
    (t : String) : d.Lacks t := by
  intro q docs hdocs
  unfold readDocuments at hdocs
  cases ht : d.readText q with
  | error e => simp [ht, bind, Except.bind, throw, throwThe, MonadExceptOf.throw] at hdocs
  | ok raw =>
    obtain ⟨pl, bs, t', hl, -⟩ := readText_eq_ok ht
    exact absurd hl (h pl bs t')

end Disk

namespace IndexSet

variable {s s' : IndexSet} {path owner : String} {r : FileRecord}

/-- In a sound set, removing a path keeps the record at every path with other components. -/
theorem Sound.recordAt?_removePath_of_ne (h : s.Sound) {q : String}
    (hne : Path.components path ≠ Path.components q) :
    (s.removePath q).1.recordAt? path = s.recordAt? path := by
  have h' := h.removePath q
  rcases split_cases s q with ⟨root, rel, -, hsplit⟩ | ⟨-, herr⟩
  · obtain ⟨o, ho, rfl⟩ := exists_index_of_split hsplit
    have heq : (s.removePath q).1 = s.update (o.delete rel).1 := by
      unfold IndexSet.removePath
      rw [hsplit]
      dsimp only
      rw [h.index?_of_mem ho rfl]
    rw [heq] at h' ⊢
    rcases split_cases s path with ⟨root', rel', -, hsplit'⟩ | ⟨-, herr'⟩
    · rw [(h.lookup_update ho (FileIndex.delete_root _ _) h' hsplit').1, FileIndex.delete_root]
      split
      · rename_i hsame
        have hrel : Path.components rel' ≠ Path.components rel := fun hr =>
          hne (by rw [split_components hsplit', split_components hsplit, hsame, hr])
        rw [FileIndex.model_delete, (h.lookup_of_split hsplit' ho hsame.symm).1]
        simp [IndexModel.delete, hrel]
      · rfl
    · rw [(h.lookup_update_of_split_error ho (FileIndex.delete_root _ _) herr').1,
        (lookup_of_split_error herr').1]
  · rw [removePath_of_split_error herr]

/-- The record at a path is read in the index of the root owning it. -/
theorem recordAt?_eq_of_owner (ho : s.owningRoot? path = some owner)
    (ho' : s'.owningRoot? path = some owner) (hix : s'.index? owner = s.index? owner) :
    s'.recordAt? path = s.recordAt? path := by
  unfold recordAt? split
  rw [ho, ho']
  dsimp only
  cases Path.stripPrefix? path owner with
  | none => rfl
  | some rel => simp only [hix]

theorem roots_registerRoot (s : IndexSet) (root : String) :
    (s.registerRoot root).1.roots = if s.isRegistered root then s.roots else s.roots ++ [root] := by
  unfold registerRoot
  split <;> simp [roots, FileIndex.new]

/-- Registering a root keeps the index of a root registered already. -/
theorem index?_registerRoot_of_mem (h : owner ∈ s.roots) (root : String) :
    (s.registerRoot root).1.index? owner = s.index? owner := by
  unfold registerRoot
  split
  · rfl
  · obtain ⟨ix, hix⟩ := Option.isSome_iff_exists.mp (index?_isSome h)
    unfold index? at hix ⊢
    rw [List.find?_append, hix]
    rfl

/-- A root registered no deeper than the owner of a path leaves the path to its owner. -/
theorem Owns.registerRoot (h : s.Owns path owner) {root : String}
    (hdeep : Path.startsWith path root = true →
      (Path.components root).length ≤ (Path.components owner).length) :
    (s.registerRoot root).1.Owns path owner := by
  have hmem : ∀ q, q ∈ (s.registerRoot root).1.roots ↔ q ∈ s.roots ∨
      (s.isRegistered root = false ∧ q = root) := by
    intro q
    rw [roots_registerRoot]
    split <;> simp_all
  refine ⟨(hmem owner).mpr (.inl h.1), h.2.1, fun q hq hbegins => ?_⟩
  rcases (hmem q).mp hq with hq | ⟨-, rfl⟩
  · exact h.2.2 q hq hbegins
  · exact hdeep hbegins

/-- A sound set holds the record `r` at `path`, under the root `owner` that owns the path. -/
structure HoldsAt (s : IndexSet) (path owner : String) (r : FileRecord) : Prop where
  sound : s.Sound
  owns : s.Owns path owner
  found : s.recordAt? path = some r

theorem HoldsAt.owningRoot? (h : s.HoldsAt path owner r) : s.owningRoot? path = some owner :=
  (owningRoot?_eq_some_iff h.sound.roots_nodup path owner).mpr h.owns

/-- An update that keeps the roots and the record at the path keeps the record held. -/
theorem HoldsAt.of_roots (h : s.HoldsAt path owner r) (hs : s'.Sound)
    (hroots : s'.roots = s.roots) (hfound : s'.recordAt? path = s.recordAt? path) :
    s'.HoldsAt path owner r :=
  ⟨hs, by unfold Owns; rw [hroots]; exact h.owns, hfound.trans h.found⟩

theorem HoldsAt.removePath (h : s.HoldsAt path owner r) {q : String}
    (hq : Path.components path ≠ Path.components q) : (s.removePath q).1.HoldsAt path owner r :=
  h.of_roots (h.sound.removePath q) (h.sound.removePath_roots q)
    (h.sound.recordAt?_removePath_of_ne hq)

/-- Tracking a record of another title at another path, with titles bundled there, keeps the
held record. -/
theorem HoldsAt.insert_setBundled (h : s.HoldsAt path owner r) {r' : FileRecord}
    {dsp : Option FileRecord} (hins : s.insert r' = .ok (s', dsp))
    (hq : Path.components path ≠ Path.components r'.absolutePath) (ht : r.title ≠ r'.title)
    (B : List String) : (s'.setBundled r'.absolutePath B).HoldsAt path owner r := by
  obtain ⟨hs', -, hothers⟩ := h.sound.insert_setBundled hins B
  refine h.of_roots hs'
    (((h.sound.insert hins).setBundled_roots _ _).trans (h.sound.insert_roots hins)) ?_
  rw [(hothers path hq).1, h.found]
  simp [ht]

theorem HoldsAt.registerRoot (h : s.HoldsAt path owner r) {root : String}
    (hdeep : Path.startsWith path root = true →
      (Path.components root).length ≤ (Path.components owner).length) :
    (s.registerRoot root).1.HoldsAt path owner r := by
  have hs' := h.sound.registerRoot root
  have howns := h.owns.registerRoot hdeep
  refine ⟨hs', howns, ?_⟩
  rw [recordAt?_eq_of_owner h.owningRoot?
    ((owningRoot?_eq_some_iff hs'.roots_nodup path owner).mpr howns)
    (index?_registerRoot_of_mem h.owns.1 root)]
  exact h.found

theorem HoldsAt.deregisterRoot (h : s.HoldsAt path owner r) {root : String}
    (hroot : Path.startsWith path root = false) :
    (s.deregisterRoot root).1.HoldsAt path owner r := by
  have hsame : Path.same owner root = false := by
    by_contra hne
    have heq : Path.components owner = Path.components root := by
      simpa [Path.same_eq] using hne
    have hbegins : Path.startsWith path root = Path.startsWith path owner := by
      simp only [Path.startsWith, heq]
    rw [hbegins, h.owns.2.1] at hroot
    cases hroot
  have hs' := h.sound.deregisterRoot root
  have howns := h.owns.deregisterRoot hsame
  refine ⟨hs', howns, ?_⟩
  rw [recordAt?_eq_of_owner h.owningRoot?
    ((owningRoot?_eq_some_iff hs'.roots_nodup path owner).mpr howns)
    (by rw [index?_deregisterRoot, hsame]; rfl)]
  exact h.found

end IndexSet

namespace Pipeline

/-! ## What a step does to the index and the queue -/

/-- What reading a file does to the index: nothing, or it tracks the record of the first
document and bundles the other titles with it. -/
theorem recordDocuments_index (p : Pipeline) (d : Disk) (doc : String) (docs : List Fields) :
    (p.recordDocuments d doc docs).1.index = p.index ∨
      ∃ first rest s' dsp, docs = first :: rest ∧
        p.index.insert (FileRecord.discovered doc first (d.isFile (sidecarPath doc))) =
          .ok (s', dsp) ∧
        (p.recordDocuments d doc docs).1.index = s'.setBundled doc (rest.map titleOf) := by
  unfold recordDocuments
  split
  · exact .inl rfl
  · rename_i first rest
    dsimp only
    split
    · exact .inl rfl
    · split
      · exact .inl rfl
      · rename_i s' dsp hins
        exact .inr ⟨first, rest, s', dsp, rfl, hins, rfl⟩

/-- Reading a file keeps every title deleted that none of its documents has. -/
theorem isDeleted_recordDocuments (p : Pipeline) (d : Disk) (doc : String) {docs : List Fields}
    {x : String} (hx : ∀ fs ∈ docs, titleOf fs ≠ x) (h : p.queue.isDeleted x = true) :
    (p.recordDocuments d doc docs).1.queue.isDeleted x = true := by
  unfold recordDocuments
  split
  · exact h
  · rename_i first rest
    dsimp only
    split
    · exact h
    · split
      · exact h
      · rename_i dsp _
        have hnot : x ∉ ((first :: rest).zip ((first :: rest).map titleOf)).map Prod.snd := by
          rw [List.map_snd_zip (by simp)]
          intro hmem
          obtain ⟨fs, hfs, hfx⟩ := List.mem_map.mp hmem
          exact hx fs hfs hfx
        rw [(ChangeQueue.foldl_modifications_of_not_mem _ Prod.snd _ (fun _ _ => rfl) _ _
          hnot).2]
        refine ChangeQueue.foldl_deleted _ id (fun q u => ⟨_, rfl⟩) _ _ x (.inr ?_)
        cases dsp with
        | none => exact h
        | some old => exact ChangeQueue.queueDeletion_deleted _ _ _ _ (.inr h)

/-- What reading an event path does: nothing to the index and the queue, or it records the
documents read from the path's document file. -/
theorem upsert_keeps_or_records (p : Pipeline) (d : Disk) (q : String) (now : Nat) :
    ∃ p' : Pipeline, p'.index = p.index ∧ p'.queue = p.queue ∧
      ((p.upsert d q now).1 = p' ∨ ∃ docs, readDocuments d (documentOf q) = .ok docs ∧
        (p.upsert d q now).1 = (p'.recordDocuments d (documentOf q) docs).1) := by
  unfold upsert
  rcases hacc : p.accept d q now with ⟨p', _ | doc⟩
  · obtain ⟨hi, hq⟩ := accept_fst hacc
    exact ⟨p', hi, hq, .inl rfl⟩
  · obtain ⟨hi, hq⟩ := accept_fst hacc
    obtain ⟨rfl, -⟩ := accept_some p d q doc now (by rw [hacc])
    refine ⟨{ p' with pendingDeletes := (p'.pendingDeletes.remove (documentOf q)).1 }, hi, hq, ?_⟩
    dsimp only
    repeat' split
    all_goals first | exact .inl rfl | exact .inr ⟨_, ‹_›, rfl⟩

/-- What deleting an event path at once does: nothing to the index and the queue, or it drops
the path's document file from the index and queues titles as deleted. -/
theorem deleteNow_cases (p : Pipeline) (d : Disk) (q : String) (now : Nat) :
    ((p.deleteNow d q now).1.index = p.index ∧ (p.deleteNow d q now).1.queue = p.queue) ∨
      ∃ (titles : List String) (c : PendingChange),
        (p.deleteNow d q now).1.index = (p.index.removePath (documentOf q)).1 ∧
        (p.deleteNow d q now).1.queue =
          titles.foldl (fun q u => q.queueDeletion u c) p.queue := by
  unfold deleteNow
  rcases hacc : p.accept d q now with ⟨p', _ | doc⟩
  · exact .inl (accept_fst hacc)
  · obtain ⟨hi, hq⟩ := accept_fst hacc
    obtain ⟨rfl, -⟩ := accept_some p d q doc now (by rw [hacc])
    dsimp only
    split
    · exact .inl ⟨hi, hq⟩
    · split
      · exact .inl ⟨hi, hq⟩
      · exact .inr ⟨_, _, by rw [← hi]; rfl, by rw [← hq]⟩

/-- An input leaves the title `t` held at `path` under `owner`: no file that a batch or a tick
reads holds a document titled `t`, and a root added that holds the path is no deeper than
`owner`. -/
def Input.KeepsTitle (path t owner : String) : Input → Prop
  | .batch d _ _ => d.Lacks t
  | .tick d _ => d.Lacks t
  | .addRoot r => Path.startsWith path r.root = true →
      (Path.components r.root).length ≤ (Path.components owner).length
  | _ => True

end Pipeline

/-! ## The record held until the deadline -/

namespace IndexSet

open Pipeline

variable {p : Pipeline} {path owner : String} {r : FileRecord} (d : Disk) (now : Nat)

/-- Reading another file, none of whose documents has the held title, keeps the record held. -/
theorem HoldsAt.recordDocuments (h : p.index.HoldsAt path owner r) {doc : String}
    {docs : List Fields} (hdoc : Path.components doc ≠ Path.components path)
    (hne : ∀ fs ∈ docs, titleOf fs ≠ r.title) :
    (p.recordDocuments d doc docs).1.index.HoldsAt path owner r := by
  rcases recordDocuments_index p d doc docs with hi | ⟨first, rest, s', dsp, rfl, hins, hi⟩
  · rw [hi]
    exact h
  · rw [hi]
    exact h.insert_setBundled hins (Ne.symm hdoc) (Ne.symm (hne first List.mem_cons_self)) _

theorem HoldsAt.upsert (h : p.index.HoldsAt path owner r) {q : String}
    (hq : Path.components (documentOf q) ≠ Path.components path) (hd : d.Lacks r.title) :
    (p.upsert d q now).1.index.HoldsAt path owner r := by
  obtain ⟨p', hi, -, hup | ⟨docs, hread, hup⟩⟩ := upsert_keeps_or_records p d q now
  · rw [hup, hi]
    exact h
  · rw [hup]
    exact (hi ▸ h : p'.index.HoldsAt path owner r).recordDocuments d hq (hd _ _ hread)

theorem HoldsAt.deleteNow (h : p.index.HoldsAt path owner r) {q : String}
    (hq : Path.components (documentOf q) ≠ Path.components path) :
    (p.deleteNow d q now).1.index.HoldsAt path owner r := by
  rcases deleteNow_cases p d q now with ⟨hi, -⟩ | ⟨-, -, hi, -⟩
  · rw [hi]
    exact h
  · rw [hi]
    exact h.removePath (Ne.symm hq)

/-- A removal, or a step about a path that does not reach the file, keeps the record held. -/
theorem HoldsAt.runStep {acc : Pipeline × List String} (h : acc.1.index.HoldsAt path owner r)
    (s : EventStep) (hs : (∃ q, s = .scheduleDelete q) ∨ ¬ Reaches path s.path)
    (hd : d.Lacks r.title) : (Pipeline.runStep d now acc s).1.index.HoldsAt path owner r := by
  obtain ⟨p, touched⟩ := acc
  cases s with
  | upsert q =>
    have hq : ¬ Reaches path q := hs.resolve_left fun ⟨_, he⟩ => by cases he
    exact h.upsert d now (fun h' => hq (.inl h')) hd
  | scheduleDelete q =>
    show (p.scheduleDelete d q now).index.HoldsAt path owner r
    rw [(scheduleDelete_fst p d q now).1]
    exact h
  | deleteNow q =>
    have hq : ¬ Reaches path q := hs.resolve_left fun ⟨_, he⟩ => by cases he
    exact h.deleteNow d now (fun h' => hq (.inl h'))

theorem HoldsAt.settleDelete {acc : Pipeline × List String} (h : acc.1.index.HoldsAt path owner r)
    {k : String} (hk : Path.components (documentOf k) ≠ Path.components path)
    (hd : d.Lacks r.title) : (Pipeline.settleDelete d now acc k).1.index.HoldsAt path owner r := by
  obtain ⟨p, touched⟩ := acc
  unfold Pipeline.settleDelete
  by_cases hf : d.isFile k = true
  · simp only [hf, if_true]
    exact h.upsert d now hk hd
  · simp only [hf, Bool.false_eq_true, if_false]
    exact h.deleteNow d now hk

/-- A batch over a disk lacking the title, whose events are removals or do not reach the file,
keeps the record held: a removal only starts a grace period. -/
theorem HoldsAt.handleBatch (h : p.index.HoldsAt path owner r) (events : List RawEvent)
    (hev : ∀ e ∈ events, (∃ q, e = .removed q) ∨ ∀ q ∈ e.paths, ¬ Reaches path q)
    (hd : d.Lacks r.title) : (p.handleBatch d events now).index.HoldsAt path owner r := by
  rw [handleBatch_eq_steps]
  obtain ⟨sync, vcs, harm⟩ := arm_eq
    ((events.flatMap RawEvent.steps).foldl (Pipeline.runStep d now) (p, [])).1
    ((events.flatMap RawEvent.steps).foldl (Pipeline.runStep d now) (p, [])).2 now
  rw [harm]
  refine foldl_keeps (fun q => q.index.HoldsAt path owner r) _ (fun acc s hs hacc => ?_) _ h
  obtain ⟨e, he, hse⟩ := List.mem_flatMap.mp hs
  refine hacc.runStep d now s ?_ hd
  rcases hev e he with ⟨q, rfl⟩ | hreach
  · exact .inl ⟨q, List.mem_singleton.mp hse⟩
  · exact .inr (hreach s.path (path_mem_of_steps hse))

/-- A tick before the deadline of the file's removal, over a disk lacking the title, keeps the
record held: what falls due is of other files. -/
theorem HoldsAt.tick (h : p.index.HoldsAt path owner r) {deadline : Nat}
    (hw : p.Awaits path deadline) (hnow : now < deadline) (hd : d.Lacks r.title) :
    (p.tick d now).1.index.HoldsAt path owner r := by
  rw [tick_fst]
  obtain ⟨sync, vcs, harm⟩ := arm_eq
    ((p.dueDeletions now).foldl (Pipeline.settleDelete d now) (p.settleStart now, [])).1
    ((p.dueDeletions now).foldl (Pipeline.settleDelete d now) (p.settleStart now, [])).2 now
  rw [harm]
  exact foldl_keeps (fun q => q.index.HoldsAt path owner r) _
    (fun acc k hk hacc => hacc.settleDelete d now
      (fun hdoc => absurd (hw.due hk hdoc).2 (by omega)) hd) _ h

/-- Every input that spares the file and keeps its title keeps the record held. -/
theorem HoldsAt.step (h : p.index.HoldsAt path owner r) {deadline : Nat}
    (hw : p.Awaits path deadline) :
    ∀ i : Input, i.Spares path deadline → i.KeepsTitle path r.title owner →
      (p.step i).index.HoldsAt path owner r
  | .batch d events now, hs, hk => h.handleBatch d now events (fun e he => .inr (hs e he)) hk
  | .tick d now, hs, hk => h.tick d now hw hs hk
  | .addRoot _, _, hk => h.registerRoot hk
  | .removeRoot _, hs, _ => h.deregisterRoot hs
  | .updateIgnore _ _, _, _ => h
  | .exclusions _, _, _ => h
  | .queue _, _, _ => h

/-- A run of inputs that spare the file and keep its title keeps the record held. -/
theorem HoldsAt.run (h : p.index.HoldsAt path owner r) {deadline : Nat}
    (hw : p.Awaits path deadline) (inputs : List Input)
    (hi : ∀ i ∈ inputs, i.Spares path deadline ∧ i.KeepsTitle path r.title owner) :
    (p.run inputs).index.HoldsAt path owner r := by
  induction inputs generalizing p with
  | nil => exact h
  | cons i inputs ih =>
    obtain ⟨hs, hk⟩ := hi i List.mem_cons_self
    exact ih (h.step hw i hs hk) (hw.step i hs) fun j hj => hi j (List.mem_cons_of_mem i hj)

end IndexSet

namespace Pipeline

/-! ## The tick at the deadline -/

/-- The removal of the file at `path` is settled with its title `t`: the index is sound and
tracks `t` nowhere and nothing at the path, and `t` waits as a deletion. -/
structure Settled (p : Pipeline) (path t : String) : Prop where
  sound : p.index.Sound
  untracked : p.index.Untracked t
  gone : p.index.recordAt? path = none
  deleted : p.queue.isDeleted t = true

section Settled

variable {p : Pipeline} {path t : String} (d : Disk) (now : Nat)

theorem Settled.congr {q : Pipeline} (h : p.Settled path t) (hi : q.index = p.index)
    (hq : q.queue = p.queue) : q.Settled path t :=
  ⟨hi ▸ h.sound, hi ▸ h.untracked, hi ▸ h.gone, hq ▸ h.deleted⟩

theorem Settled.recordDocuments (h : p.Settled path t) {doc : String} {docs : List Fields}
    (hdoc : Path.components doc ≠ Path.components path) (hne : ∀ fs ∈ docs, titleOf fs ≠ t) :
    (p.recordDocuments d doc docs).1.Settled path t := by
  have hdel := isDeleted_recordDocuments p d doc hne h.deleted
  rcases recordDocuments_index p d doc docs with hi | ⟨first, rest, s', dsp, rfl, hins, hi⟩
  · exact ⟨hi ▸ h.sound, hi ▸ h.untracked, hi ▸ h.gone, hdel⟩
  · obtain ⟨hs', -, hothers⟩ := h.sound.insert_setBundled hins (rest.map titleOf)
    refine ⟨hi ▸ hs',
      hi ▸ (h.untracked.insert (Ne.symm (hne first List.mem_cons_self)) hins).setBundled _ _, ?_,
      hdel⟩
    rw [hi]
    refine (hothers path (Ne.symm hdoc)).1.trans ?_
    rw [h.gone]
    simp

theorem Settled.upsert (h : p.Settled path t) {q : String}
    (hq : Path.components (documentOf q) ≠ Path.components path) (hd : d.Lacks t) :
    (p.upsert d q now).1.Settled path t := by
  obtain ⟨p', hi, hque, hup | ⟨docs, hread, hup⟩⟩ := upsert_keeps_or_records p d q now
  · rw [hup]
    exact h.congr hi hque
  · rw [hup]
    exact (h.congr hi hque).recordDocuments d hq (hd _ _ hread)

theorem Settled.deleteNow (h : p.Settled path t) {q : String}
    (hq : Path.components (documentOf q) ≠ Path.components path) :
    (p.deleteNow d q now).1.Settled path t := by
  rcases deleteNow_cases p d q now with ⟨hi, hque⟩ | ⟨titles, c, hi, hque⟩
  · exact h.congr hi hque
  · refine ⟨hi ▸ h.sound.removePath _, hi ▸ h.untracked.removePath _, ?_, ?_⟩
    · rw [hi, h.sound.recordAt?_removePath_of_ne (Ne.symm hq)]
      exact h.gone
    · rw [hque]
      exact ChangeQueue.foldl_deleted _ id (fun q u => ⟨c, rfl⟩) titles _ t (.inr h.deleted)

/-- Settling a due removal, of the file again or of a file whose document file is another,
keeps the removal settled, over a disk lacking the title with no regular file at the path. -/
theorem Settled.settleDelete {acc : Pipeline × List String} (h : acc.1.Settled path t)
    (hside : primaryForSidecar path = none) (hgone : d.isFile path = false) {k : String}
    (hk : k = path ∨ Path.components (documentOf k) ≠ Path.components path) (hd : d.Lacks t) :
    (Pipeline.settleDelete d now acc k).1.Settled path t := by
  obtain ⟨p, touched⟩ := acc
  unfold Pipeline.settleDelete
  rcases hk with rfl | hk
  · simp only [hgone, Bool.false_eq_true, if_false]
    obtain ⟨hi, hque, -, -⟩ := deleteNow_of_untracked p d now hside h.gone
    exact h.congr hi hque
  · by_cases hf : d.isFile k = true
    · simp only [hf, if_true]
      exact h.upsert d now hk hd
    · simp only [hf, Bool.false_eq_true, if_false]
      exact h.deleteNow d now hk

/-- Deleting the admitted path at once, with its record held, settles its removal. -/
theorem settled_of_holdsAt {owner : String} {r : FileRecord} (h : p.index.HoldsAt path owner r)
    (hadm : p.Admits d path now) : (p.deleteNow d path now).1.Settled path r.title := by
  have ht := IndexSet.titleAt_of_recordAt? h.found
  obtain ⟨x, root, rel, -, hdel, -⟩ := deleteNow_of_admits hadm ht
  rw [hdel]
  exact ⟨h.sound.removePath path, h.sound.untracked_removePath ht,
    (h.sound.lookup_removePath_self path).1, ChangeQueue.foldl_deleted _ id (fun q u => ⟨_, rfl⟩)
      _ _ _ (.inl ⟨r.title, List.mem_cons_self, rfl⟩)⟩

/-- Settling due removals in turn, the file's among them and each other one of a file whose
document file is another, settles the file's removal: those before it keep the record held and
the path admitted, the file's deletes the record, and those after keep the removal settled. -/
theorem foldl_settleDelete_settled {owner : String} {r : FileRecord}
    (hside : primaryForSidecar path = none) (hgone : d.isFile path = false)
    (hd : d.Lacks r.title) (due : List String)
    (hdue : ∀ k ∈ due, k = path ∨ Path.components (documentOf k) ≠ Path.components path)
    (hmem : path ∈ due) (acc : Pipeline × List String) (h : acc.1.index.HoldsAt path owner r)
    (hadm : acc.1.Admits d path now) :
    (due.foldl (Pipeline.settleDelete d now) acc).1.Settled path r.title := by
  induction due generalizing acc with
  | nil => cases hmem
  | cons k due ih =>
    rw [List.foldl_cons]
    by_cases hk : k = path
    · rw [hk]
      have hsettled : (Pipeline.settleDelete d now acc path).1.Settled path r.title := by
        obtain ⟨p, touched⟩ := acc
        unfold Pipeline.settleDelete
        simp only [hgone, Bool.false_eq_true, if_false]
        exact settled_of_holdsAt d now h hadm
      exact foldl_keeps (fun q => q.Settled path r.title) due
        (fun acc' k' hk' h' => h'.settleDelete d now hside hgone
          (hdue k' (List.mem_cons_of_mem _ hk')) hd) _ hsettled
    · have hne : Path.components (documentOf k) ≠ Path.components path :=
        (hdue k List.mem_cons_self).resolve_left hk
      exact ih (fun k' hk' => hdue k' (List.mem_cons_of_mem _ hk'))
        ((List.mem_cons.mp hmem).resolve_left (Ne.symm hk)) _ (h.settleDelete d now hne hd)
        (hadm.congr (settleDelete_rules d k now acc) (excludedAt_settleDelete d now acc k path))

/-- The tick at or after the deadline of an awaited removal, with the record held at the path,
no regular file there, the path admitted and no file of the disk holding a document of the
record's title, queues that title as deleted and leaves it tracked nowhere, whatever else falls
due with it. -/
theorem tick_settles_awaited {q : Pipeline} {owner : String} {r : FileRecord} {deadline : Nat}
    (hw : q.Awaits path deadline) (h : q.index.HoldsAt path owner r) (hnow : deadline ≤ now)
    (hgone : d.isFile path = false) (hadm : (q.settleStart now).Admits d path now)
    (hd : d.Lacks r.title) :
    (q.tick d now).1.queue.isDeleted r.title = true ∧
      (q.tick d now).1.index.recordForTitle? r.title = none := by
  have hdue : ∀ k ∈ q.dueDeletions now,
      k = path ∨ Path.components (documentOf k) ≠ Path.components path := by
    intro k hk
    by_cases hdoc : Path.components (documentOf k) = Path.components path
    · exact .inl (hw.due hk hdoc).1
    · exact .inr hdoc
  have hsettled := foldl_settleDelete_settled d now hadm.own_file hgone hd (q.dueDeletions now)
    hdue (hw.mem_due hnow) (q.settleStart now, []) h hadm
  rw [tick_fst]
  obtain ⟨sync, vcs, harm⟩ := arm_eq
    ((q.dueDeletions now).foldl (Pipeline.settleDelete d now) (q.settleStart now, [])).1
    ((q.dueDeletions now).foldl (Pipeline.settleDelete d now) (q.settleStart now, [])).2 now
  rw [harm]
  exact ⟨hsettled.deleted, hsettled.untracked.recordForTitle?⟩

end Settled

/-- No removal is lost while nothing reaches the file and its title stays its own. A removal of
the file at `path`, which names no sidecar and which the sound index tracks under the title `t`
in the root `owner`, is admitted at `t₀` in a batch whose other events do not reach the file,
every removal pending for the file before being recorded under its name. Then comes a run of
inputs that spare the file and keep its title: no event reaches the file, every tick is before
the grace deadline, no root taken away holds the file, no root added holds it more deeply than
`owner`, and no file read in a batch or a tick holds a document titled `t`. The next tick comes
at or after the deadline, with no regular file at the path, the path admitted and no file holding
a document titled `t`: it queues `t` as deleted and leaves it tracked nowhere, whatever else
falls due with it. -/
theorem removal_settles_at_deadline {p q : Pipeline} {d₀ d : Disk} {path t owner : String}
    {t₀ now : Nat} (pre post : List RawEvent) (inputs : List Input) (hs : p.index.Sound)
    (htracked : p.index.titleAt path = .ok t) (howner : p.index.owningRoot? path = some owner)
    (hunder : p.PendingUnder path) (hadm : p.Admits d₀ path t₀)
    (hev : ∀ e ∈ pre ++ post, ∀ x ∈ e.paths, ¬ Reaches path x) (hd₀ : d₀.Lacks t)
    (hin : ∀ i ∈ inputs,
      i.Spares path (t₀ + p.pendingDeletes.duration) ∧ i.KeepsTitle path t owner)
    (hq : (p.handleBatch d₀ (pre ++ .removed path :: post) t₀).run inputs = q)
    (hnow : t₀ + p.pendingDeletes.duration ≤ now) (hgone : d.isFile path = false)
    (hadmits : (q.settleStart now).Admits d path now) (hd : d.Lacks t) :
    (q.tick d now).1.queue.isDeleted t = true ∧ (q.tick d now).1.index.recordForTitle? t = none := by
  obtain ⟨r, hr, rfl⟩ := IndexSet.recordAt?_of_titleAt htracked
  have hheld : p.index.HoldsAt path owner r := ⟨hs, IndexSet.owns_of_owningRoot? howner, hr⟩
  have hbatch := hheld.handleBatch d₀ t₀ (pre ++ .removed path :: post) (fun e he => by
    rcases List.mem_append.mp he with he | he
    · exact .inr (hev e (List.mem_append_left _ he))
    · rcases List.mem_cons.mp he with rfl | he
      · exact .inl ⟨path, rfl⟩
      · exact .inr (hev e (List.mem_append_right _ he))) hd₀
  have hawaits := awaits_of_batch pre post hadm hunder hev
  subst hq
  exact tick_settles_awaited d now (hawaits.run inputs fun i hi => (hin i hi).1)
    (hbatch.run hawaits inputs hin) hnow hgone hadmits hd

/-! ## A note removed from a wiki -/

theorem admits_iff {p : Pipeline} {d : Disk} {path : String} {now : Nat} :
    p.Admits d path now ↔ primaryForSidecar path = none ∧
      ((p.rulesFor path).bind fun r => ignores r d path) = some false ∧
      p.exclusions.excludedAt path now = false := by
  constructor
  · rintro ⟨hside, ⟨r, hr, hign⟩, hx⟩
    exact ⟨hside, by rw [hr, Option.bind_some, hign], hx⟩
  · rintro ⟨hside, hw, hx⟩
    obtain ⟨r, hr, hign⟩ := Option.bind_eq_some_iff.mp hw
    exact ⟨hside, ⟨r, hr, hign⟩, hx⟩

instance {p : Pipeline} {d : Disk} {path : String} {now : Nat} :
    Decidable (p.Admits d path now) :=
  decidable_of_iff _ admits_iff.symm

/-- The wiki's folder holds no regular file, so it reads as no document of any title. -/
theorem bareWiki_lacks (t : String) : bareWiki.Lacks t :=
  Disk.lacks_of_no_file (fun pl bs t' hl => by
    simp only [bareWiki, Disk.lookup] at hl
    split at hl <;> simp at hl) t

/-- Between the note's removal and the tick at 100: the whole disk becomes a root, above the
wiki's, and a tick at 50 comes before the deadline. -/
def noteRun : List Input := [.addRoot ⟨⟨"/", []⟩, false⟩, .tick bareWiki 50]

/-- The note's removal at 0, reported with the removal of another file `c.tid`, is settled by the
tick at 100 after a root added above the wiki and a tick at 50: `b` is queued as deleted and
tracked nowhere, while the removal of `c.tid` falls due at the same tick. -/
theorem note_removal_settles_at_deadline :
    let q := (watchedNote.handleBatch bareWiki
      ([] ++ .removed "/w/a.tid" :: [.removed "/w/c.tid"]) 0).run noteRun
    watchedNote.index.Sound ∧ watchedNote.index.titleAt "/w/a.tid" = .ok "b" ∧
      watchedNote.index.owningRoot? "/w/a.tid" = some "/w" ∧
      watchedNote.PendingUnder "/w/a.tid" ∧ watchedNote.Admits bareWiki "/w/a.tid" 0 ∧
      (∀ e ∈ ([] : List RawEvent) ++ [.removed "/w/c.tid"], ∀ x ∈ e.paths,
        ¬ Reaches "/w/a.tid" x) ∧ bareWiki.Lacks "b" ∧
      (∀ i ∈ noteRun, i.Spares "/w/a.tid" (0 + watchedNote.pendingDeletes.duration) ∧
        i.KeepsTitle "/w/a.tid" "b" "/w") ∧
      0 + watchedNote.pendingDeletes.duration ≤ 100 ∧ bareWiki.isFile "/w/a.tid" = false ∧
      (q.settleStart 100).Admits bareWiki "/w/a.tid" 100 ∧
      q.dueDeletions 100 = ["/w/a.tid", "/w/c.tid"] ∧
      (q.tick bareWiki 100).1.queue.isDeleted "b" = true ∧
      (q.tick bareWiki 100).1.index.recordForTitle? "b" = none := by
  intro q
  have hs : watchedNote.index.Sound := IndexSet.sound_empty.run _
  have howner : watchedNote.index.owningRoot? "/w/a.tid" = some "/w" := by
    with_unfolding_all decide
  have hunder : watchedNote.PendingUnder "/w/a.tid" := fun e he => by cases he
  have hadm := watchedNote_admits rfl rfl 0
  have hev : ∀ e ∈ ([] : List RawEvent) ++ [.removed "/w/c.tid"], ∀ x ∈ e.paths,
      ¬ Reaches "/w/a.tid" x := by
    intro e he x hx
    simp only [List.nil_append, List.mem_singleton] at he
    subst he
    simp only [RawEvent.paths, List.mem_singleton] at hx
    subst hx
    unfold Reaches documentOf
    with_unfolding_all decide
  have hin : ∀ i ∈ noteRun, i.Spares "/w/a.tid" (0 + watchedNote.pendingDeletes.duration) ∧
      i.KeepsTitle "/w/a.tid" "b" "/w" := by
    intro i hi
    simp only [noteRun, List.mem_cons, List.not_mem_nil, or_false] at hi
    rcases hi with rfl | rfl
    · exact ⟨trivial, fun _ => by with_unfolding_all decide⟩
    · exact ⟨by show 50 < 0 + 100; omega, bareWiki_lacks "b"⟩
  have hadmits : (q.settleStart 100).Admits bareWiki "/w/a.tid" 100 := by decide +kernel
  have hdue : q.dueDeletions 100 = ["/w/a.tid", "/w/c.tid"] := by decide +kernel
  exact ⟨hs, titleAt_watchedNote, howner, hunder, hadm, hev, bareWiki_lacks "b", hin,
    le_refl _, isFile_bareWiki_note, hadmits, hdue,
    removal_settles_at_deadline [] [.removed "/w/c.tid"] noteRun hs titleAt_watchedNote howner
      hunder hadm hev (bareWiki_lacks "b") hin rfl (le_refl _) isFile_bareWiki_note hadmits
      (bareWiki_lacks "b")⟩

/-- A removal of the note's sidecar is a removal of the note. Reported at 50, after the note's
own removal at 0, it moves the deadline to 150; the tick at 100, the first at or after the grace
deadline of the note's last removal, admits the note's path and finds no file there, and yet
leaves `b` tracked at the note's path and not queued as deleted. -/
theorem sidecar_removal_defers_note_deletion :
    let q := (watchedNote.handleBatch bareWiki [.removed "/w/a.tid"] 0).handleBatch bareWiki
      [.removed "/w/a.tid.meta"] 50
    watchedNote.index.titleAt "/w/a.tid" = .ok "b" ∧ watchedNote.Admits bareWiki "/w/a.tid" 0 ∧
      bareWiki.isFile "/w/a.tid" = false ∧ (q.settleStart 100).Admits bareWiki "/w/a.tid" 100 ∧
      q.pendingDeletes.pending = [("/w/a.tid", 150)] ∧
      (q.tick bareWiki 100).1.queue.isDeleted "b" = false ∧
      ((q.tick bareWiki 100).1.index.titleAt "/w/a.tid").toOption = some "b" := by
  intro q
  have hx : (q.settleStart 100).exclusions.entries = [] := by
    show ((((watchedNote.handleBatch bareWiki [.removed "/w/a.tid"] 0).handleBatch bareWiki
      [.removed "/w/a.tid.meta"] 50).settleStart 100).exclusions.entries = [])
    decide +kernel
  have hrules : (q.settleStart 100).rules = watchedNote.rules := by
    show q.rules = watchedNote.rules
    rw [handleBatch_rules, handleBatch_rules]
  refine ⟨titleAt_watchedNote, watchedNote_admits rfl rfl 0, isFile_bareWiki_note,
    watchedNote_admits hrules hx 100, ?_, ?_, ?_⟩
  · show ((watchedNote.handleBatch bareWiki [.removed "/w/a.tid"] 0).handleBatch bareWiki
      [.removed "/w/a.tid.meta"] 50).pendingDeletes.pending = [("/w/a.tid", 150)]
    decide +kernel
  · show (((watchedNote.handleBatch bareWiki [.removed "/w/a.tid"] 0).handleBatch bareWiki
      [.removed "/w/a.tid.meta"] 50).tick bareWiki 100).1.queue.isDeleted "b" = false
    decide +kernel
  · show ((((watchedNote.handleBatch bareWiki [.removed "/w/a.tid"] 0).handleBatch bareWiki
      [.removed "/w/a.tid.meta"] 50).tick bareWiki 100).1.index.titleAt "/w/a.tid").toOption =
      some "b"
    decide +kernel


end Pipeline

end WikiSync
