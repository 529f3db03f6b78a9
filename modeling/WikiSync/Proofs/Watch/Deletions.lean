import WikiSync.Proofs.Watch.Grace
import WikiSync.Proofs.Disk.Removal
import WikiSync.Proofs.Text.Utf8

/-!
# Deletions of untracked titles

A pipeline queues a title for deletion from three places: a file deleted at once gives up its
title and the titles bundled with it, a file read under a new title gives up the title it
displaced, and a file that no longer holds a bundled title gives that title up. When each file
holds one document, nothing is ever bundled, and the other two give up a title that only the
file tracked: a sound index tracks each title at one path.

So, from an empty index, through batches and ticks over disks whose files each read as one
document and through changes to the roots, every title waiting for deletion is tracked at no
path and bundled at none (`Pipeline.run_deletes_only_untracked`). A disk reads so when no file's
text is a JSON bundle of several documents (`Disk.singleDocuments_of_files`). A file holding several
documents breaks this: deleting it queues its bundled titles whether or not another file tracks
them.
-/

namespace WikiSync

namespace IndexSet

/-- No index of the set tracks the title. -/
def Untracked (s : IndexSet) (t : String) : Prop :=
  ∀ ix ∈ s.indexes, ix.pathForTitle? t = none

/-- No path of the set has bundled titles: each file it tracks held one document. -/
def Unbundled (s : IndexSet) : Prop :=
  ∀ ix ∈ s.indexes, ix.bundledTitles = []

variable {s s' : IndexSet} {t u : String}

theorem untracked_empty (t : String) : ({} : IndexSet).Untracked t :=
  fun _ h => by cases h

theorem unbundled_empty : ({} : IndexSet).Unbundled :=
  fun _ h => by cases h

/-- An untracked title has no record. -/
theorem Untracked.recordForTitle? (h : s.Untracked t) : s.recordForTitle? t = none := by
  unfold IndexSet.recordForTitle?
  rw [List.findSome?_eq_none_iff]
  intro ix hix
  simp [h ix hix]

/-- In a sound set, a title is untracked exactly when it has no record. -/
theorem Sound.untracked_iff (hs : s.Sound) : s.Untracked t ↔ s.recordForTitle? t = none := by
  refine ⟨Untracked.recordForTitle?, fun h ix hix => ?_⟩
  have hnone : ¬ (s.recordForTitle? t).isSome := by simp [h]
  rw [hs.isSome_recordForTitle?] at hnone
  cases hp : ix.pathForTitle? t with
  | none => rfl
  | some q => exact absurd ⟨ix, hix, by simp [FileIndex.titles, hp]⟩ hnone

/-- In a sound set, no path holds a record under an untracked title. -/
theorem Untracked.title_ne (hs : s.Sound) (h : s.Untracked t) {q : String} {r : FileRecord}
    (hr : s.recordAt? q = some r) : r.title ≠ t := by
  unfold IndexSet.recordAt? at hr
  split at hr
  · rename_i root rel _
    cases hix : s.index? root with
    | none =>
      rw [hix] at hr
      cases hr
    | some ix =>
      rw [hix, Option.bind_some] at hr
      have hmem := (index?_eq_some hix).1
      intro hrt
      have htracks := (hs.consistent ix hmem).tracks_of_get? hr
      rw [hrt, h ix hmem] at htracks
      cases htracks
  · cases hr

/-- A set without bundled titles bundles none at any path. -/
theorem Unbundled.bundledAt (h : s.Unbundled) (q : String) : s.bundledAt q = [] := by
  unfold IndexSet.bundledAt
  split
  · rename_i root rel _
    cases hix : s.index? root with
    | none => rfl
    | some ix => simp [FileIndex.bundled, h ix (index?_eq_some hix).1]
  · rfl

/-! ### What each change of the set keeps -/

/-- Replacing one index keeps a property every index has when the new index has it too. -/
theorem forall_update {P : FileIndex → Prop} {ix : FileIndex} (h : ∀ o ∈ s.indexes, P o)
    (hix : P ix) : ∀ a ∈ (s.update ix).indexes, P a := by
  intro a ha
  obtain ⟨o, ho, ⟨-, rfl⟩ | ⟨-, rfl⟩⟩ := mem_update ha
  · exact hix
  · exact h a ho

theorem Untracked.dropTitleElsewhere (h : s.Untracked u) (root t : String) :
    (s.dropTitleElsewhere root t).Untracked u := by
  intro ix hix
  obtain ⟨o, ho, rfl⟩ := List.mem_map.mp hix
  split
  · exact h o ho
  · rw [FileIndex.pathForTitle?_removeTitle]
    split
    · rfl
    · exact h o ho

theorem Unbundled.dropTitleElsewhere (h : s.Unbundled) (root t : String) :
    (s.dropTitleElsewhere root t).Unbundled := by
  intro ix hix
  obtain ⟨o, ho, rfl⟩ := List.mem_map.mp hix
  split
  · exact h o ho
  · unfold FileIndex.removeTitle
    split <;> simp [FileIndex.eraseKey, h o ho]

/-- Tracking a record leaves every other untracked title untracked. -/
theorem Untracked.insert {r : FileRecord} {d : Option FileRecord} (h : s.Untracked u)
    (hu : u ≠ r.title) (hi : s.insert r = .ok (s', d)) : s'.Untracked u := by
  obtain ⟨root, rel, ix, -, hix, rfl, -⟩ := insert_eq_ok hi
  have hdrop := h.dropTitleElsewhere root r.title
  refine forall_update hdrop ?_
  rw [FileIndex.pathForTitle?_set, if_neg hu]
  split
  · rfl
  · exact hdrop ix (index?_eq_some hix).1

/-- In a sound set, the title displaced from a path by tracking a record there is tracked nowhere
after: only the index over the path's root tracked it, and there it lost its path. -/
theorem Sound.untracked_displaced {r old : FileRecord} (hs : s.Sound)
    (hi : s.insert r = .ok (s', some old)) : s'.Untracked old.title := by
  obtain ⟨root, rel, ix, -, hix, rfl, hd⟩ := insert_eq_ok hi
  have hD := hs.dropTitleElsewhere root r.title
  obtain ⟨hmem, -⟩ := index?_eq_some hix
  have hc := hD.consistent ix hmem
  rw [FileIndex.set_snd] at hd
  obtain ⟨hat, hne⟩ := Option.filter_eq_some_iff.mp hd.symm
  have htracks : (ix.pathForTitle? old.title).isSome :=
    hc.tracks_of_get? (by rw [hc.refines.get]; exact hat)
  intro a ha
  obtain ⟨o, ho, ⟨-, rfl⟩ | ⟨hro, rfl⟩⟩ := mem_update ha
  · rw [FileIndex.pathForTitle?_set, if_neg (by simpa using hne), if_pos]
    simp [IndexModel.titleAt, FileIndex.model, hat]
  · cases hp : a.pathForTitle? old.title with
    | none => rfl
    | some q =>
      have hsame := hD.titles_apart a ho ix hmem old.title (by simp [hp]) htracks
      exact absurd (by simpa using hsame) hro

theorem Unbundled.insert {r : FileRecord} {d : Option FileRecord} (h : s.Unbundled)
    (hi : s.insert r = .ok (s', d)) : s'.Unbundled := by
  obtain ⟨root, rel, ix, -, hix, rfl, -⟩ := insert_eq_ok hi
  have hD := h.dropTitleElsewhere root r.title
  refine forall_update hD ?_
  rw [FileIndex.set_bundledTitles, hD ix (index?_eq_some hix).1]
  split
  · split <;> rfl
  · rfl

theorem Untracked.setBundled (h : s.Untracked u) (p : String) (ts : List String) :
    (s.setBundled p ts).Untracked u := by
  unfold IndexSet.setBundled
  split
  · split
    · rename_i ix hix
      refine forall_update h ?_
      rw [FileIndex.pathForTitle?_setBundled]
      exact h ix (index?_eq_some hix).1
    · exact h
  · exact h

/-- Clearing the bundled titles of a path bundles nothing new. -/
theorem Unbundled.setBundled_nil (h : s.Unbundled) (p : String) :
    (s.setBundled p []).Unbundled := by
  unfold IndexSet.setBundled
  split
  · split
    · rename_i ix hix
      refine forall_update h ?_
      simp [FileIndex.setBundled, FileIndex.eraseKey, h ix (index?_eq_some hix).1]
    · exact h
  · exact h

theorem Untracked.removePath (h : s.Untracked u) (p : String) : (s.removePath p).1.Untracked u := by
  unfold IndexSet.removePath
  split
  · split
    · rename_i ix hix
      refine forall_update h ?_
      rw [FileIndex.pathForTitle?_delete]
      split
      · rfl
      · exact h ix (index?_eq_some hix).1
    · exact h
  · exact h

theorem Unbundled.removePath (h : s.Unbundled) (p : String) : (s.removePath p).1.Unbundled := by
  unfold IndexSet.removePath
  split
  · split
    · rename_i ix hix
      refine forall_update h ?_
      rw [FileIndex.delete_bundledTitles, h ix (index?_eq_some hix).1]
      rfl
    · exact h
  · exact h

/-- In a sound set, removing the path a title is tracked at leaves the title tracked nowhere. -/
theorem Sound.untracked_removePath (hs : s.Sound) {p : String} (ht : s.titleAt p = .ok t) :
    (s.removePath p).1.Untracked t := by
  obtain ⟨r, hr, rfl⟩ := recordAt?_of_titleAt ht
  exact ((hs.removePath p).untracked_iff).mpr (hs.recordForTitle?_removePath hr)

theorem Untracked.registerRoot (h : s.Untracked u) (root : String) :
    (s.registerRoot root).1.Untracked u := by
  unfold IndexSet.registerRoot
  split
  · exact h
  · intro ix hix
    rcases List.mem_append.mp hix with hix | hix
    · exact h ix hix
    · rw [List.mem_singleton.mp hix]
      rfl

theorem Unbundled.registerRoot (h : s.Unbundled) (root : String) :
    (s.registerRoot root).1.Unbundled := by
  unfold IndexSet.registerRoot
  split
  · exact h
  · intro ix hix
    rcases List.mem_append.mp hix with hix | hix
    · exact h ix hix
    · rw [List.mem_singleton.mp hix]
      rfl

theorem Untracked.deregisterRoot (h : s.Untracked u) (root : String) :
    (s.deregisterRoot root).1.Untracked u :=
  fun ix hix => h ix (List.mem_filter.mp hix).1

theorem Unbundled.deregisterRoot (h : s.Unbundled) (root : String) :
    (s.deregisterRoot root).1.Unbundled :=
  fun ix hix => h ix (List.mem_filter.mp hix).1

end IndexSet

namespace ChangeQueue

theorem isDeleted_queueDeletion (q : ChangeQueue) (t x : String) (c : PendingChange) :
    (q.queueDeletion t c).isDeleted x = true ↔ x = t ∨ q.isDeleted x = true := by
  unfold queueDeletion isDeleted addTitle
  split <;> simp_all [or_comm]

theorem isDeleted_queueModification (q : ChangeQueue) (t x : String) (c : PendingChange) :
    (q.queueModification t c).isDeleted x = true ↔ x ≠ t ∧ q.isDeleted x = true := by
  unfold queueModification isDeleted
  simp [and_comm]

end ChangeQueue

/-- A file reads as several documents only as a JSON bundle of several documents: a sidecar, a
`.tid` file and any other text file hold one. -/
theorem decode_length_le {path raw : String} {note : Option String} {docs : List Fields}
    (hbundle : ∀ items, Codec.readBundle path raw = .ok items → items.length ≤ 1)
    (h : decode path raw note = .ok docs) : docs.length ≤ 1 := by
  unfold decode at h
  simp only [bind, Except.bind, pure, Except.pure] at h
  obtain ⟨docs₀, P, e, hdocs₀, h⟩ : ∃ (docs₀ : List Fields) (P : Fields → Bool) (e : CodecError),
      docs₀.length ≤ 1 ∧
      (if (docs₀.filter P).isEmpty = true then (throw e : Except CodecError (List Fields))
      else .ok (docs₀.filter P)) = .ok docs := by
    split at h
    · exact ⟨_, _, _, by simp, h⟩
    · split at h
      · exact ⟨_, _, _, by simp, h⟩
      · split at h
        · split at h
          · cases h
          · exact ⟨_, _, _, hbundle _ ‹_›, h⟩
        · split at h
          · exact ⟨_, _, _, by simp, h⟩
          · cases h
  split at h
  · cases h
  · cases h
    exact (List.length_filter_le _ _).trans hdocs₀

namespace Disk

/-- Every file of the disk reads as at most one document. -/
def SingleDocuments (d : Disk) : Prop :=
  ∀ path docs, readDocuments d path = .ok docs → docs.length ≤ 1

/-- What the end of a walk holds is what the disk holds at its place. -/
theorem lookup_of_found {d : Disk} {f : Final} {x : Place × Node} (h : d.found f = .ok x) :
    d.lookup x.1 = some x.2 := by
  unfold found at h
  split at h
  · cases h
  · cases h
    assumption
  · split at h
    · cases h
    · cases h
      assumption

/-- A text read through a path is the text of a regular file on the disk. -/
theorem readText_eq_ok {d : Disk} {path raw : String} (h : d.readText path = .ok raw) :
    ∃ pl bs t, d.lookup pl = some (.file bs t) ∧ Utf8.decode? bs = some raw := by
  unfold Disk.readText at h
  cases hr : d.read path with
  | error e => simp [hr, bind, Except.bind] at h
  | ok bs =>
    cases hdec : Utf8.decode? bs with
    | none => simp [hr, hdec, bind, Except.bind, throw, throwThe, MonadExceptOf.throw] at h
    | some s =>
      simp only [hr, hdec, bind, Except.bind, pure, Except.pure, Except.ok.injEq] at h
      subst h
      unfold Disk.read at hr
      cases hs : d.stat path with
      | error e => simp [hs, bind, Except.bind] at hr
      | ok x =>
        obtain ⟨f, -, hfd⟩ := stat_eq_ok hs
        have hl := lookup_of_found hfd
        obtain ⟨pl, n⟩ := x
        cases n with
        | file bs' t =>
          simp only [hs, bind, Except.bind, pure, Except.pure, Except.ok.injEq] at hr
          subst hr
          exact ⟨pl, bs', t, hl, hdec⟩
        | dir => simp [hs, bind, Except.bind, throw, throwThe, MonadExceptOf.throw] at hr
        | link t => simp [hs, bind, Except.bind, throw, throwThe, MonadExceptOf.throw] at hr

/-- A disk reads as at most one document everywhere when no file's text is a JSON bundle of
several documents. -/
theorem singleDocuments_of_files {d : Disk}
    (h : ∀ pl bs t raw, d.lookup pl = some (.file bs t) → Utf8.decode? bs = some raw →
      ∀ path items, Codec.readBundle path raw = .ok items → items.length ≤ 1) :
    d.SingleDocuments := by
  intro path docs hdocs
  unfold readDocuments at hdocs
  cases ht : d.readText path with
  | error e => simp [ht, bind, Except.bind, throw, throwThe, MonadExceptOf.throw] at hdocs
  | ok raw =>
    obtain ⟨pl, bs, t, hl, hdec⟩ := readText_eq_ok ht
    have hdecode : ∀ note, decode path raw note = .ok docs → docs.length ≤ 1 :=
      fun _ => decode_length_le (h pl bs t raw hl hdec path)
    simp only [ht, bind, Except.bind, pure, Except.pure] at hdocs
    split at hdocs
    · split at hdocs
      · exact hdecode _ hdocs
      · simp [throw, throwThe, MonadExceptOf.throw] at hdocs
    · exact hdecode _ hdocs

end Disk

namespace Pipeline

open ChangeQueue

/-- Deletions are about untracked titles: the index is sound and bundles nothing, and no title
waiting for deletion is tracked in it. -/
structure DeletionsUntracked (p : Pipeline) : Prop where
  sound : p.index.Sound
  unbundled : p.index.Unbundled
  untracked : ∀ u, p.queue.isDeleted u = true → p.index.Untracked u

variable {p : Pipeline}

/-- Whether deletions are about untracked titles depends on the index and the queue alone. -/
theorem DeletionsUntracked.congr {q : Pipeline} (h : p.DeletionsUntracked)
    (hi : q.index = p.index) (hq : q.queue = p.queue) : q.DeletionsUntracked where
  sound := hi ▸ h.sound
  unbundled := hi ▸ h.unbundled
  untracked u hu := hi ▸ h.untracked u (hq ▸ hu)

/-- Reading one document, or none, from a file queues as deleted only the title it displaced,
which is then tracked nowhere, and tracks only the title it queues as modified. -/
theorem DeletionsUntracked.recordDocuments (h : p.DeletionsUntracked) (d : Disk) (doc : String)
    {docs : List Fields} (hdocs : docs.length ≤ 1) :
    (p.recordDocuments d doc docs).1.DeletionsUntracked := by
  match docs, hdocs with
  | [], _ => exact h
  | [first], _ =>
    unfold Pipeline.recordDocuments
    dsimp only
    split
    · exact h
    · split
      · exact h
      · rename_i s' dsp hins
        refine ⟨(h.sound.insert hins).setBundled _ _, (h.unbundled.insert hins).setBundled_nil doc,
          fun u hu => ?_⟩
        simp only [h.unbundled.bundledAt doc, List.filter_nil, List.foldl_nil, List.map_cons,
          List.map_nil, List.zip_cons_cons, List.zip_nil_right, List.foldl_cons] at hu
        obtain ⟨hne, hu⟩ := (isDeleted_queueModification _ _ _ _).mp hu
        refine IndexSet.Untracked.setBundled ?_ doc _
        cases dsp with
        | none => exact (h.untracked u hu).insert hne hins
        | some old =>
          rcases (isDeleted_queueDeletion _ _ _ _).mp hu with rfl | hu
          · exact h.sound.untracked_displaced hins
          · exact (h.untracked u hu).insert hne hins

/-- Reading a created or modified file keeps deletions about untracked titles, when every file
reads as one document. -/
theorem DeletionsUntracked.upsert (h : p.DeletionsUntracked) {d : Disk}
    (hd : d.SingleDocuments) (path : String) (now : Nat) :
    (p.upsert d path now).1.DeletionsUntracked := by
  unfold Pipeline.upsert
  rcases hacc : p.accept d path now with ⟨p', _ | doc⟩
  · obtain ⟨hi, hq⟩ := accept_fst hacc
    exact h.congr hi hq
  · obtain ⟨hi, hq⟩ := accept_fst hacc
    have h' : ({ p' with pendingDeletes := (p'.pendingDeletes.remove doc).1 } :
        Pipeline).DeletionsUntracked := h.congr hi hq
    dsimp only
    repeat' split
    all_goals first | exact h' | exact h'.recordDocuments d _ (hd _ _ ‹_›)

/-- Deleting a file at once queues its title, which is then tracked nowhere. -/
theorem DeletionsUntracked.deleteNow (h : p.DeletionsUntracked) (d : Disk) (path : String)
    (now : Nat) : (p.deleteNow d path now).1.DeletionsUntracked := by
  unfold Pipeline.deleteNow
  rcases hacc : p.accept d path now with ⟨p', _ | doc⟩
  · obtain ⟨hi, hq⟩ := accept_fst hacc
    exact h.congr hi hq
  · obtain ⟨hi, hq⟩ := accept_fst hacc
    have h' : p'.DeletionsUntracked := h.congr hi hq
    dsimp only
    split
    · exact h'.congr rfl rfl
    · split
      · exact h'.congr rfl rfl
      · rename_i t ht
        refine ⟨h'.sound.removePath doc, h'.unbundled.removePath doc, fun u hu => ?_⟩
        simp only [h'.unbundled.bundledAt doc, List.foldl_cons, List.foldl_nil] at hu
        rcases (isDeleted_queueDeletion _ _ _ _).mp hu with rfl | hu
        · exact h'.sound.untracked_removePath ht
        · exact (h'.untracked u hu).removePath doc

theorem DeletionsUntracked.runStep {acc : Pipeline × List String} {d : Disk}
    (h : acc.1.DeletionsUntracked) (hd : d.SingleDocuments) (now : Nat) (s : EventStep) :
    (Pipeline.runStep d now acc s).1.DeletionsUntracked := by
  obtain ⟨p, touched⟩ := acc
  cases s with
  | upsert path => exact h.upsert hd path now
  | scheduleDelete path =>
    obtain ⟨hi, hq⟩ := scheduleDelete_fst p d path now
    exact h.congr hi hq
  | deleteNow path => exact h.deleteNow d path now

theorem DeletionsUntracked.settleDelete {acc : Pipeline × List String} {d : Disk}
    (h : acc.1.DeletionsUntracked) (hd : d.SingleDocuments) (now : Nat) (path : String) :
    (Pipeline.settleDelete d now acc path).1.DeletionsUntracked := by
  obtain ⟨p, touched⟩ := acc
  unfold Pipeline.settleDelete
  by_cases hf : d.isFile path = true
  · simp only [hf, if_true]
    exact h.upsert hd path now
  · simp only [hf, Bool.false_eq_true, if_false]
    exact h.deleteNow d path now

/-- A batch of events over a disk whose files each read as one document keeps deletions about
untracked titles. -/
theorem DeletionsUntracked.handleBatch (h : p.DeletionsUntracked) {d : Disk}
    (hd : d.SingleDocuments) (events : List RawEvent) (now : Nat) :
    (p.handleBatch d events now).DeletionsUntracked := by
  rw [handleBatch_eq_steps]
  obtain ⟨sync, vcs, harm⟩ := arm_eq ((events.flatMap RawEvent.steps).foldl (Pipeline.runStep d now) (p, [])).1
    ((events.flatMap RawEvent.steps).foldl (Pipeline.runStep d now) (p, [])).2 now
  rw [harm]
  exact (foldl_keeps DeletionsUntracked _ (fun acc s _ hacc => hacc.runStep hd now s) _ h).congr
    rfl rfl

/-- A tick over a disk whose files each read as one document keeps deletions about untracked
titles. -/
theorem DeletionsUntracked.tick (h : p.DeletionsUntracked) {d : Disk} (hd : d.SingleDocuments)
    (now : Nat) : (p.tick d now).1.DeletionsUntracked := by
  rw [tick_fst]
  obtain ⟨sync, vcs, harm⟩ := arm_eq
    ((p.dueDeletions now).foldl (Pipeline.settleDelete d now) (p.settleStart now, [])).1
    ((p.dueDeletions now).foldl (Pipeline.settleDelete d now) (p.settleStart now, [])).2 now
  rw [harm]
  exact (foldl_keeps DeletionsUntracked _ (fun acc path _ hacc => hacc.settleDelete hd now path) _
    (h.congr rfl rfl)).congr rfl rfl

/-- The inputs under which deletions stay about untracked titles: batches and ticks over disks
whose files each read as one document, and changes to the roots, their rules and the
exclusions; a queue set from outside is not one of them. -/
def Input.ReadsSingly : Input → Prop
  | .batch d _ _ => d.SingleDocuments
  | .tick d _ => d.SingleDocuments
  | .queue _ => False
  | _ => True

theorem DeletionsUntracked.step (h : p.DeletionsUntracked) :
    ∀ i : Input, i.ReadsSingly → (p.step i).DeletionsUntracked
  | .batch _ events now, hd => h.handleBatch hd events now
  | .tick _ now, hd => h.tick hd now
  | .addRoot r, _ =>
    ⟨h.sound.registerRoot r.root, h.unbundled.registerRoot _, fun u hu =>
      (h.untracked u hu).registerRoot _⟩
  | .removeRoot root, _ =>
    ⟨h.sound.deregisterRoot root, h.unbundled.deregisterRoot _, fun u hu =>
      (h.untracked u hu).deregisterRoot _⟩
  | .updateIgnore _ _, _ => h.congr rfl rfl
  | .exclusions _, _ => h.congr rfl rfl

theorem DeletionsUntracked.run (h : p.DeletionsUntracked) {inputs : List Input}
    (hin : ∀ i ∈ inputs, i.ReadsSingly) : (p.run inputs).DeletionsUntracked := by
  induction inputs generalizing p with
  | nil => exact h
  | cons i inputs ih =>
    exact ih (h.step i (hin i List.mem_cons_self)) fun j hj => hin j (List.mem_cons_of_mem i hj)

/-- From an empty index, through batches and ticks over disks whose files each read as one
document and through changes to the roots, every title waiting for deletion has no record, is
the title of no record at any path, and is bundled at no path. -/
theorem run_deletes_only_untracked {p : Pipeline} (hindex : p.index = {}) {inputs : List Input}
    (hin : ∀ i ∈ inputs, i.ReadsSingly) :
    ∀ u, (p.run inputs).queue.isDeleted u = true →
      (p.run inputs).index.recordForTitle? u = none ∧
        (∀ q r, (p.run inputs).index.recordAt? q = some r → r.title ≠ u) ∧
        ∀ q, u ∉ (p.run inputs).index.bundledAt q := by
  have h₀ : p.DeletionsUntracked :=
    ⟨hindex ▸ IndexSet.sound_empty, hindex ▸ IndexSet.unbundled_empty,
      fun t _ => hindex ▸ IndexSet.untracked_empty t⟩
  have h := h₀.run hin
  intro u hu
  have hunt := h.untracked u hu
  refine ⟨hunt.recordForTitle?, fun q r hr => hunt.title_ne h.sound hr, fun q => ?_⟩
  rw [h.unbundled.bundledAt q]
  exact List.not_mem_nil

/-- The wiki's folder holds no file, so it reads as no document anywhere. -/
theorem bareWiki_singleDocuments : bareWiki.SingleDocuments := by
  refine Disk.singleDocuments_of_files fun pl bs t raw hl _ _ _ _ => ?_
  simp only [bareWiki, Disk.lookup] at hl
  split at hl <;> simp at hl

/-- The note's pipeline with nothing tracked yet. -/
def untrackedNote : Pipeline := { watchedNote with index := {} }

/-- The wiki's folder holding the note's file, whose text is the note `b`. -/
def noteWiki : Disk :=
  ⟨[(["w"], .dir), (["w", "a.tid"], .file (Utf8.encode "title: b\n\nx") 0)], 0⟩

/-- The note's file is no JSON, so the folder reads as at most one document anywhere. -/
theorem noteWiki_singleDocuments : noteWiki.SingleDocuments := by
  obtain ⟨e, he⟩ : ∃ e, Json.parse "title: b\n\nx" = .error e := by
    have hnone : (Json.parse "title: b\n\nx").toOption = none := by decide +kernel
    cases hp : Json.parse "title: b\n\nx" with
    | error e => exact ⟨e, rfl⟩
    | ok v => simp [hp, Except.toOption] at hnone
  refine Disk.singleDocuments_of_files fun pl bs t raw hl hdec path items hitems => ?_
  have hbs : bs = Utf8.encode "title: b\n\nx" := by
    simp only [noteWiki, Disk.lookup, List.find?_cons] at hl
    split at hl
    · cases hl
    · split at hl
      · simp at hl
      · split at hl
        · simp at hl
          exact hl.1.symm
        · simp at hl
  rw [hbs, Utf8.decode?_encode, Option.some.injEq] at hdec
  subst hdec
  unfold Codec.readBundle at hitems
  rw [he] at hitems
  cases hitems

/-- The note's root added, the note's file created at 0 and read, its removal reported at 10
with the file gone, and the tick at 110 that settles it. -/
def noteInputs : List Input :=
  [.addRoot ⟨⟨"/w", []⟩, false⟩, .batch noteWiki [.created "/w/a.tid"] 0,
    .batch bareWiki [.removed "/w/a.tid"] 10, .tick bareWiki 110]

/-- The note is read and tracked, then removed and deleted: the run queues `b` as deleted, and
every title waiting for deletion is tracked nowhere. -/
theorem note_run_deletes_only_untracked :
    untrackedNote.index = {} ∧ (∀ i ∈ noteInputs, i.ReadsSingly) ∧
      ((untrackedNote.run (noteInputs.take 2)).index.recordForTitle? "b").isSome = true ∧
      (untrackedNote.run noteInputs).queue.isDeleted "b" = true ∧
      ∀ u, (untrackedNote.run noteInputs).queue.isDeleted u = true →
        (untrackedNote.run noteInputs).index.recordForTitle? u = none ∧
          (∀ q r, (untrackedNote.run noteInputs).index.recordAt? q = some r → r.title ≠ u) ∧
          ∀ q, u ∉ (untrackedNote.run noteInputs).index.bundledAt q := by
  have hin : ∀ i ∈ noteInputs, i.ReadsSingly := by
    intro i hi
    simp only [noteInputs, List.mem_cons, List.not_mem_nil, or_false] at hi
    rcases hi with rfl | rfl | rfl | rfl
    · trivial
    · exact noteWiki_singleDocuments
    · exact bareWiki_singleDocuments
    · exact bareWiki_singleDocuments
  have htracked : ((untrackedNote.run (noteInputs.take 2)).index.recordForTitle? "b").isSome =
      true := by
    decide +kernel
  have hdeleted : (untrackedNote.run noteInputs).queue.isDeleted "b" = true := by decide +kernel
  exact ⟨rfl, hin, htracked, hdeleted, run_deletes_only_untracked rfl hin⟩

end Pipeline

end WikiSync
