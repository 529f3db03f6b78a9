import WikiSync.Proofs.Disk.Removal
import WikiSync.Proofs.Index.Roots
import WikiSync.Sync.Adaptor

/-!
# Deleting a title

A delete removes the backing files of the title's record, the primary file first and then its
sidecar. Each removal answers one of three ways that count differently: done or already gone
(the file is deleted), refused (an alert, and the title stays tracked), or any other failure,
which stops the delete at once.

The removals are read off one run over the store that attempts every file whatever the others
answered (`FileStore.removeEach`). If that run has a failure that stops a delete, the delete
fails naming the first such file, and its store is the run's store up to that file: no later
file was attempted (`Adaptor.removeAll_of_stop`). Otherwise the delete succeeds with the run's
store and one alert for each refusal, in order (`Adaptor.removeAll_of_going`); with no refusal
the title is tracked no more and its cached path is forgotten.

Whether the files are then gone is the store's business. A store that removes files for real
leaves every backing file absent (`FileStore.removeEach_absent`); a store scripted to answer
"not found" for every removal leaves the file where it was, and the delete still succeeds.
-/

namespace WikiSync

/-- Kinds of failure compare as they are equal. -/
theorem IoKind.beq_eq_decide (k k' : IoKind) : (k == k') = decide (k = k') := by
  cases k <;> cases k' <;> rfl

namespace FileStore

/-- Remove files one after another, each attempted whatever the others answered: the store
after, and each file with what its removal answered. -/
def removeEach (s : FileStore) : List String → FileStore × List (String × Except IoError Unit)
  | [] => (s, [])
  | p :: rest =>
    let (s₁, r) := s.remove p
    let (s₂, answers) := s₁.removeEach rest
    (s₂, (p, r) :: answers)

@[simp] theorem removeEach_nil (s : FileStore) : s.removeEach [] = (s, []) := rfl

theorem removeEach_cons (s : FileStore) (p : String) (rest : List String) :
    s.removeEach (p :: rest) =
      (((s.remove p).1.removeEach rest).1, (p, (s.remove p).2) :: ((s.remove p).1.removeEach rest).2) :=
  rfl

/-- What a removal does: a scripted failure leaves the disk alone and answers the failure; a
real removal answers as the disk does, and changes the disk only when it succeeds. -/
theorem remove_cases (s : FileStore) (p : String) :
    (s.remove p).1.failingRemovals = s.failingRemovals ∧
      ((s.remove p).1.disk = s.disk ∧
          ((∃ k, s.failingRemovals = some k ∧ (s.remove p).2 = .error (.bare k)) ∨
            (s.failingRemovals = none ∧ ∃ e, s.disk.removeFile p = .error e ∧
              (s.remove p).2 = .error e)) ∨
        (s.failingRemovals = none ∧ s.disk.removeFile p = .ok (s.remove p).1.disk ∧
          (s.remove p).2 = .ok ())) := by
  unfold remove
  cases hc : s.counted <;> cases hf : s.failingRemovals <;>
    cases hd : s.disk.removeFile p <;> simp [hc, hf, hd]

@[simp] theorem remove_failingRemovals (s : FileStore) (p : String) :
    (s.remove p).1.failingRemovals = s.failingRemovals :=
  (remove_cases s p).1

/-- A removal only ever drops places from the store's disk. -/
theorem remove_sub (s : FileStore) (p : String) : (s.remove p).1.disk.Sub s.disk := by
  rcases (remove_cases s p).2 with ⟨hsame, -⟩ | ⟨-, hd, -⟩
  · rw [hsame]
    exact Disk.Sub.refl _
  · obtain ⟨dir, n, _, _, heq⟩ := Disk.removeFile_eq_ok hd
    rw [heq]
    exact Disk.eraseTree_sub _ _

theorem removeEach_sub (s : FileStore) (files : List String) :
    (s.removeEach files).1.disk.Sub s.disk := by
  induction files generalizing s with
  | nil => exact Disk.Sub.refl _
  | cons p rest ih => exact (ih _).trans (remove_sub s p)

/-- A store that removes for real, asked to remove a file, leaves it absent when the removal was
done or found nothing there. -/
theorem remove_absent {s : FileStore} (hreal : s.failingRemovals = none) {p : String}
    (hgone : (s.remove p).2 = .ok () ∨ ∃ e, (s.remove p).2 = .error e ∧ e.kind = .notFound) :
    (s.remove p).1.pathExists p = false := by
  rcases (remove_cases s p).2 with ⟨hsame, ⟨k, hk, -⟩ | ⟨-, e, hd, he⟩⟩ | ⟨-, hd, -⟩
  · rw [hreal] at hk
    cases hk
  · rcases hgone with hok | ⟨e', he', hkind⟩
    · rw [he] at hok
      cases hok
    · rw [he, Except.error.injEq] at he'
      subst he'
      unfold pathExists
      rw [hsame]
      exact Disk.removeFile_missing hd hkind
  · exact Disk.removeFile_absent hd

/-- A store that removes for real, when every removal was done or found nothing, leaves every
file it was asked to remove absent: a file gone stays gone while later ones are removed. -/
theorem removeEach_absent {s : FileStore} (hreal : s.failingRemovals = none) {files : List String}
    (hgone : ∀ x ∈ (s.removeEach files).2,
      x.2 = .ok () ∨ ∃ e, x.2 = .error e ∧ e.kind = .notFound) :
    ∀ p ∈ files, (s.removeEach files).1.pathExists p = false := by
  induction files generalizing s with
  | nil => simp
  | cons q rest ih =>
    rw [removeEach_cons] at hgone ⊢
    have hq := remove_absent hreal (hgone (q, (s.remove q).2) (by simp))
    have hrest := ih (by rw [remove_failingRemovals, hreal])
      fun x hx => hgone x (List.mem_cons_of_mem _ hx)
    intro p hp
    rcases List.mem_cons.mp hp with rfl | hp
    · exact Disk.pathExists_of_sub (removeEach_sub _ rest) hq
    · exact hrest p hp

end FileStore

namespace IndexSet

/-- Once a title is removed from a sound index set, no index tracks it: only the index that
tracked it could, and that one forgot it. -/
theorem Sound.recordForTitle?_removeTitle_self {s : IndexSet} (h : s.Sound) (t : String) :
    (s.removeTitle t).1.recordForTitle? t = none := by
  rw [← Option.not_isSome_iff_eq_none, (h.removeTitle t).isSome_recordForTitle?]
  rintro ⟨ix, hix, ht⟩
  simp only [FileIndex.titles, Set.mem_ofPred_eq] at ht
  unfold IndexSet.removeTitle at hix
  split at hix
  · rename_i o ho
    have hmem := List.mem_of_find?_eq_some ho
    have hot : (o.pathForTitle? t).isSome := by simpa using List.find?_some ho
    obtain ⟨o', ho', hcases⟩ := mem_update hix
    rcases hcases with ⟨-, rfl⟩ | ⟨hroot, rfl⟩
    · simp [FileIndex.pathForTitle?_removeTitle] at ht
    · have := h.eq_of_tracks ho' hmem ht hot
      subst this
      exact hroot (by rw [FileIndex.removeTitle_root])
  · rename_i hnone
    exact absurd ht (by simpa using List.find?_eq_none.mp hnone ix hix)

end IndexSet

namespace Adaptor

/-- Whether a removal's answer stops a delete: a failure other than a file already gone or a
refused removal. -/
def stopsDelete : Except IoError Unit → Bool
  | .ok () => false
  | .error e => e.kind != .notFound && e.kind != .permissionDenied

/-- The files whose removal was refused, with the refusals, in order. -/
def refusals : List (String × Except IoError Unit) → List (String × IoError)
  | [] => []
  | (_, .ok ()) :: rest => refusals rest
  | (p, .error e) :: rest =>
    if e.kind == .permissionDenied then (p, e) :: refusals rest else refusals rest

/-- The alert raised for a refused removal, with its stamp. -/
def refusalAlert (title : String) (stamp : Nat) (refusal : String × IoError) : Alert :=
  ⟨title, "Cannot delete " ++ refusal.1 ++ ": " ++ refusal.2.message, 1, toString stamp⟩

/-- An answer that does not stop a delete: the file was removed, was already gone, or its
removal was refused. -/
theorem going_cases {r : Except IoError Unit} (h : stopsDelete r = false) :
    r = .ok () ∨ (∃ e, r = .error e ∧ e.kind = .notFound) ∨
      ∃ e, r = .error e ∧ e.kind = .permissionDenied := by
  cases r with
  | ok u => exact .inl rfl
  | error e =>
    by_cases hmissing : e.kind = .notFound
    · exact .inr (.inl ⟨e, rfl, hmissing⟩)
    · refine .inr (.inr ⟨e, rfl, ?_⟩)
      simpa [stopsDelete, bne, IoKind.beq_eq_decide, hmissing] using h

theorem refusals_cons (x : String × Except IoError Unit)
    (rest : List (String × Except IoError Unit)) :
    refusals (x :: rest) = refusals [x] ++ refusals rest := by
  obtain ⟨p, r⟩ := x
  cases r with
  | ok u => simp [refusals]
  | error e => by_cases h : (e.kind == .permissionDenied) = true <;> simp [refusals, h]

/-- Alerts for refusals in two runs: those of the second run are stamped after the first's. -/
theorem refusal_alerts_append (title : String) (raised : Nat) (l l' : List (String × IoError)) :
    ((l ++ l').mapIdx fun j => refusalAlert title (raised + j)) =
      (l.mapIdx fun j => refusalAlert title (raised + j)) ++
        l'.mapIdx fun j => refusalAlert title (raised + l.length + j) := by
  rw [List.mapIdx_append]
  congr 2
  funext j x
  rw [Nat.add_assoc, Nat.add_comm l.length]

private theorem not_isEmpty_append {α : Type} (l l' : List α) :
    (!(l ++ l').isEmpty) = (!l.isEmpty || !l'.isEmpty) := by
  cases l <;> rfl

/-- One removal that does not stop the delete: the store moves on, and a refusal raises its
alert and is remembered. -/
theorem removeAll_cons_of_going {title : String} {a : Adaptor} {denied : Bool} {p : String}
    {rest : List String} {s₁ : FileStore} {r : Except IoError Unit}
    (hr : a.store.remove p = (s₁, r)) (hgo : stopsDelete r = false) :
    removeAll title a denied (p :: rest) =
      removeAll title
        { a with
          store := s₁
          alerts := a.alerts ++ (refusals [(p, r)]).mapIdx fun j => refusalAlert title (a.raised + j)
          raised := a.raised + (refusals [(p, r)]).length }
        (denied || !(refusals [(p, r)]).isEmpty) rest := by
  simp only [removeAll, hr]
  rcases going_cases hgo with rfl | ⟨e, rfl, hmissing⟩ | ⟨e, rfl, hdenied⟩
  · simp [refusals]
  · -- a file already gone counts as removed
    simp [refusals, IoKind.beq_eq_decide, hmissing]
  · simp [refusals, IoKind.beq_eq_decide, hdenied, raise, refusalAlert]

/-- When no removal stops the delete, every file is removed in turn and each refusal raises its
alert; the answer tells whether any removal was refused. -/
theorem removeAll_of_going (title : String) (a : Adaptor) (denied : Bool) (files : List String)
    (hgo : ∀ x ∈ (a.store.removeEach files).2, stopsDelete x.2 = false) :
    removeAll title a denied files =
      ({ a with
          store := (a.store.removeEach files).1
          alerts := a.alerts ++ (refusals (a.store.removeEach files).2).mapIdx
            fun j => refusalAlert title (a.raised + j)
          raised := a.raised + (refusals (a.store.removeEach files).2).length },
        .ok (denied || !(refusals (a.store.removeEach files).2).isEmpty)) := by
  induction files generalizing a denied with
  | nil => simp [removeAll, refusals]
  | cons p rest ih =>
    rw [FileStore.removeEach_cons] at hgo ⊢
    generalize hr : a.store.remove p = sr at hgo ⊢
    obtain ⟨s₁, r⟩ := sr
    rw [removeAll_cons_of_going hr (hgo (p, r) (by simp)),
      ih _ _ fun x hx => hgo x (List.mem_cons_of_mem _ hx)]
    simp [refusals_cons (p, r) (s₁.removeEach rest).2, refusal_alerts_append, not_isEmpty_append,
      Nat.add_assoc, Bool.or_assoc]

/-- The first removal that stops the delete ends it: the files before it were removed in turn,
with an alert for each refusal, and no later file was attempted. -/
theorem removeAll_of_stop (title : String) (a : Adaptor) (denied : Bool) (files : List String)
    {before after : List (String × Except IoError Unit)} {p : String} {e : IoError}
    (hsplit : (a.store.removeEach files).2 = before ++ (p, .error e) :: after)
    (hgo : ∀ x ∈ before, stopsDelete x.2 = false) (hstop : stopsDelete (.error e) = true) :
    removeAll title a denied files =
      ({ a with
          store := (a.store.removeEach (files.take (before.length + 1))).1
          alerts := a.alerts ++ (refusals before).mapIdx fun j => refusalAlert title (a.raised + j)
          raised := a.raised + (refusals before).length },
        .error (.delete title p e)) := by
  induction files generalizing a denied before with
  | nil => simp at hsplit
  | cons q rest ih =>
    rw [FileStore.removeEach_cons] at hsplit
    generalize hr : a.store.remove q = sr at hsplit ⊢
    obtain ⟨s₁, r⟩ := sr
    cases before with
    | nil =>
      have hstopped : e.kind ≠ .notFound ∧ e.kind ≠ .permissionDenied := by
        simpa [stopsDelete, bne, IoKind.beq_eq_decide] using hstop
      simp only [List.nil_append, List.cons.injEq, Prod.mk.injEq] at hsplit
      obtain ⟨⟨rfl, rfl⟩, -⟩ := hsplit
      simp [removeAll, hr, IoKind.beq_eq_decide, hstopped.1, hstopped.2, refusals,
        FileStore.removeEach_cons]
    | cons b before =>
      simp only [List.cons_append, List.cons.injEq] at hsplit
      obtain ⟨rfl, hsplit⟩ := hsplit
      rw [removeAll_cons_of_going hr (hgo (q, r) (by simp)),
        ih _ _ hsplit fun x hx => hgo x (List.mem_cons_of_mem _ hx)]
      simp [refusals_cons (q, r) before, FileStore.removeEach_cons, hr, refusal_alerts_append,
        Nat.add_assoc]

/-- Removals that neither stopped a delete nor were refused were done or found nothing. -/
theorem gone_of_going {answers : List (String × Except IoError Unit)}
    (hgo : ∀ x ∈ answers, stopsDelete x.2 = false) (hnone : refusals answers = []) :
    ∀ x ∈ answers, x.2 = .ok () ∨ ∃ e, x.2 = .error e ∧ e.kind = .notFound := by
  induction answers with
  | nil => simp
  | cons x rest ih =>
    rw [refusals_cons, List.append_eq_nil_iff] at hnone
    intro y hy
    rcases List.mem_cons.mp hy with rfl | hy
    · rcases going_cases (hgo y (by simp)) with h | h | ⟨e, he, hdenied⟩
      · exact .inl h
      · exact .inr h
      · obtain ⟨p, r⟩ := y
        subst he
        simp [refusals, IoKind.beq_eq_decide, hdenied] at hnone
    · exact ih (fun z hz => hgo z (List.mem_cons_of_mem _ hz)) hnone.2 y hy

/-- What deleting a title does. An untracked title only has its cached path forgotten. For a
tracked title, the removals of its record's backing files are read off `FileStore.removeEach`. -/
structure DeleteOutcomes (a : Adaptor) (t : String) : Prop where
  /-- An untracked title: nothing changes but the router's cache. -/
  untracked : a.index.recordForTitle? t = none →
    a.delete t = ({ a with router := a.router.forget t }, .ok ())
  /-- The first removal that stops the delete makes it fail naming that file, after no later
  file, with the index as it was. -/
  stopped : ∀ r, a.index.recordForTitle? t = some r →
    ∀ before p e after, (a.store.removeEach r.backingFiles).2 = before ++ (p, .error e) :: after →
      (∀ x ∈ before, stopsDelete x.2 = false) → stopsDelete (.error e) = true →
      (a.delete t).2 = .error (.delete t p e) ∧
        (a.delete t).1.store = (a.store.removeEach (r.backingFiles.take (before.length + 1))).1 ∧
        (a.delete t).1.index = a.index
  /-- Otherwise the delete succeeds with one alert per refused removal; a refusal keeps the index
  as it was, and with none the title is tracked no more, its cached path is forgotten and, on a
  store that removes files for real, every backing file is absent. -/
  completed : ∀ r, a.index.recordForTitle? t = some r →
    (∀ x ∈ (a.store.removeEach r.backingFiles).2, stopsDelete x.2 = false) →
      (a.delete t).2 = .ok () ∧
        (a.delete t).1.store = (a.store.removeEach r.backingFiles).1 ∧
        (a.delete t).1.alerts = a.alerts ++
          (refusals (a.store.removeEach r.backingFiles).2).mapIdx
            (fun j => refusalAlert t (a.raised + j)) ∧
        (refusals (a.store.removeEach r.backingFiles).2 ≠ [] → (a.delete t).1.index = a.index) ∧
        (refusals (a.store.removeEach r.backingFiles).2 = [] →
          (a.delete t).1.index.recordForTitle? t = none ∧
            (a.delete t).1.router = a.router.forget t ∧
            (a.store.failingRemovals = none →
              ∀ p ∈ r.backingFiles, (a.delete t).1.store.pathExists p = false))

/-- Deleting a title from a sound index set does what `DeleteOutcomes` says. -/
theorem delete_outcomes (a : Adaptor) (t : String) (hsound : a.index.Sound) :
    DeleteOutcomes a t := by
  refine ⟨fun h => by rw [delete, h], ?_, ?_⟩
  · intro r hr before p e after hsplit hgo hstop
    have hrun := removeAll_of_stop t (a.exclude r.backingFiles) false r.backingFiles hsplit hgo hstop
    rw [delete, hr]
    simp only [hrun]
    simp [exclude, release]
  · intro r hr hgo
    have hrun := removeAll_of_going t (a.exclude r.backingFiles) false r.backingFiles hgo
    rw [delete, hr]
    simp only [hrun]
    by_cases hnone : refusals (a.store.removeEach r.backingFiles).2 = []
    · have huntracked : (a.index.removeTitle t).1.recordForTitle? t = none :=
        hsound.recordForTitle?_removeTitle_self t
      have habsent : a.store.failingRemovals = none →
          ∀ p ∈ r.backingFiles, (a.store.removeEach r.backingFiles).1.pathExists p = false :=
        fun hreal => FileStore.removeEach_absent hreal (gone_of_going hgo hnone)
      simpa [hnone, exclude, release, huntracked] using habsent
    · simp [hnone, exclude, release]

/-- The record tracking `N` at `/w/N.tid`. -/
def missingRecord : FileRecord := ⟨"N.tid", "/w/N.tid", "N", defaultContentType, false, true⟩

/-- The directory `w` holding the file `N.tid`. -/
def missingDisk : Disk := ⟨[(["w"], .dir), (["w", "N.tid"], .file [] 0)], 0⟩

/-- The wiki at `/w` tracking `N` at `/w/N.tid`, over a store scripted to answer every removal
with "not found". -/
def missingWiki : Adaptor :=
  { index := ({} : IndexSet).run [.registerRoot "/w", .insert missingRecord],
    router := { defaultRoot := "/w" },
    store := { disk := missingDisk, failingRemovals := some .notFound },
    exclusions := .new 250, retry := RetryPolicy.ofConfig {} }

theorem missing_wiki_delete_outcomes :
    missingWiki.index.Sound ∧ DeleteOutcomes missingWiki "N" :=
  ⟨IndexSet.sound_empty.run _, delete_outcomes missingWiki "N" (IndexSet.sound_empty.run _)⟩

/-- A store that answers "not found" and removes nothing: the delete succeeds and the title is
tracked no more, yet its file is still there. -/
theorem delete_reported_missing_keeps_file :
    missingWiki.index.recordForTitle? "N" = some missingRecord ∧
      (missingWiki.delete "N").2 = .ok () ∧
      (missingWiki.delete "N").1.index.recordForTitle? "N" = none ∧
      (missingWiki.delete "N").1.store.pathExists "/w/N.tid" = true := by
  refine ⟨?_, ?_, ?_, ?_⟩ <;> with_unfolding_all rfl

end Adaptor

end WikiSync
