import WikiSync.Proofs.Sync.Stable
import WikiSync.Proofs.Watch.Echo

/-!
# Exclusions are always released

A save excludes its target and the target's sidecar before writing them, and each stale backing
file before removing it; a delete excludes the backing files of the title before removing them.
On every way out of either call (success, a failed write, a failed removal, a refused removal,
an untracked title) each path it excluded has its release scheduled an inclusion delay after the
call (`Adaptor.persist_releases`): the exclusions after the call are those before, with exactly
those paths released at that moment (`Exclusions.ReleasedAt`). So no path the call excluded stays
excluded longer than the inclusion delay after the call, unless something excludes it again
(`Exclusions.ReleasedAt.excludedAt`).
-/

namespace WikiSync

namespace Exclusions

/-! ## Entries under exclusion and release -/

section Entries

variable (x : Exclusions) (p q : String)

/-- Excluding a path clears its release and leaves every other path's entry. -/
theorem entry?_exclude :
    Exclusions.entry? (x.exclude p) q = if Path.same p q then some none else x.entry? q := by
  have hset : (x.exclude p).entries = FileIndex.setKey x.entries p none := by
    unfold exclude FileIndex.setKey
    by_cases h : x.entries.any (fun e => Path.same e.1 p) = true <;> simp [h]
  rw [entry?_eq_lookupKey, entry?_eq_lookupKey, hset, lookupKey_setKey, Path.same_eq]
  by_cases h : Path.components p = Path.components q
  · simp [h]
  · simp [h, Ne.symm h]

/-- Scheduling a release sets the release of an excluded path, and of no other. -/
theorem entry?_scheduleInclusionAt (release : Nat) :
    Exclusions.entry? (x.scheduleInclusionAt p release) q =
      if Path.same p q = true ∧ (x.entry? q).isSome then some (some release) else x.entry? q := by
  have hmap : (x.scheduleInclusionAt p release).entries =
      x.entries.map fun e => if Path.same e.1 p then (e.1, some release) else e := rfl
  rw [entry?_eq_lookupKey, entry?_eq_lookupKey, hmap, lookupKey_map_same, Path.same_eq]
  by_cases h : Path.components p = Path.components q
  · simp [h]
  · simp [h, Ne.symm h]

@[simp] theorem inclusionDelay_exclude : (x.exclude p).inclusionDelay = x.inclusionDelay := by
  unfold exclude
  split <;> rfl

@[simp] theorem inclusionDelay_scheduleInclusion (now : Nat) :
    (x.scheduleInclusion p now).inclusionDelay = x.inclusionDelay :=
  rfl

end Entries

/-- Excluding paths one after another clears the release of each, and leaves every other path's
entry. -/
theorem entry?_foldl_exclude (ps : List String) (x : Exclusions) (q : String) :
    Exclusions.entry? (ps.foldl exclude x) q = if ps.any (Path.same · q) then some none else x.entry? q := by
  induction ps generalizing x with
  | nil => simp
  | cons p ps ih =>
    rw [List.foldl_cons, ih, entry?_exclude, List.any_cons]
    by_cases hp : Path.same p q = true <;> simp [hp]

theorem inclusionDelay_foldl_exclude (ps : List String) (x : Exclusions) :
    (ps.foldl exclude x).inclusionDelay = x.inclusionDelay := by
  induction ps generalizing x with
  | nil => rfl
  | cons p ps ih => rw [List.foldl_cons, ih, inclusionDelay_exclude]

/-- Releasing paths one after another at `now` sets the release of each excluded one to the
inclusion delay after `now`, and leaves every other path's entry. -/
theorem entry?_foldl_scheduleInclusion (ps : List String) (now : Nat) (x : Exclusions)
    (q : String) :
    Exclusions.entry? (ps.foldl (fun x p => x.scheduleInclusion p now) x) q =
      if ps.any (Path.same · q) = true ∧ (x.entry? q).isSome then
        some (some (now + x.inclusionDelay))
      else x.entry? q := by
  induction ps generalizing x with
  | nil => simp
  | cons p ps ih =>
    rw [List.foldl_cons, ih, inclusionDelay_scheduleInclusion, scheduleInclusion,
      entry?_scheduleInclusionAt, List.any_cons]
    -- a release keeps an excluded path excluded, so later releases still find its entry
    by_cases hp : Path.same p q = true <;> by_cases hx : (x.entry? q).isSome = true <;> simp [hp, hx]

theorem inclusionDelay_foldl_scheduleInclusion (ps : List String) (now : Nat) (x : Exclusions) :
    (ps.foldl (fun x p => x.scheduleInclusion p now) x).inclusionDelay = x.inclusionDelay := by
  induction ps generalizing x with
  | nil => rfl
  | cons p ps ih => rw [List.foldl_cons, ih, inclusionDelay_scheduleInclusion]

/-! ## Released paths -/

/-- `x'` is `x` with each path of `ps` released at `release`, and every other path's entry as in
`x`. -/
def ReleasedAt (x x' : Exclusions) (ps : List String) (release : Nat) : Prop :=
  ∀ q, x'.entry? q = if ps.any (Path.same · q) then some (some release) else x.entry? q

theorem ReleasedAt.refl (x : Exclusions) (release : Nat) : ReleasedAt x x [] release := by
  intro q
  simp

/-- A released path is excluded exactly until its release, and any other path exactly when it
was before. -/
theorem ReleasedAt.excludedAt {x x' : Exclusions} {ps : List String} {release : Nat}
    (h : ReleasedAt x x' ps release) (q : String) (t : Nat) :
    x'.excludedAt q t = if ps.any (Path.same · q) then decide (t < release) else x.excludedAt q t := by
  unfold Exclusions.excludedAt
  by_cases hq : ps.any (Path.same · q) = true
  · rw [h q, if_pos hq, if_pos hq]
  · rw [h q, if_neg hq, if_neg hq]

/-- Excluding paths and then releasing the same paths releases exactly those. -/
theorem releasedAt_exclude_release (x : Exclusions) (ps : List String) (now : Nat) :
    ReleasedAt x (ps.foldl (fun x p => x.scheduleInclusion p now) (ps.foldl exclude x)) ps
      (now + x.inclusionDelay) := by
  intro q
  rw [entry?_foldl_scheduleInclusion, entry?_foldl_exclude, inclusionDelay_foldl_exclude]
  by_cases hq : ps.any (Path.same · q) = true <;> simp [hq]

/-- Releasing paths each of which is released or excluded adds them to the released ones. -/
theorem ReleasedAt.release_of_entries {x x' : Exclusions} {ps qs : List String} {now : Nat}
    (h : ReleasedAt x x' ps (now + x'.inclusionDelay))
    (hqs : ∀ q, qs.any (Path.same · q) = true → (x'.entry? q).isSome) :
    ReleasedAt x (qs.foldl (fun x p => x.scheduleInclusion p now) x') (qs ++ ps)
      (now + x'.inclusionDelay) := by
  intro q
  rw [entry?_foldl_scheduleInclusion, List.any_append]
  by_cases hq : qs.any (Path.same · q) = true
  · simp [hq, hqs q hq]
  · simp only [hq, Bool.false_or]
    exact h q

/-- Releases made after excluding paths, that cover those paths, are releases of the entries from
before the exclusion. -/
theorem ReleasedAt.of_foldl_exclude {x x' : Exclusions} {ps S : List String} {release : Nat}
    (h : ReleasedAt (ps.foldl exclude x) x' S release)
    (hps : ∀ q, ps.any (Path.same · q) = true → S.any (Path.same · q) = true) :
    ReleasedAt x x' S release := by
  intro q
  rw [h q, entry?_foldl_exclude]
  by_cases hS : S.any (Path.same · q) = true
  · simp [hS]
  · have hq : ps.any (Path.same · q) = false := by
      cases hq : ps.any (Path.same · q) with
      | false => rfl
      | true => exact absurd (hps q hq) hS
    simp [hS, hq]

end Exclusions

namespace Adaptor

open Exclusions

/-! ## The steps of a save and of a delete -/

theorem exclude_exclusions (a : Adaptor) (ps : List String) :
    (a.exclude ps).exclusions = ps.foldl Exclusions.exclude a.exclusions :=
  rfl

theorem release_exclusions (a : Adaptor) (ps : List String) :
    (a.release ps).exclusions = ps.foldl (fun x p => x.scheduleInclusion p a.now) a.exclusions :=
  rfl

@[simp] theorem exclude_now (a : Adaptor) (ps : List String) : (a.exclude ps).now = a.now :=
  rfl

@[simp] theorem release_now (a : Adaptor) (ps : List String) : (a.release ps).now = a.now :=
  rfl

/-- Removing stale files excludes each and then releases them all. -/
theorem removeStale_exclusions (a : Adaptor) (stale : List String) :
    (a.removeStale stale).exclusions =
      stale.foldl (fun x p => x.scheduleInclusion p a.now)
        (stale.foldl Exclusions.exclude a.exclusions) ∧
      (a.removeStale stale).now = a.now := by
  have hloop : ∀ (l : List String) (b : Adaptor),
      (l.foldl (fun a p =>
          let a := a.exclude [p]
          { a with store := (a.store.remove p).1 }) b).exclusions =
        l.foldl Exclusions.exclude b.exclusions ∧
      (l.foldl (fun a p =>
          let a := a.exclude [p]
          { a with store := (a.store.remove p).1 }) b).now = b.now := by
    intro l
    induction l with
    | nil => intro b; exact ⟨rfl, rfl⟩
    | cons p l ih => intro b; exact ih _
  obtain ⟨hx, hnow⟩ := hloop stale a
  refine ⟨?_, hnow⟩
  unfold removeStale
  rw [release_exclusions, hx, hnow]

/-- Removing a title's files leaves the exclusions and the clock alone. -/
theorem removeAll_exclusions (title : String) (a : Adaptor) (denied : Bool) (files : List String) :
    (removeAll title a denied files).1.exclusions = a.exclusions ∧
      (removeAll title a denied files).1.now = a.now := by
  induction files generalizing a denied with
  | nil => exact ⟨rfl, rfl⟩
  | cons p rest ih =>
    rw [removeAll]
    rcases a.store.remove p with ⟨s', r⟩
    dsimp only
    split
    · exact ih _ _
    · split
      · exact ih _ _
      · split
        · exact ih _ _
        · exact ⟨rfl, rfl⟩

/-- The exclusions after the first step of a save: the written paths excluded. -/
theorem plan_exclusions (a : Adaptor) (d : Document) :
    (a.plan d).1.exclusions = (a.plan d).2.written.foldl Exclusions.exclude a.exclusions ∧
      (a.plan d).1.now = a.now :=
  ⟨rfl, rfl⟩

/-- The write step of a save leaves the exclusions and the clock alone. -/
theorem writeStep_exclusions (a : Adaptor) (pl : SavePlan) :
    (a.writeStep pl).1.exclusions = a.exclusions ∧ (a.writeStep pl).1.now = a.now := by
  unfold writeStep
  rw [writeAll_frame]
  exact ⟨rfl, rfl⟩

/-- The last step of a save releases the written paths and, after successful writes, the stale
files it excluded and removed. -/
theorem commit_releases (a : Adaptor) (pl : SavePlan) (w : Except SyncError Unit)
    (hw : ∀ q, pl.written.any (Path.same · q) = true → (a.exclusions.entry? q).isSome) :
    ∃ stale, (∀ p ∈ stale, ∃ c, pl.current = some c ∧ p ∈ c.backingFiles) ∧
      ReleasedAt a.exclusions (a.commit pl w).1.exclusions (pl.written ++ stale)
        (a.now + a.exclusions.inclusionDelay) := by
  cases w with
  | error e =>
    refine ⟨[], fun p hp => absurd hp List.not_mem_nil, ?_⟩
    show ReleasedAt a.exclusions (pl.written.foldl (fun x p => x.scheduleInclusion p a.now)
      a.exclusions) _ _
    exact (ReleasedAt.refl a.exclusions _).release_of_entries hw
  | ok u =>
    have hrest : ∃ stale, (∀ p ∈ stale, ∃ c, pl.current = some c ∧ p ∈ c.backingFiles) ∧
        ∃ b : Adaptor, (a.commit pl (.ok u)).1 = b.release pl.written ∧ b.now = a.now ∧
          b.exclusions.inclusionDelay = a.exclusions.inclusionDelay ∧
          ReleasedAt a.exclusions b.exclusions stale (a.now + a.exclusions.inclusionDelay) := by
      unfold commit
      cases hcur : pl.current with
      | none =>
        exact ⟨[], fun p hp => absurd hp List.not_mem_nil, _, rfl, rfl, rfl,
          ReleasedAt.refl a.exclusions _⟩
      | some old =>
        obtain ⟨hx, hnow⟩ := removeStale_exclusions a
          (old.backingFiles.filter fun p => !pl.written.any (Path.same · p))
        refine ⟨old.backingFiles.filter fun p => !pl.written.any (Path.same · p),
          fun p hp => ⟨old, rfl, (List.mem_filter.mp hp).1⟩, _, rfl, hnow, ?_, ?_⟩
        · rw [hx, inclusionDelay_foldl_scheduleInclusion, inclusionDelay_foldl_exclude]
        · rw [hx]
          exact releasedAt_exclude_release a.exclusions _ a.now
    obtain ⟨stale, hstale, b, hb, hnow, hdelay, hrel⟩ := hrest
    have hrel' : ReleasedAt a.exclusions b.exclusions stale (b.now + b.exclusions.inclusionDelay) := by
      rw [hnow, hdelay]
      exact hrel
    have hentries : ∀ q, pl.written.any (Path.same · q) = true → (b.exclusions.entry? q).isSome := by
      intro q hq
      rw [hrel q]
      split
      · rfl
      · exact hw q hq
    refine ⟨stale, hstale, ?_⟩
    rw [hb, release_exclusions, ← hnow, ← hdelay]
    exact hrel'.release_of_entries hentries

/-- The paths a save writes are its target and, for a document kept with a sidecar, the target's
sidecar. -/
theorem mem_written (pl : SavePlan) (p : String) :
    p ∈ pl.written ↔ p = pl.target ∨ ((encode pl.doc).sidecar.isSome ∧ p = sidecarPath pl.target) := by
  unfold SavePlan.written
  by_cases h : (encode pl.doc).sidecar.isSome = true <;> simp [h]

/-! ## Every exit releases -/

/-- Every exit of a save releases what it excluded: the written paths and, after successful writes,
the stale backing files it removed. -/
theorem save_releases (a : Adaptor) (d : Document) :
    ∃ S, ReleasedAt a.exclusions (a.save d).1.exclusions S (a.now + a.exclusions.inclusionDelay) ∧
      a.saveTarget d ∈ S ∧ ((encode d).sidecar.isSome → sidecarPath (a.saveTarget d) ∈ S) ∧
      ∀ p ∈ S, p = a.saveTarget d ∨ p = sidecarPath (a.saveTarget d) ∨
        ∃ c, a.index.recordForTitle? d.title = some c ∧ p ∈ c.backingFiles := by
  have hpl : (a.plan d).2 = ⟨d, a.index.recordForTitle? d.title, a.saveTarget d⟩ := rfl
  rw [save_eq_steps]
  obtain ⟨hpx, hpnow⟩ := plan_exclusions a d
  obtain ⟨hwx, hwnow⟩ := writeStep_exclusions (a.plan d).1 (a.plan d).2
  generalize (a.plan d).1.writeStep (a.plan d).2 = W at hwx hwnow
  have hw : ∀ q, (a.plan d).2.written.any (Path.same · q) = true → (W.1.exclusions.entry? q).isSome := by
    intro q hq
    rw [hwx, hpx, entry?_foldl_exclude, if_pos hq]
    rfl
  obtain ⟨stale, hstale, hrel⟩ := commit_releases W.1 (a.plan d).2 W.2 hw
  have hrelease : W.1.now + W.1.exclusions.inclusionDelay = a.now + a.exclusions.inclusionDelay := by
    rw [hwx, hwnow, hpx, hpnow, inclusionDelay_foldl_exclude]
  rw [hrelease, hwx, hpx] at hrel
  refine ⟨(a.plan d).2.written ++ stale, ?_, ?_, ?_, ?_⟩
  · refine hrel.of_foldl_exclude fun q hq => ?_
    rw [List.any_append, hq, Bool.true_or]
  · exact List.mem_append_left _ ((mem_written _ _).mpr (.inl (by rw [hpl])))
  · intro hside
    exact List.mem_append_left _ ((mem_written _ _).mpr (.inr ⟨by rw [hpl]; exact hside, by rw [hpl]⟩))
  · intro p hp
    rcases List.mem_append.mp hp with hp | hp
    · rcases (mem_written _ _).mp hp with rfl | ⟨-, rfl⟩
      · exact .inl (by rw [hpl])
      · exact .inr (.inl (by rw [hpl]))
    · obtain ⟨c, hc, hpc⟩ := hstale p hp
      exact .inr (.inr ⟨c, by rw [← hc, hpl], hpc⟩)

/-- Every exit of a delete releases the backing files of the title's record, which it excluded;
a delete of an untracked title excludes nothing. -/
theorem delete_releases (a : Adaptor) (t : String) :
    ReleasedAt a.exclusions (a.delete t).1.exclusions
      (((a.index.recordForTitle? t).map FileRecord.backingFiles).getD [])
      (a.now + a.exclusions.inclusionDelay) := by
  unfold delete
  cases hrec : a.index.recordForTitle? t with
  | none => exact ReleasedAt.refl _ _
  | some record =>
    dsimp only
    obtain ⟨hx, hnow⟩ := removeAll_exclusions t (a.exclude record.backingFiles) false
      record.backingFiles
    generalize removeAll t (a.exclude record.backingFiles) false record.backingFiles = R at hx hnow
    have hrel : ReleasedAt a.exclusions (R.1.release record.backingFiles).exclusions
        record.backingFiles (a.now + a.exclusions.inclusionDelay) := by
      rw [release_exclusions, hx, hnow, exclude_now, exclude_exclusions]
      exact releasedAt_exclude_release a.exclusions record.backingFiles a.now
    obtain ⟨R, r⟩ := R
    cases r with
    | error e => exact hrel
    | ok denied =>
      cases denied with
      | true => exact hrel
      | false => exact hrel

/-- No exclusion is leaked. On every exit of a save, the exclusions are those from before with
the paths it excluded released an inclusion delay after the call: its target, the target's
sidecar when the document has one, and the stale backing files of the title's record that it
removed. On every exit of a delete, they are those from before with the backing files of the
title's record released so; an untracked title leaves them as they were. -/
theorem persist_releases (a : Adaptor) (d : Document) (t : String) :
    (∃ S, ReleasedAt a.exclusions (a.save d).1.exclusions S (a.now + a.exclusions.inclusionDelay) ∧
      a.saveTarget d ∈ S ∧ ((encode d).sidecar.isSome → sidecarPath (a.saveTarget d) ∈ S) ∧
      ∀ p ∈ S, p = a.saveTarget d ∨ p = sidecarPath (a.saveTarget d) ∨
        ∃ c, a.index.recordForTitle? d.title = some c ∧ p ∈ c.backingFiles) ∧
    ReleasedAt a.exclusions (a.delete t).1.exclusions
      (((a.index.recordForTitle? t).map FileRecord.backingFiles).getD [])
      (a.now + a.exclusions.inclusionDelay) :=
  ⟨save_releases a d, delete_releases a t⟩

end Adaptor

end WikiSync
