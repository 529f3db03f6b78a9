import WikiSync.Sync.Interleaved
import WikiSync.Proofs.Index.Titles

/-!
# Two saves at once

Only the last step of a save changes the index (`Adaptor.plan_index`, `Adaptor.writeStep_index`,
`Adaptor.commit_error_index`). It tracks the plan's record (`IndexSet.track`), which in a sound
set keeps the set sound, finds the record by its title and at its path, and finds every other
title's record as before unless that record was the one at the record's path
(`IndexSet.Sound.track_ok`).

So when two saves of different titles interleave, the one that finishes first has its record
tracked until the other finishes, and the second displaces it exactly when it tracks its own
record at the same path (`Race`). Neither save looks at the other's plan: a target is chosen
from the index and the files as they are, so two saves whose titles give the same file name may
both choose it, and then the save that finishes last displaces the other's record
(`interleaved_saves_keep_iff`).
-/

namespace WikiSync

namespace Adaptor

/-! ### What each step does to the index -/

@[simp] theorem exclude_index (a : Adaptor) (ps : List String) : (a.exclude ps).index = a.index :=
  rfl

@[simp] theorem release_index (a : Adaptor) (ps : List String) : (a.release ps).index = a.index :=
  rfl

@[simp] theorem raise_index (a : Adaptor) (subject message : String) (n : Nat) :
    (a.raise subject message n).index = a.index :=
  rfl

@[simp] theorem writeWithRetry_index (a : Adaptor) (title path contents : String) :
    (a.writeWithRetry title path contents).1.index = a.index :=
  rfl

theorem writeAll_index (a : Adaptor) (title target : String) (enc : Encoded) :
    (a.writeAll title target enc).1.index = a.index := by
  unfold writeAll
  split
  · rename_i a' e hw
    rw [← writeWithRetry_index a title target enc.content, hw]
  · rename_i a' n hw
    have ha' : a'.index = a.index := by rw [← writeWithRetry_index a title target enc.content, hw]
    split
    · exact ha'
    · split
      · rename_i a'' e hw'
        rw [← ha', ← writeWithRetry_index a' title _ _, hw']
      · rename_i a'' u hw'
        rw [← ha', ← writeWithRetry_index a' title _ _, hw']

/-- Removing stale files leaves the index and the router alone. -/
theorem removeStale_index (a : Adaptor) (stale : List String) :
    (a.removeStale stale).index = a.index ∧ (a.removeStale stale).router = a.router := by
  suffices h : ∀ (l : List String) (b : Adaptor),
      (l.foldl (fun a p =>
          let a := a.exclude [p]
          { a with store := (a.store.remove p).1 }) b).index = b.index ∧
        (l.foldl (fun a p =>
          let a := a.exclude [p]
          { a with store := (a.store.remove p).1 }) b).router = b.router from
    h stale a
  intro l
  induction l with
  | nil => intro b; exact ⟨rfl, rfl⟩
  | cons p l ih => intro b; exact ih _

theorem plan_index (a : Adaptor) (d : Document) : (a.plan d).1.index = a.index :=
  rfl

theorem writeStep_index (a : Adaptor) (pl : SavePlan) : (a.writeStep pl).1.index = a.index :=
  writeAll_index a pl.doc.title pl.target (encode pl.doc)

theorem commit_error_index (a : Adaptor) (pl : SavePlan) (e : SyncError) :
    (a.commit pl (.error e)).1.index = a.index :=
  rfl

/-- After successful writes, the last step of a save tracks the plan's record under the root of
the document's route, in the index as it finds it. -/
theorem commit_ok (a : Adaptor) (pl : SavePlan) :
    (a.commit pl (.ok ())).1.index =
        (a.index.track (a.router.resolve pl.doc).rootDirectory pl.record).1 ∧
      (a.commit pl (.ok ())).2 =
        (a.index.track (a.router.resolve pl.doc).rootDirectory pl.record).2 := by
  unfold commit
  cases pl.current with
  | none => exact ⟨rfl, rfl⟩
  | some old =>
    obtain ⟨hindex, hrouter⟩ := removeStale_index a
      (old.backingFiles.filter fun p => !pl.written.any (Path.same · p))
    dsimp only
    rw [hindex, hrouter]
    exact ⟨rfl, rfl⟩

/-- A save of a title that the index does not track and for which the router has no path cached
plans the first candidate path under the root of the document's route, when that path is not
taken, and caches it. -/
theorem plan_of_fresh (a : Adaptor) (d : Document) (c : String)
    (hcur : a.index.recordForTitle? d.title = none)
    (hcache : a.router.lastGenerated.find? (·.1 == d.title) = none)
    (hc : FileName.candidate (a.router.resolve d).rootDirectory (FileName.sanitize d.title)
      (encode d).extension 0 = c)
    (hfree : a.isTaken d.title none c = false) :
    a.plan d = ({ a with router := { a.router with
        lastGenerated := a.router.lastGenerated ++ [(d.title, c)] } }.exclude
          (SavePlan.written ⟨d, none, c⟩), ⟨d, none, c⟩) := by
  unfold plan
  rw [hcur]
  simp only [Router.targetPath, hcache, FileName.generate, FileName.firstFree, hc, hfree]
  rfl

/-- Writing a document kept without a sidecar, with no failure planned, is one write of the
target: the disk becomes what the write leaves. -/
theorem writeStep_of_writeNow (a : Adaptor) (pl : SavePlan) {d' : Disk}
    (hside : (encode pl.doc).sidecar = none) (hplanned : a.store.plannedWrites = [])
    (hcounted : a.store.counted = true)
    (hw : FileStore.writeNow a.store.disk pl.target (encode pl.doc).content = .ok d') :
    a.writeStep pl =
      ({ a with store := { a.store with disk := d', writes := a.store.writes + 1 } }, .ok ()) := by
  have hwrite : a.store.write pl.target (encode pl.doc).content =
      ({ a.store with disk := d', writes := a.store.writes + 1 }, .ok ()) := by
    unfold FileStore.write
    simp only [hcounted, if_true, hplanned, hw]
  unfold writeStep writeAll writeWithRetry
  simp only [writeWithRetry.go, hwrite, hside]

end Adaptor

/-! ### Tracking a saved record -/

/-- What tracking `r` in the set `s` did when it answered `r'` and left `s'`: the set is sound,
`r'` is `r` at the same path and of the same title, found by the title and at the path, and
every other title's record is found as before unless it was the one at the path. -/
structure Tracked (s s' : IndexSet) (r r' : FileRecord) : Prop where
  /-- The set stays sound. -/
  sound : s'.Sound
  /-- The record answered lies at the record's path. -/
  path : r'.absolutePath = r.absolutePath
  /-- The record answered has the record's title. -/
  title : r'.title = r.title
  /-- The title finds the record answered. -/
  by_title : s'.recordForTitle? r.title = some r'
  /-- The path holds the record answered. -/
  at_path : s'.recordAt? r.absolutePath = some r'
  /-- Every other title finds its record as before, unless that record was at the path. -/
  others : ∀ t, t ≠ r.title → s'.recordForTitle? t =
    if (s.recordAt? r.absolutePath).map (·.title) = some t then none else s.recordForTitle? t

namespace IndexSet

/-- Tracking a record in a sound set, when it answers a record, does what `Tracked` says:
registering the root first, when it happens, changes neither what a title finds nor what the
record's path holds, and the insertion does the rest. -/
theorem Sound.track_ok {s s' : IndexSet} (h : s.Sound) {root : String} {r r' : FileRecord}
    (ht : s.track root r = (s', .ok r')) : Tracked s s' r r' := by
  unfold track at ht
  generalize hs₁ : (if (s.owningRoot? r.absolutePath).isNone then (s.registerRoot root).1
    else s) = s₁ at ht
  have hsound₁ : s₁.Sound := by
    subst hs₁
    split
    · exact h.registerRoot root
    · exact h
  have hrec₁ : ∀ t, s₁.recordForTitle? t = s.recordForTitle? t := by
    intro t
    subst hs₁
    split
    · exact recordForTitle?_registerRoot s root t
    · rfl
  have hat₁ : s₁.recordAt? r.absolutePath = s.recordAt? r.absolutePath := by
    subst hs₁
    split
    · rename_i hnone
      have ho : s.owningRoot? r.absolutePath = none := Option.isNone_iff_eq_none.mp hnone
      rw [h.recordAt?_registerRoot_of_unowned ho root]
      rcases split_cases s r.absolutePath with ⟨root', rel, ho', -⟩ | ⟨-, herr⟩
      · rw [ho] at ho'
        cases ho'
      · exact (lookup_of_split_error herr).1.symm
    · rfl
  dsimp only at ht
  split at ht
  · rename_i s₂ d hi
    split at ht
    · rename_i stored hstored
      obtain ⟨rfl, hr'⟩ := Prod.mk.inj ht
      cases hr'
      obtain ⟨root', rel, -, hfound, hat⟩ := hsound₁.insert_found hi
      rw [hfound, Option.some_inj] at hstored
      subst hstored
      refine ⟨hsound₁.insert hi, rfl, rfl, hfound, hat, fun t hne => ?_⟩
      rw [hsound₁.recordForTitle?_insert_of_ne hi hne, hat₁, hrec₁]
    · cases (Prod.mk.inj ht).2
  · cases (Prod.mk.inj ht).2

/-- Tracking a record whose path splits in a sound set answers the record, with the part of its
path after its root as its relative path: a root owns the path, so none is registered, and the
root's index takes the record. -/
theorem Sound.track_answer {s : IndexSet} (h : s.Sound) {r : FileRecord} {root rel : String}
    (hsplit : s.split r.absolutePath = .ok (root, rel)) (root' : String) :
    (s.track root' r).2 = .ok { r with relativePath := rel } := by
  have howned : (s.owningRoot? r.absolutePath).isNone = false := by
    rcases split_cases s r.absolutePath with ⟨o, rel', ho, -⟩ | ⟨-, herr⟩
    · rw [ho]
      rfl
    · rw [hsplit] at herr
      cases herr
  obtain ⟨ix, hix, rfl⟩ := exists_index_of_split hsplit
  obtain ⟨⟨s', d⟩, hins⟩ := insert_ok_of_startsWith (List.mem_map_of_mem hix)
    (Path.stripPrefix?_of_components (split_components hsplit)).1
  obtain ⟨root'', rel', hsplit', hfound, -⟩ := h.insert_found hins
  rw [hsplit] at hsplit'
  cases hsplit'
  unfold track
  simp only [howned, Bool.false_eq_true, if_false, hins, hfound]

/-- Tracking a record at a path some root owns registers no root. -/
theorem Sound.track_roots {s : IndexSet} (h : s.Sound) {r : FileRecord}
    (hown : s.owningRoot? r.absolutePath ≠ none) (root : String) :
    (s.track root r).1.roots = s.roots := by
  have howned : (s.owningRoot? r.absolutePath).isNone = false :=
    Bool.eq_false_iff.mpr fun hn => hown (Option.isNone_iff_eq_none.mp hn)
  unfold track
  simp only [howned, Bool.false_eq_true, if_false]
  split
  · rename_i s' d hins
    have hroots := h.insert_roots hins
    split <;> exact hroots
  · rfl

end IndexSet

namespace Tracked

variable {s s' : IndexSet} {r r' q : FileRecord}

/-- A record tracked before, found by its title and at its path, of another title, is still
found by its title after tracking `r` exactly when it lies at another path than `r`. -/
theorem keeps_iff (ht : Tracked s s' r r') (hs : s.Sound)
    (hq : s.recordForTitle? q.title = some q) (hqat : s.recordAt? q.absolutePath = some q)
    (hne : q.title ≠ r.title) :
    s'.recordForTitle? r.title = some r' ∧ s'.recordForTitle? q.title = some q ↔
      Path.components r'.absolutePath ≠ Path.components q.absolutePath := by
  have hkey : (s.recordAt? r.absolutePath).map (·.title) = some q.title ↔
      Path.components r.absolutePath = Path.components q.absolutePath := by
    constructor
    · intro hm
      obtain ⟨y, hy, hyt⟩ := Option.map_eq_some_iff.mp hm
      have hyq := hs.recordForTitle?_of_recordAt? hy
      rw [hyt, hq, Option.some_inj] at hyq
      subst hyq
      exact (hs.components_of_recordAt? hy).symm
    · intro hc
      rw [IndexSet.recordAt?_congr s hc, hqat]
      rfl
  rw [ht.others q.title hne, hq, ht.path]
  simp only [ht.by_title, true_and]
  split
  · rename_i hc
    simp [hkey.mp hc]
  · rename_i hc
    simp only [true_iff]
    exact fun hc' => hc (hkey.mpr hc')

end Tracked

namespace Adaptor

/-- A last step that answers a record tracks the plan's record, as `Tracked` says. -/
theorem commit_tracked {a a' : Adaptor} {pl : SavePlan} {r : FileRecord} (hs : a.index.Sound)
    (h : a.commit pl (.ok ()) = (a', .ok r)) : Tracked a.index a'.index pl.record r := by
  obtain ⟨hindex, hanswer⟩ := commit_ok a pl
  rw [h] at hindex hanswer
  have htrack : a.index.track (a.router.resolve pl.doc).rootDirectory pl.record =
      (a'.index, .ok r) :=
    Prod.ext hindex.symm hanswer.symm
  exact hs.track_ok htrack

end Adaptor

/-! ### Stages of a save -/

namespace SaveStage

@[simp] theorem advance_document (a : Adaptor) (x : SaveStage) :
    (x.advance a).2.document = x.document := by
  cases x <;> rfl

end SaveStage

namespace Adaptor

/-- Each save stays a save of its document. -/
theorem interleave_documents (s : List Bool) :
    ∀ (a : Adaptor) (x y : SaveStage), (a.interleave x y s).2.1.document = x.document ∧
      (a.interleave x y s).2.2.document = y.document := by
  induction s with
  | nil => intro a x y; exact ⟨rfl, rfl⟩
  | cons b s ih =>
    intro a x y
    cases b with
    | true =>
      obtain ⟨hx, hy⟩ := ih (x.advance a).1 (x.advance a).2 y
      exact ⟨hx.trans (SaveStage.advance_document a x), hy⟩
    | false =>
      obtain ⟨hx, hy⟩ := ih (y.advance a).1 x (y.advance a).2
      exact ⟨hx, hy.trans (SaveStage.advance_document a y)⟩

/-- A finished save stays as it finished. -/
theorem interleave_done (s : List Bool) (pl : SavePlan) (r : Except SyncError FileRecord) :
    ∀ (a : Adaptor) (y : SaveStage), (a.interleave (.done pl r) y s).2.1 = .done pl r ∧
      (a.interleave y (.done pl r) s).2.2 = .done pl r := by
  induction s with
  | nil => intro a y; exact ⟨rfl, rfl⟩
  | cons b s ih =>
    intro a y
    cases b with
    | true => exact ⟨(ih a y).1, (ih (y.advance a).1 (y.advance a).2).2⟩
    | false => exact ⟨(ih (y.advance a).1 (y.advance a).2).1, (ih a y).2⟩

end Adaptor

/-! ### Two saves racing -/

/-- How two racing saves stand in an index, given that they end with records `ra` and `rb`: the
index is sound; a finished save finished with its record, at its target and of its title; a
save finished while the other is not has its record found by its title and at its path; and
once both are finished, both records are found by their titles exactly when they lie at
different paths. -/
structure Race (s : IndexSet) (x y : SaveStage) (ra rb : FileRecord) : Prop where
  /-- The index is sound. -/
  sound : s.Sound
  /-- The first save finished with its record. -/
  left_ends : x.isDone = true →
    ∃ pl, x = .done pl (.ok ra) ∧ ra.absolutePath = pl.target ∧ ra.title = pl.doc.title
  /-- The second save finished with its record. -/
  right_ends : y.isDone = true →
    ∃ pl, y = .done pl (.ok rb) ∧ rb.absolutePath = pl.target ∧ rb.title = pl.doc.title
  /-- The first save, finished alone, has its record tracked. -/
  left_alone : x.isDone = true → y.isDone = false →
    s.recordForTitle? ra.title = some ra ∧ s.recordAt? ra.absolutePath = some ra
  /-- The second save, finished alone, has its record tracked. -/
  right_alone : y.isDone = true → x.isDone = false →
    s.recordForTitle? rb.title = some rb ∧ s.recordAt? rb.absolutePath = some rb
  /-- Both finished: both records are tracked exactly when they lie at different paths. -/
  both : x.isDone = true → y.isDone = true →
    (s.recordForTitle? ra.title = some ra ∧ s.recordForTitle? rb.title = some rb ↔
      Path.components ra.absolutePath ≠ Path.components rb.absolutePath)

namespace Race

variable {s : IndexSet} {x y : SaveStage} {ra rb : FileRecord}

/-- Two saves that have not started race in any sound index. -/
theorem start (hs : s.Sound) (da db : Document) : Race s (.start da) (.start db) ra rb where
  sound := hs
  left_ends h := by cases h
  right_ends h := by cases h
  left_alone h := by cases h
  right_alone h := by cases h
  both h := by cases h

/-- The race seen from the other save. -/
theorem swap (h : Race s x y ra rb) : Race s y x rb ra where
  sound := h.sound
  left_ends := h.right_ends
  right_ends := h.left_ends
  left_alone := h.right_alone
  right_alone := h.left_alone
  both hy hx := by
    rw [and_comm, ne_comm]
    exact h.both hx hy

/-- A step of the first save that does not finish it, taken without changing the index, keeps
the race. -/
theorem pending {x' : SaveStage} (h : Race s x y ra rb) (hx : x.isDone = false)
    (hx' : x'.isDone = false) : Race s x' y ra rb where
  sound := h.sound
  left_ends hd := by rw [hx'] at hd; cases hd
  right_ends := h.right_ends
  left_alone hd := by rw [hx'] at hd; cases hd
  right_alone hy _ := h.right_alone hy hx
  both hd := by rw [hx'] at hd; cases hd

/-- One step of the first save keeps the race, when the saves have different titles and the
first save ends with `ra`. The step that finishes it tracks `ra`: alone, it is found by its
title and at its path; after the second save, the second's record stays exactly when it lies at
another path. -/
theorem advance_left {a : Adaptor} (h : Race a.index x y ra rb)
    (htitles : x.document.title ≠ y.document.title)
    (hend : ∀ pl r, (x.advance a).2 = .done pl r → r = .ok ra) :
    Race (x.advance a).1.index (x.advance a).2 y ra rb := by
  cases x with
  | start d => exact h.pending rfl rfl
  | planned pl =>
    simp only [SaveStage.advance]
    rw [Adaptor.writeStep_index]
    exact h.pending rfl rfl
  | written pl w =>
    cases w with
    | error e => cases hend pl _ rfl
    | ok u =>
      cases u
      rcases hc : a.commit pl (.ok ()) with ⟨a', r⟩
      have hr : r = .ok ra := hend pl r (by simp only [SaveStage.advance, hc])
      subst hr
      have ht := Adaptor.commit_tracked h.sound hc
      simp only [SaveStage.advance, hc]
      refine ⟨ht.sound, fun _ => ⟨pl, rfl, ht.path, ht.title⟩, h.right_ends,
        fun _ _ => ⟨ht.title ▸ ht.by_title, ht.path ▸ ht.at_path⟩,
        (fun _ hd => by cases hd), fun _ hy => ?_⟩
      obtain ⟨plb, rfl, hpathb, htitleb⟩ := h.right_ends hy
      obtain ⟨hrb, hrbat⟩ := h.right_alone hy rfl
      have hne : rb.title ≠ pl.record.title := by
        rw [htitleb]
        exact fun heq => htitles heq.symm
      rw [ht.title]
      exact ht.keeps_iff h.sound hrb hrbat hne
  | done pl r => exact h

/-- One step of the second save keeps the race, as `advance_left` for the first. -/
theorem advance_right {a : Adaptor} (h : Race a.index x y ra rb)
    (htitles : x.document.title ≠ y.document.title)
    (hend : ∀ pl r, (y.advance a).2 = .done pl r → r = .ok rb) :
    Race (y.advance a).1.index x (y.advance a).2 ra rb :=
  (h.swap.advance_left (Ne.symm htitles) hend).swap

/-- A whole schedule keeps the race, when the saves have different titles and end with `ra` and
`rb`: induction on the schedule, each turn one `advance_left` or `advance_right`. -/
theorem run (sched : List Bool) :
    ∀ {a : Adaptor} {x y : SaveStage}, Race a.index x y ra rb →
      x.document.title ≠ y.document.title →
      (∀ pl r, (a.interleave x y sched).2.1 = .done pl r → r = .ok ra) →
      (∀ pl r, (a.interleave x y sched).2.2 = .done pl r → r = .ok rb) →
      Race (a.interleave x y sched).1.index (a.interleave x y sched).2.1
        (a.interleave x y sched).2.2 ra rb := by
  induction sched with
  | nil => intro a x y h _ _ _; exact h
  | cons b sched ih =>
    intro a x y h htitles hx hy
    cases b with
    | true =>
      -- a step finishing the first save finishes it for the rest of the schedule
      have hend : ∀ pl r, (x.advance a).2 = .done pl r → r = .ok ra := by
        intro pl r hd
        have hfin : ((x.advance a).1.interleave (x.advance a).2 y sched).2.1 = .done pl r := by
          rw [hd]
          exact (Adaptor.interleave_done sched pl r (x.advance a).1 y).1
        exact hx pl r hfin
      exact ih (h.advance_left htitles hend) (by rw [SaveStage.advance_document]; exact htitles)
        hx hy
    | false =>
      have hend : ∀ pl r, (y.advance a).2 = .done pl r → r = .ok rb := by
        intro pl r hd
        have hfin : ((y.advance a).1.interleave x (y.advance a).2 sched).2.2 = .done pl r := by
          rw [hd]
          exact (Adaptor.interleave_done sched pl r (y.advance a).1 x).2
        exact hy pl r hfin
      exact ih (h.advance_right htitles hend) (by rw [SaveStage.advance_document]; exact htitles)
        hx hy

end Race

/-- Two saves of different titles, interleaved in any order from a sound index, that both
succeed: each record lies at its save's target, and both titles keep their records exactly
when the targets are different paths. A save never sees the other's plan, so nothing keeps
the two targets apart. -/
theorem interleaved_saves_keep_iff {a : Adaptor} {da db : Document} (sched : List Bool)
    {pa pb : SavePlan} {ra rb : FileRecord} (hs : a.index.Sound) (ht : da.title ≠ db.title)
    (hx : (a.interleave (.start da) (.start db) sched).2.1 = .done pa (.ok ra))
    (hy : (a.interleave (.start da) (.start db) sched).2.2 = .done pb (.ok rb)) :
    ra.absolutePath = pa.target ∧ rb.absolutePath = pb.target ∧
      ((a.interleave (.start da) (.start db) sched).1.index.recordForTitle? da.title = some ra ∧
          (a.interleave (.start da) (.start db) sched).1.index.recordForTitle? db.title =
            some rb ↔
        Path.components pa.target ≠ Path.components pb.target) := by
  have hrace := Race.run sched (Race.start hs da db) ht
    (fun pl r hd => by rw [hx] at hd; cases hd; rfl)
    (fun pl r hd => by rw [hy] at hd; cases hd; rfl)
  rw [hx, hy] at hrace
  obtain ⟨pa', hpa, hpatha, htitlea⟩ := hrace.left_ends rfl
  obtain ⟨pb', hpb, hpathb, htitleb⟩ := hrace.right_ends rfl
  cases hpa
  cases hpb
  have hdocs := Adaptor.interleave_documents sched a (.start da) (.start db)
  rw [hx, hy] at hdocs
  obtain ⟨hda, hdb⟩ := hdocs
  have hboth := hrace.both rfl rfl
  rw [htitlea, htitleb, hpatha, hpathb] at hboth
  simp only [SaveStage.document] at hda hdb
  rw [hda, hdb] at hboth
  exact ⟨hpatha, hpathb, hboth⟩

/-! ### Two titles with one file name -/

/-- An adaptor over the root `/w`, which is also the default root: its directory exists and
holds nothing, and nothing is tracked. -/
def freshWiki : Adaptor :=
  { index := IndexSet.withRoot "/w", router := { defaultRoot := "/w" },
    store := { disk := ⟨[(["w"], .dir)], 0⟩ }, exclusions := .new 250,
    retry := RetryPolicy.ofConfig {} }

/-- Both saves plan, then both write, then both commit. -/
def lockstep : List Bool := [true, false, true, false, true, false]

/-- Two saves in lockstep end as their six steps answer. -/
theorem lockstep_run {a a₁ a₂ a₃ a₄ a₅ a₆ : Adaptor} {da db : Document} {pa pb : SavePlan}
    {wa wb : Except SyncError Unit} {ra rb : Except SyncError FileRecord}
    (h₁ : a.plan da = (a₁, pa)) (h₂ : a₁.plan db = (a₂, pb)) (h₃ : a₂.writeStep pa = (a₃, wa))
    (h₄ : a₃.writeStep pb = (a₄, wb)) (h₅ : a₄.commit pa wa = (a₅, ra))
    (h₆ : a₅.commit pb wb = (a₆, rb)) :
    a.interleave (.start da) (.start db) lockstep = (a₆, .done pa ra, .done pb rb) := by
  simp only [Adaptor.interleave, lockstep, SaveStage.advance, h₁, h₂, h₃, h₄, h₅, h₆]

theorem ofText_slashed_target :
    Pathname.ofText "/w/a_b.tid" = ⟨true, [.name "w", .name "a_b.tid"], false⟩ := by
  have hend : "/w/a_b.tid".endsWith "/" = false := by with_unfolding_all decide
  have hstart : "/w/a_b.tid".startsWith "/" = true := by with_unfolding_all decide
  simp +decide [Pathname.ofText, hend, hstart]

theorem ofText_wiki_root : Pathname.ofText "/w" = ⟨true, [.name "w"], false⟩ := by
  have hend : "/w".endsWith "/" = false := by with_unfolding_all decide
  have hstart : "/w".startsWith "/" = true := by with_unfolding_all decide
  simp +decide [Pathname.ofText, hend, hstart]

theorem encode_new_slashed : encode (Document.new "a/b") =
    ⟨"tid", Codec.headerFile (Document.new "a/b").fields, none, defaultContentType⟩ := by
  simp +decide [encode, Codec.multilineHeader, String.contains_char_eq, Document.contentType,
    Document.field?, Fields.get?]

theorem encode_new_colon : encode (Document.new "a:b") =
    ⟨"tid", Codec.headerFile (Document.new "a:b").fields, none, defaultContentType⟩ := by
  simp +decide [encode, Codec.multilineHeader, String.contains_char_eq, Document.contentType,
    Document.field?, Fields.get?]

/-- The first write of `/w/a_b.tid` in the empty directory `w` makes the file. -/
theorem writeNow_fresh_target (c : String) :
    FileStore.writeNow ⟨[(["w"], .dir)], 0⟩ "/w/a_b.tid" c =
      .ok ⟨[(["w"], .dir), (["w", "a_b.tid"], .file (Utf8.encode c) 0)], 1⟩ := by
  have hp : Path.parent? "/w/a_b.tid" = some "/w" := by with_unfolding_all decide
  simp only [FileStore.writeNow, hp, Disk.createDirAll, Disk.makeDirs, Disk.makeDirsUp,
    Disk.createDir, Disk.locate, ofText_wiki_root, ofText_slashed_target, Disk.replaceVia,
    Disk.stat, Disk.reach, Disk.isDir]
  with_unfolding_all rfl

/-- A second write of `/w/a_b.tid` replaces the file. -/
theorem writeNow_over_target (c c' : String) :
    FileStore.writeNow ⟨[(["w"], .dir), (["w", "a_b.tid"], .file (Utf8.encode c) 0)], 1⟩
        "/w/a_b.tid" c' =
      .ok ⟨[(["w"], .dir), (["w", "a_b.tid"], .file (Utf8.encode c') 1)], 2⟩ := by
  have hp : Path.parent? "/w/a_b.tid" = some "/w" := by with_unfolding_all decide
  simp only [FileStore.writeNow, hp, Disk.createDirAll, Disk.makeDirs, Disk.makeDirsUp,
    Disk.createDir, Disk.locate, ofText_wiki_root, ofText_slashed_target, Disk.replaceVia,
    Disk.stat, Disk.reach, Disk.isDir]
  with_unfolding_all rfl

/-- The plan of a save of `a/b` that finds nothing tracked: the file `/w/a_b.tid`. -/
def slashedPlan : SavePlan := ⟨Document.new "a/b", none, "/w/a_b.tid"⟩

/-- The plan of a save of `a:b` that finds nothing tracked: the same file. -/
def colonPlan : SavePlan := ⟨Document.new "a:b", none, "/w/a_b.tid"⟩

/-- The record `a/b` gets at `/w/a_b.tid`. -/
def slashedRecord : FileRecord :=
  ⟨"a_b.tid", "/w/a_b.tid", "a/b", defaultContentType, false, true⟩

/-- The record `a:b` gets at `/w/a_b.tid`. -/
def colonRecord : FileRecord :=
  ⟨"a_b.tid", "/w/a_b.tid", "a:b", defaultContentType, false, true⟩

/-- Both titles sanitise to the stem `a_b`. -/
theorem sanitize_slashed_colon : FileName.sanitize "a/b" = "a_b" ∧ FileName.sanitize "a:b" = "a_b" := by
  constructor <;>
  simp +decide [FileName.sanitize, FileName.reserved, FileName.forbidden, FileName.maxStemChars,
    FileName.trimmed, ← String.toList_inj, String.toList_map]

/-- A title whose stem is `a_b` has `/w/a_b.tid` for its first candidate under `/w`. -/
theorem candidate_slashed_target {t : String} (ht : FileName.sanitize t = "a_b") :
    FileName.candidate "/w" (FileName.sanitize t) "tid" 0 = "/w/a_b.tid" := by
  rw [ht]
  with_unfolding_all decide

/-- The fresh wiki splits the planned path at its root `/w`. -/
theorem split_slashed_target :
    (IndexSet.withRoot "/w").split slashedPlan.record.absolutePath = .ok ("/w", "a_b.tid") :=
  Except.eq_ok_of_toOption (by with_unfolding_all decide)

/-- Nothing takes `/w/a_b.tid` in an adaptor with the fresh wiki's index and disk. -/
theorem isTaken_slashed_target {a : Adaptor} (hi : a.index = IndexSet.withRoot "/w")
    (hd : a.store.disk = ⟨[(["w"], .dir)], 0⟩) (t : String) :
    a.isTaken t none "/w/a_b.tid" = false := by
  have hnone : (IndexSet.withRoot "/w").recordAt? "/w/a_b.tid" = none := by
    have hsplit : (IndexSet.withRoot "/w").split "/w/a_b.tid" = .ok ("/w", "a_b.tid") :=
      split_slashed_target
    rw [IndexSet.recordAt?, hsplit]
    with_unfolding_all decide
  simp only [Adaptor.isTaken, hi, hd, hnone, Option.any_none, Bool.false_eq_true, if_false,
    FileStore.pathExists, Disk.pathExists, Disk.stat, Disk.reach, Disk.locate, ofText_slashed_target]
  with_unfolding_all decide

/-- A save of `a/b` into the fresh wiki plans the first candidate, which nothing takes. -/
theorem plan_slashed : freshWiki.plan (Document.new "a/b") =
    ((freshWiki.plan (Document.new "a/b")).1, slashedPlan) := by
  have hc := candidate_slashed_target sanitize_slashed_colon.1
  rw [Adaptor.plan_of_fresh freshWiki (Document.new "a/b") "/w/a_b.tid" rfl rfl
    (by rw [encode_new_slashed]; exact hc) (isTaken_slashed_target rfl rfl _)]
  rfl

/-- Two saves in lockstep of `a/b` and `a:b`, whose titles sanitise to one file name, from
`freshWiki`: both plan `/w/a_b.tid`, both succeed, and `a/b` ends tracked nowhere. -/
theorem lockstep_fresh_run : ∃ a',
    freshWiki.interleave (.start (Document.new "a/b")) (.start (Document.new "a:b")) lockstep =
      (a', .done slashedPlan (.ok slashedRecord), .done colonPlan (.ok colonRecord)) ∧
    a'.index.recordForTitle? "a/b" = none := by
  have h₂ : (freshWiki.plan (Document.new "a/b")).1.plan (Document.new "a:b") =
      (((freshWiki.plan (Document.new "a/b")).1.plan (Document.new "a:b")).1, colonPlan) := by
    have hc := candidate_slashed_target sanitize_slashed_colon.2
    rw [Adaptor.plan_of_fresh (freshWiki.plan (Document.new "a/b")).1 (Document.new "a:b")
      "/w/a_b.tid" rfl rfl (by rw [encode_new_colon]; exact hc) (isTaken_slashed_target rfl rfl _)]
    rfl
  have h₃ := Adaptor.writeStep_of_writeNow
    ((freshWiki.plan (Document.new "a/b")).1.plan (Document.new "a:b")).1 slashedPlan
    (by rw [slashedPlan, encode_new_slashed]) rfl rfl (writeNow_fresh_target _)
  have hplanned₂ : (((freshWiki.plan (Document.new "a/b")).1.plan
      (Document.new "a:b")).1.store.plannedWrites = []) := rfl
  have hcounted₂ : (((freshWiki.plan (Document.new "a/b")).1.plan
      (Document.new "a:b")).1.store.counted = true) := rfl
  have hidx₂ : (((freshWiki.plan (Document.new "a/b")).1.plan
      (Document.new "a:b")).1.index = IndexSet.withRoot "/w") := rfl
  generalize ((freshWiki.plan (Document.new "a/b")).1.plan (Document.new "a:b")).1 = A₂
    at h₂ h₃ hplanned₂ hcounted₂ hidx₂
  have h₄ := Adaptor.writeStep_of_writeNow (A₂.writeStep slashedPlan).1 colonPlan
    (by rw [colonPlan, encode_new_colon]) (by rw [h₃]; exact hplanned₂)
    (by rw [h₃]; exact hcounted₂)
    (by rw [h₃]; exact writeNow_over_target _ _)
  have h₃' : A₂.writeStep slashedPlan = ((A₂.writeStep slashedPlan).1, .ok ()) := by rw [h₃]
  have hidx₃ : (A₂.writeStep slashedPlan).1.index = IndexSet.withRoot "/w" := by
    rw [Adaptor.writeStep_index, hidx₂]
  generalize (A₂.writeStep slashedPlan).1 = A₃ at h₃' h₄ hidx₃
  have h₄' : A₃.writeStep colonPlan = ((A₃.writeStep colonPlan).1, .ok ()) := by rw [h₄]
  have hidx₄ : (A₃.writeStep colonPlan).1.index = IndexSet.withRoot "/w" := by
    rw [Adaptor.writeStep_index, hidx₃]
  generalize (A₃.writeStep colonPlan).1 = A₄ at h₄' hidx₄
  have hsound : (IndexSet.withRoot "/w").Sound := IndexSet.sound_empty.registerRoot "/w"
  have h₅ : A₄.commit slashedPlan (.ok ()) =
      ((A₄.commit slashedPlan (.ok ())).1, .ok slashedRecord) := by
    refine Prod.ext rfl ?_
    rw [(Adaptor.commit_ok _ _).2, hidx₄, hsound.track_answer split_slashed_target]
    simp only [slashedPlan, SavePlan.record, encode_new_slashed]
    rfl
  have ht₅ := Adaptor.commit_tracked (hidx₄ ▸ hsound) h₅
  have hroots₅ : (A₄.commit slashedPlan (.ok ())).1.index.roots =
      (IndexSet.withRoot "/w").roots := by
    rw [(Adaptor.commit_ok _ _).1, hidx₄]
    exact hsound.track_roots (by with_unfolding_all decide) _
  generalize (A₄.commit slashedPlan (.ok ())).1 = A₅ at h₅ ht₅ hroots₅
  have hsplitB : A₅.index.split colonPlan.record.absolutePath = .ok ("/w", "a_b.tid") :=
    (IndexSet.split_eq_of_roots hroots₅ _).trans split_slashed_target
  have h₆ : A₅.commit colonPlan (.ok ()) =
      ((A₅.commit colonPlan (.ok ())).1, .ok colonRecord) := by
    refine Prod.ext rfl ?_
    rw [(Adaptor.commit_ok _ _).2, ht₅.sound.track_answer hsplitB]
    simp only [colonPlan, SavePlan.record, encode_new_colon]
    rfl
  have ht₆ := Adaptor.commit_tracked ht₅.sound h₆
  refine ⟨_, lockstep_run plan_slashed h₂ h₃' h₄' h₅ h₆, ?_⟩
  have hat : A₅.index.recordAt? colonPlan.record.absolutePath = some slashedRecord := ht₅.at_path
  rw [ht₆.others "a/b" (by with_unfolding_all decide), hat]
  rfl

/-- Two saves of different titles, run in lockstep from an adaptor that tracks nothing, both
succeed and both write the file `/w/a_b.tid`; afterwards the first title is tracked nowhere, its
record displaced by the second. -/
theorem lockstep_saves_displace :
    (freshWiki.interleave (.start (Document.new "a/b")) (.start (Document.new "a:b"))
        lockstep).2 = (.done slashedPlan (.ok slashedRecord), .done colonPlan (.ok colonRecord)) ∧
      (freshWiki.interleave (.start (Document.new "a/b")) (.start (Document.new "a:b"))
        lockstep).1.index.recordForTitle? "a/b" = none := by
  obtain ⟨a', hrun, hgone⟩ := lockstep_fresh_run
  rw [hrun]
  exact ⟨rfl, hgone⟩

theorem lockstep_saves_keep_iff :
    freshWiki.index.Sound ∧ (Document.new "a/b").title ≠ (Document.new "a:b").title ∧
      (freshWiki.interleave (.start (Document.new "a/b")) (.start (Document.new "a:b"))
        lockstep).2.1 = .done slashedPlan (.ok slashedRecord) ∧
      (freshWiki.interleave (.start (Document.new "a/b")) (.start (Document.new "a:b"))
        lockstep).2.2 = .done colonPlan (.ok colonRecord) ∧
      (slashedRecord.absolutePath = slashedPlan.target ∧
        colonRecord.absolutePath = colonPlan.target ∧
        ((freshWiki.interleave (.start (Document.new "a/b")) (.start (Document.new "a:b"))
            lockstep).1.index.recordForTitle? (Document.new "a/b").title = some slashedRecord ∧
          (freshWiki.interleave (.start (Document.new "a/b")) (.start (Document.new "a:b"))
            lockstep).1.index.recordForTitle? (Document.new "a:b").title = some colonRecord ↔
          Path.components slashedPlan.target ≠ Path.components colonPlan.target)) := by
  obtain ⟨a', hrun, -⟩ := lockstep_fresh_run
  have hs : freshWiki.index.Sound := IndexSet.sound_empty.registerRoot "/w"
  have ht : (Document.new "a/b").title ≠ (Document.new "a:b").title := by decide +kernel
  have hx : (freshWiki.interleave (.start (Document.new "a/b")) (.start (Document.new "a:b"))
      lockstep).2.1 = .done slashedPlan (.ok slashedRecord) := by
    rw [hrun]
  have hy : (freshWiki.interleave (.start (Document.new "a/b")) (.start (Document.new "a:b"))
      lockstep).2.2 = .done colonPlan (.ok colonRecord) := by
    rw [hrun]
  exact ⟨hs, ht, hx, hy, interleaved_saves_keep_iff lockstep hs ht hx hy⟩

end WikiSync
