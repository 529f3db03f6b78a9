import WikiSync.Proofs.Sync.Concurrent
import WikiSync.Proofs.Sync.Touched
import WikiSync.Proofs.Route.Reuse

/-!
# Saving a document again

A save that answers a record leaves the index finding the record by the title, and the router
remembering or keeping the record's path (`Adaptor.save_ok_spec`). A second save of the title, of
a document with the same route root, extension and sidecar-ness, therefore targets the same path
again (`Router.targetPath_again`), sees the record it would replace there, writes exactly the
record's backing files again and removes none of them (`Adaptor.save_of_kept`). It answers the
record with the new document's title, content type, sidecar flag and editability at the same
relative and absolute paths, exactly when those writes succeed (`Adaptor.save_again_in_place`);
the record of the same document is the first one.

Whether the writes succeed is the disk's business. The first save removes the old record's
backing files that it did not write again, comparing paths by their components and not by what
they resolve to; a removed file may be a link on the way to the new target, and then the second
save's writes fail.
-/

namespace WikiSync

/-- The record a save of `d` tracks in place of `r`: `r`'s relative and absolute paths, with the
title, content type, sidecar flag and editability that `d` is written with. -/
def FileRecord.savedAs (r : FileRecord) (d : Document) : FileRecord :=
  ⟨r.relativePath, r.absolutePath, d.title, (encode d).contentType, (encode d).sidecar.isSome,
    d.isEditable⟩

namespace IndexSet

/-- Tracking a record in a sound set answers the record with the relative path that its path
splits into afterwards. -/
theorem Sound.track_split {s s' : IndexSet} (h : s.Sound) {root : String} {r r' : FileRecord}
    (ht : s.track root r = (s', .ok r')) :
    ∃ root' rel, s'.split r.absolutePath = .ok (root', rel) ∧ r' = { r with relativePath := rel } := by
  unfold track at ht
  generalize hs₁ : (if (s.owningRoot? r.absolutePath).isNone then (s.registerRoot root).1
    else s) = s₁ at ht
  have hsound₁ : s₁.Sound := by
    subst hs₁
    split
    · exact h.registerRoot root
    · exact h
  dsimp only at ht
  split at ht
  · rename_i s₂ d hi
    split at ht
    · rename_i stored hstored
      obtain ⟨rfl, hr'⟩ := Prod.mk.inj ht
      cases hr'
      obtain ⟨root', rel, hsplit, hfound, -⟩ := hsound₁.insert_found hi
      rw [hfound, Option.some_inj] at hstored
      refine ⟨root', rel, ?_, hstored.symm⟩
      rw [split_eq_of_roots (hsound₁.insert_roots hi)]
      exact hsplit
    · cases (Prod.mk.inj ht).2
  · cases (Prod.mk.inj ht).2

end IndexSet

namespace Adaptor

/-- Writing changes only the store. -/
theorem writeAll_frame (a : Adaptor) (title target : String) (enc : Encoded) :
    (a.writeAll title target enc).1 = { a with store := (a.writeAll title target enc).1.store } := by
  have hretry : ∀ (b : Adaptor) (path contents : String),
      (b.writeWithRetry title path contents).1 =
        { b with store := (b.writeWithRetry title path contents).1.store } := fun _ _ _ => rfl
  unfold writeAll
  split
  · rename_i a' e hw
    have h₁ := hretry a target enc.content
    rw [hw] at h₁
    exact h₁
  · rename_i a' n hw
    have ha' := hretry a target enc.content
    rw [hw] at ha'
    dsimp only at ha'
    split
    · exact ha'
    · rename_i note _
      have ha'' := hretry a' (sidecarPath target) note
      split
      · rename_i a'' e hw'
        rw [hw'] at ha''
        dsimp only at ha''
        calc a'' = { a' with store := a''.store } := ha''
          _ = { a with store := a''.store } := by rw [ha']
      · rename_i a'' u hw'
        rw [hw'] at ha''
        dsimp only at ha''
        calc a'' = { a' with store := a''.store } := ha''
          _ = { a with store := a''.store } := by rw [ha']

theorem writeStep_router (a : Adaptor) (pl : SavePlan) : (a.writeStep pl).1.router = a.router := by
  rw [writeStep, writeAll_frame]

theorem commit_router (a : Adaptor) (pl : SavePlan) (w : Except SyncError Unit) :
    (a.commit pl w).1.router = a.router := by
  unfold commit
  cases w with
  | error e => rfl
  | ok u =>
    cases pl.current with
    | none => rfl
    | some old => exact (removeStale_index a _).2

/-- A save whose router answers its current path and changes nothing plans that path. -/
theorem plan_of_target (a : Adaptor) (d : Document) (p : String)
    (h : a.router.targetPath d (a.index.recordForTitle? d.title) (encode d).extension
      (a.isTaken d.title (a.index.recordForTitle? d.title))
      (a.store.disk.nodes.length + a.index.len + 1) = (a.router, p)) :
    a.plan d = (a.exclude (SavePlan.written ⟨d, a.index.recordForTitle? d.title, p⟩),
      ⟨d, a.index.recordForTitle? d.title, p⟩) := by
  unfold plan
  dsimp only
  rw [h]

/-- The last step of a save whose plan saw a record with the backing files it writes again
removes nothing: the store is as the writes left it. -/
theorem commit_store_of_rewritten (a : Adaptor) (pl : SavePlan) (w : Except SyncError Unit)
    {c : FileRecord} (hcur : pl.current = some c) (hfiles : c.backingFiles = pl.written) :
    (a.commit pl w).1.store = a.store := by
  unfold commit
  cases w with
  | error e => rfl
  | ok u =>
    have hstale : (c.backingFiles.filter fun p => !pl.written.any (Path.same · p)) = [] := by
      rw [List.filter_eq_nil_iff, hfiles]
      intro p hp
      simp only [Bool.not_eq_eq_eq_not, Bool.not_true, Bool.not_eq_false, List.any_eq_true]
      exact ⟨p, hp, by simp [Path.same]⟩
    rw [hcur]
    dsimp only
    rw [hstale]
    rfl

/-- What a save that answers a record leaves: a sound index that finds the record by the title,
the record the plan made with the relative path its path splits into, and the router as the plan
left it. -/
theorem save_ok_spec {a a₁ : Adaptor} {d : Document} {r : FileRecord} (hs : a.index.Sound)
    (h : a.save d = (a₁, .ok r)) :
    a₁.index.Sound ∧ a₁.index.recordForTitle? d.title = some r ∧
      a₁.router = (a.plan d).1.router ∧
      ∃ root rel, a₁.index.split r.absolutePath = .ok (root, rel) ∧
        r = { (a.plan d).2.record with relativePath := rel } := by
  rw [save_eq_steps] at h
  rcases hw : (a.plan d).1.writeStep (a.plan d).2 with ⟨W, w⟩
  rw [hw] at h
  cases w with
  | error e =>
    unfold commit at h
    cases (Prod.mk.inj h).2
  | ok u =>
    have hWi : W.index = a.index := by
      have h₁ := writeStep_index (a.plan d).1 (a.plan d).2
      rw [hw, plan_index] at h₁
      exact h₁
    obtain ⟨hidx, hans⟩ := commit_ok W (a.plan d).2
    rw [h] at hidx hans
    have htrack : W.index.track (W.router.resolve (a.plan d).2.doc).rootDirectory
        (a.plan d).2.record = (a₁.index, .ok r) := Prod.ext hidx.symm hans.symm
    have hsW : W.index.Sound := hWi ▸ hs
    have htr := hsW.track_ok htrack
    obtain ⟨root, rel, hsplit, hr⟩ := hsW.track_split htrack
    have hrouter : a₁.router = (a.plan d).1.router := by
      have h₁ := commit_router W (a.plan d).2 (.ok ())
      have h₂ := writeStep_router (a.plan d).1 (a.plan d).2
      rw [h] at h₁
      rw [hw] at h₂
      exact h₁.trans h₂
    have hpath : r.absolutePath = (a.plan d).2.record.absolutePath := by rw [hr]
    exact ⟨htr.sound, htr.by_title, hrouter, root, rel, hpath ▸ hsplit, hr⟩

/-- A save whose router keeps the title's current record's path, and that writes the record's
backing files again, writes only those, removes nothing, and answers the record as the document
now has it, exactly when the writes succeed. -/
theorem save_of_kept {a : Adaptor} {d : Document} {r : FileRecord} {root : String}
    (hs : a.index.Sound) (hcur : a.index.recordForTitle? d.title = some r)
    (htarget : a.router.targetPath d (some r) (encode d).extension (a.isTaken d.title (some r))
      (a.store.disk.nodes.length + a.index.len + 1) = (a.router, r.absolutePath))
    (hfiles : r.backingFiles = SavePlan.written ⟨d, some r, r.absolutePath⟩)
    (hsplit : a.index.split r.absolutePath = .ok (root, r.relativePath)) :
    FileStore.Touches (· ∈ r.backingFiles) (fun _ => False) a.store (a.save d).1.store ∧
      (a.save d).2 = ((a.exclude r.backingFiles).writeAll d.title r.absolutePath
        (encode d)).2.map fun _ => r.savedAs d := by
  have hplan := plan_of_target a d r.absolutePath (by rw [hcur]; exact htarget)
  rw [hcur, ← hfiles] at hplan
  rw [save_eq_steps, hplan]
  dsimp only
  rcases hw : (a.exclude r.backingFiles).writeAll d.title r.absolutePath (encode d) with ⟨W, w⟩
  have hwrite : (a.exclude r.backingFiles).writeStep ⟨d, some r, r.absolutePath⟩ = (W, w) := hw
  have htouch := writeAll_touches_written (a.exclude r.backingFiles) d.title r.absolutePath
    (encode d)
  have hWi := writeAll_index (a.exclude r.backingFiles) d.title r.absolutePath (encode d)
  rw [hw] at htouch hWi
  rw [hwrite]
  refine ⟨?_, ?_⟩
  · rw [commit_store_of_rewritten W _ w rfl hfiles, hfiles]
    exact htouch
  · cases w with
    | error e => rfl
    | ok u =>
      have hsplit' : a.index.split (SavePlan.record ⟨d, some r, r.absolutePath⟩).absolutePath =
          .ok (root, r.relativePath) := hsplit
      rw [(commit_ok W _).2, hWi, exclude_index, hs.track_answer hsplit']
      rfl

/-- Saving again right after a save of `d` that answered `r`, a document of the same title, route
root, extension and sidecar-ness: the first record is `d`'s record at its paths, and the second
save targets `r`'s path, writes only `r`'s backing files, removes none, and answers the new
document's record at `r`'s paths exactly when writing its files there succeeds. -/
theorem save_again_in_place {a a₁ : Adaptor} {d d₂ : Document} {r : FileRecord}
    (hs : a.index.Sound) (h : a.save d = (a₁, .ok r)) (htitle : d₂.title = d.title)
    (hroot : (a.router.resolve d₂).rootDirectory = (a.router.resolve d).rootDirectory)
    (hext : (encode d₂).extension = (encode d).extension)
    (hside : (encode d₂).sidecar.isSome = (encode d).sidecar.isSome) :
    r.savedAs d = r ∧ a₁.saveTarget d₂ = r.absolutePath ∧
      FileStore.Touches (· ∈ r.backingFiles) (fun _ => False) a₁.store (a₁.save d₂).1.store ∧
      (a₁.save d₂).2 = ((a₁.exclude r.backingFiles).writeAll d₂.title r.absolutePath
        (encode d₂)).2.map fun _ => r.savedAs d₂ := by
  obtain ⟨hsound, hcur, hrouter, root, rel, hsplit, hr⟩ := save_ok_spec hs h
  have hpath : r.absolutePath = a.saveTarget d := by rw [hr]; rfl
  have hrel : r.relativePath = rel := by rw [hr]
  have hcur₂ : a₁.index.recordForTitle? d₂.title = some r := by rw [htitle]; exact hcur
  have hfree : a₁.isTaken d₂.title (some r) (a.saveTarget d) = false :=
    (isTaken_eq_false a₁ d₂.title (some r) _).mpr (.inl ⟨r, rfl, by simp [hpath, Path.same]⟩)
  obtain ⟨hne, hdot, hsl⟩ := encode_extension_plain d
  have htarget : a₁.router.targetPath d₂ (some r) (encode d₂).extension
      (a₁.isTaken d₂.title (some r)) (a₁.store.disk.nodes.length + a₁.index.len + 1) =
      (a₁.router, r.absolutePath) := by
    rw [hrouter, hext, hpath]
    exact Router.targetPath_again a.router _ _ _ _ _ hne hsl hdot hroot htitle hpath hfree
  have hfiles : r.backingFiles = SavePlan.written ⟨d₂, some r, r.absolutePath⟩ := by
    rw [hr]
    simp only [FileRecord.backingFiles, SavePlan.written, SavePlan.record, hside]
    rfl
  obtain ⟨htouch, hanswer⟩ := save_of_kept hsound hcur₂ htarget hfiles (hrel ▸ hsplit)
  refine ⟨by rw [hr]; rfl, ?_, htouch, hanswer⟩
  unfold saveTarget
  rw [hcur₂, htarget]

end Adaptor

/-- A save of `a/b` into the fresh wiki answers the record at `/w/a_b.tid`. -/
theorem save_slashed :
    freshWiki.save (Document.new "a/b") =
      ((freshWiki.save (Document.new "a/b")).1, .ok slashedRecord) := by
  refine Prod.ext rfl ?_
  have hwrite := Adaptor.writeStep_of_writeNow (freshWiki.plan (Document.new "a/b")).1
    slashedPlan (by rw [slashedPlan, encode_new_slashed]) rfl rfl (writeNow_fresh_target _)
  have hsound : (IndexSet.withRoot "/w").Sound := IndexSet.sound_empty.registerRoot "/w"
  rw [Adaptor.save_eq_steps, plan_slashed]
  dsimp only
  rw [hwrite, (Adaptor.commit_ok _ _).2]
  rw [show ({ (freshWiki.plan (Document.new "a/b")).1 with store := _ } : Adaptor).index =
    IndexSet.withRoot "/w" from rfl, hsound.track_answer split_slashed_target]
  simp only [slashedPlan, SavePlan.record, encode_new_slashed]
  rfl

/-- Saving `a/b` twice into the fresh wiki. -/
theorem slashed_saved_again_in_place :
    freshWiki.index.Sound ∧
      freshWiki.save (Document.new "a/b") =
        ((freshWiki.save (Document.new "a/b")).1, .ok slashedRecord) ∧
      slashedRecord.savedAs (Document.new "a/b") = slashedRecord ∧
      (freshWiki.save (Document.new "a/b")).1.saveTarget (Document.new "a/b") = "/w/a_b.tid" ∧
      FileStore.Touches (· ∈ slashedRecord.backingFiles) (fun _ => False)
        (freshWiki.save (Document.new "a/b")).1.store
        ((freshWiki.save (Document.new "a/b")).1.save (Document.new "a/b")).1.store ∧
      ((freshWiki.save (Document.new "a/b")).1.save (Document.new "a/b")).2 =
        (((freshWiki.save (Document.new "a/b")).1.exclude slashedRecord.backingFiles).writeAll
          "a/b" "/w/a_b.tid" (encode (Document.new "a/b"))).2.map
          fun _ => slashedRecord.savedAs (Document.new "a/b") := by
  have hs : freshWiki.index.Sound := IndexSet.sound_empty.registerRoot "/w"
  exact ⟨hs, save_slashed, Adaptor.save_again_in_place hs save_slashed rfl rfl rfl rfl⟩

/-! ### A link removed as stale

The route root of the wiki below is `/w/L`, a link to the link `/w/M`, which leads to the
directory `/w/D`; the index tracks `X` at `/w/M` itself. Saving `X` writes `/w/L/X.tid`, which
lands in `D`, and then removes the old record's file `/w/M`: its components differ from those
of the target, though it is on the way there. The link `L` now leads nowhere, no directory can be
made at the route root, and saving `X` again fails although nothing changed in between. -/

namespace Adaptor

theorem removeStale_retry (a : Adaptor) (stale : List String) :
    (a.removeStale stale).retry = a.retry := by
  suffices h : ∀ (l : List String) (b : Adaptor),
      (l.foldl (fun a p =>
          let a := a.exclude [p]
          { a with store := (a.store.remove p).1 }) b).retry = b.retry from
    h stale a
  intro l
  induction l with
  | nil => intro b; rfl
  | cons p l ih => intro b; exact ih _

/-- A save leaves the retry policy alone. -/
theorem save_retry (a : Adaptor) (d : Document) : (a.save d).1.retry = a.retry := by
  rw [save_eq_steps]
  have hwrite : ((a.plan d).1.writeStep (a.plan d).2).1.retry = a.retry := by
    rw [writeStep, writeAll_frame]
    rfl
  generalize (a.plan d).1.writeStep (a.plan d).2 = W at hwrite
  unfold commit
  cases W.2 with
  | error e => exact hwrite
  | ok u =>
    cases (a.plan d).2.current with
    | none => exact hwrite
    | some old => exact (removeStale_retry _ _).trans hwrite

/-- Writes that the disk refuses at once, for a reason that does not pass, with no failure
planned before, fail on the first attempt. -/
theorem writeAll_of_writeNow_error (a : Adaptor) (title target : String) (enc : Encoded)
    {e : IoError} (hplanned : a.store.plannedWrites = [])
    (hw : FileStore.writeNow a.store.disk target enc.content = .error e)
    (hkind : e.kind.isTransient = false) :
    (a.writeAll title target enc).2 = .error (.write title target 1 e) := by
  obtain ⟨s, hs⟩ : ∃ s, a.store.write target enc.content = (s, .error e) := by
    unfold FileStore.write
    cases a.store.counted <;> simp [hplanned, hw]
  unfold writeAll writeWithRetry
  rw [writeWithRetry.go, hs]
  simp only [hkind, Bool.false_eq_true, if_false]

end Adaptor

/-- The wiki's directory `w`, with the directory `D`, the link `M` to it, and the link `L` to
`M`. -/
def linkedDisk : Disk :=
  ⟨[(["w"], .dir), (["w", "D"], .dir), (["w", "M"], .link "/w/D"), (["w", "L"], .link "/w/M")], 0⟩

/-- The wiki routed to `/w/L`, with the roots `/w/L` and `/w`, and `X` tracked at `/w/M`. -/
def linkedWiki : Adaptor :=
  { index := ({} : IndexSet).run [.registerRoot "/w/L", .registerRoot "/w",
      .insert ⟨"", "/w/M", "X", defaultContentType, false, true⟩],
    router := { defaultRoot := "/w/L" },
    store := { disk := linkedDisk }, exclusions := .new 250,
    retry := RetryPolicy.ofConfig {} }

/-- The record tracking `X` at `/w/M`. -/
def linkedOld : FileRecord := ⟨"M", "/w/M", "X", defaultContentType, false, true⟩

/-- The record the save of `X` answers, at `/w/L/X.tid`. -/
def linkedRecord : FileRecord := ⟨"X.tid", "/w/L/X.tid", "X", defaultContentType, false, true⟩

/-- The linked wiki after the document is written through the links into `D`. -/
def linkedWritten (bs : List UInt8) : Disk :=
  ⟨[(["w"], .dir), (["w", "D"], .dir), (["w", "M"], .link "/w/D"), (["w", "L"], .link "/w/M"),
    (["w", "D", "X.tid"], .file bs 0)], 1⟩

/-- The written wiki after the link `M` is removed. -/
def linkedPruned (bs : List UInt8) : Disk :=
  ⟨[(["w"], .dir), (["w", "D"], .dir), (["w", "L"], .link "/w/M"),
    (["w", "D", "X.tid"], .file bs 0)], 1⟩

theorem encode_new_X : encode (Document.new "X") =
    ⟨"tid", Codec.headerFile (Document.new "X").fields, none, defaultContentType⟩ := by
  simp +decide [encode, Codec.multilineHeader, String.contains_char_eq, Document.contentType,
    Document.field?, Fields.get?]

theorem sanitize_X : FileName.sanitize "X" = "X" := by
  simp +decide [FileName.sanitize, FileName.reserved, FileName.forbidden, FileName.maxStemChars,
    FileName.trimmed, ← String.toList_inj, String.toList_map]

theorem ofText_wM : Pathname.ofText "/w/M" = ⟨true, [.name "w", .name "M"], false⟩ := by
  have hend : "/w/M".endsWith "/" = false := by with_unfolding_all decide
  have hstart : "/w/M".startsWith "/" = true := by with_unfolding_all decide
  simp +decide [Pathname.ofText, hend, hstart]

theorem ofText_wD : Pathname.ofText "/w/D" = ⟨true, [.name "w", .name "D"], false⟩ := by
  have hend : "/w/D".endsWith "/" = false := by with_unfolding_all decide
  have hstart : "/w/D".startsWith "/" = true := by with_unfolding_all decide
  simp +decide [Pathname.ofText, hend, hstart]

theorem ofText_wL : Pathname.ofText "/w/L" = ⟨true, [.name "w", .name "L"], false⟩ := by
  have hend : "/w/L".endsWith "/" = false := by with_unfolding_all decide
  have hstart : "/w/L".startsWith "/" = true := by with_unfolding_all decide
  simp +decide [Pathname.ofText, hend, hstart]

theorem ofText_wLX : Pathname.ofText "/w/L/X.tid" =
    ⟨true, [.name "w", .name "L", .name "X.tid"], false⟩ := by
  have hend : "/w/L/X.tid".endsWith "/" = false := by with_unfolding_all decide
  have hstart : "/w/L/X.tid".startsWith "/" = true := by with_unfolding_all decide
  simp +decide [Pathname.ofText, hend, hstart]

theorem walkFuel_of_longest_two {d : Disk} (h : d.longestTarget = 2) (t : Pathname) :
    d.walkFuel t = t.steps.length + 165 := by
  rw [Disk.walkFuel, h, Disk.linkLimit]

/-- The walk of an absolute link target `/w/x`, in a disk whose directory `w` is there, ends at
the entry `x` of `w`. -/
theorem approach_target_w {d : Disk} {p x : String} (hw : d.lookup ["w"] = some .dir)
    (hx : Pathname.ofText p = ⟨true, [.name "w", .name x], false⟩)
    (hsize : ¬ x.utf8ByteSize > Disk.nameMax) (fuel links : Nat) (cur : Place) :
    d.approach (fuel + 2) links (if (Pathname.ofText p).absolute then [] else cur)
      (Pathname.ofText p).steps (false || (Pathname.ofText p).dirOnly) =
        .ok (.entry ["w"] x false, links) := by
  simp only [hx, if_true, Bool.or_false]
  rw [Disk.approach_dir (by decide) (List.cons_ne_nil _ _) hw, Disk.approach_last hsize]
  rfl

section Walks

/-! Walks on a disk whose directory `w` holds the link `L` to `/w/M`, with every link target
two components long. -/

variable {d : Disk} (hw : d.lookup ["w"] = some .dir) (hL : d.lookup ["w", "L"] = some (.link "/w/M"))
  (hlong : d.longestTarget = 2)
include hw hlong

/-- The walk of a path `/w/x` ends at the entry `x` of `w`. -/
theorem locate_in_w {p x : String} (hp : ¬ p.utf8ByteSize > Disk.pathMax)
    (hempty : p.isEmpty = false) (hx : Pathname.ofText p = ⟨true, [.name "w", .name x], false⟩)
    (hsize : ¬ x.utf8ByteSize > Disk.nameMax) :
    d.locate p = .ok (.entry ["w"] x false, 0) := by
  rw [Disk.locate, if_neg hp]
  simp only [hx, hempty, walkFuel_of_longest_two hlong, List.length_cons, List.length_nil,
    Nat.reduceAdd, Bool.false_eq_true, if_false]
  rw [Disk.approach_dir (by decide) (List.cons_ne_nil _ _) hw, Disk.approach_last hsize]
  rfl

theorem locate_wL : d.locate "/w/L" = .ok (.entry ["w"] "L" false, 0) :=
  locate_in_w hw hlong (by decide) (by decide) ofText_wL (by decide)

theorem locate_wM : d.locate "/w/M" = .ok (.entry ["w"] "M" false, 0) :=
  locate_in_w hw hlong (by decide) (by decide) ofText_wM (by decide)

include hL

/-- With `M` a link to the directory `/w/D`, the route root `/w/L` leads to `D`. -/
theorem stat_wL (hM : d.lookup ["w", "M"] = some (.link "/w/D"))
    (hD : d.lookup ["w", "D"] = some .dir) : d.stat "/w/L" = .ok (["w", "D"], .dir) := by
  simp only [Disk.stat, Disk.reach, locate_wL hw hlong, bind, Except.bind, pure, Except.pure,
    ofText_wL, walkFuel_of_longest_two hlong, List.length_cons, List.length_nil, Nat.reduceAdd]
  rw [Disk.settle_link hL rfl (by decide) (by decide)
    (approach_target_w hw ofText_wM (by decide) 165 1 ["w"])]
  simp only [Disk.linkLimit]
  rw [Disk.settle_link hM rfl (by decide) (by decide)
      (approach_target_w hw ofText_wD (by decide) 165 2 ["w"]),
    Disk.settle_of_lookup (by simp [List.cons_append, List.nil_append, hD])]
  simp only [Disk.found, Final.place, List.cons_append, List.nil_append, hD]
  rfl

/-- With `M` gone, the route root `/w/L` leads nowhere. -/
theorem stat_wL_dangling (hM : d.lookup ["w", "M"] = none) :
    d.stat "/w/L" = .error (.os .noSuchEntry) := by
  simp only [Disk.stat, Disk.reach, locate_wL hw hlong, bind, Except.bind, pure, Except.pure,
    ofText_wL, walkFuel_of_longest_two hlong, List.length_cons, List.length_nil, Nat.reduceAdd]
  rw [Disk.settle_link hL rfl (by decide) (by decide) (approach_target_w hw ofText_wM (by decide) 165 1 ["w"])]
  simp only [Disk.linkLimit]
  rw [Disk.settle_of_lookup (by simp [List.cons_append, List.nil_append, hM])]
  simp only [Disk.found, Final.place, List.cons_append, List.nil_append, hM]
  rfl

/-- Through the links, the file `/w/L/X.tid` is the entry `X.tid` of `D`. -/
theorem locate_wLX (hM : d.lookup ["w", "M"] = some (.link "/w/D"))
    (hD : d.lookup ["w", "D"] = some .dir) :
    d.locate "/w/L/X.tid" = .ok (.entry ["w", "D"] "X.tid" false, 2) := by
  rw [Disk.locate, if_neg (by decide)]
  simp only [ofText_wLX, walkFuel_of_longest_two hlong, List.length_cons, List.length_nil,
    Nat.reduceAdd, show "/w/L/X.tid".isEmpty = false by decide, Bool.false_eq_true, if_false]
  rw [Disk.approach_dir (by decide) (List.cons_ne_nil _ _) hw,
    Disk.approach_link (by decide) (List.cons_ne_nil _ _) hL (by decide) (by decide)]
  simp only [ofText_wM, if_true, List.cons_append, List.nil_append]
  rw [Disk.approach_dir (by decide) (List.cons_ne_nil _ _) hw,
    Disk.approach_link (by decide) (List.cons_ne_nil _ _) hM (by decide) (by decide)]
  simp only [ofText_wD, if_true, List.cons_append, List.nil_append]
  rw [Disk.approach_dir (by decide) (List.cons_ne_nil _ _) hw,
    Disk.approach_dir (by decide) (List.cons_ne_nil _ _) hD, Disk.approach_last (by decide)]
  rfl

end Walks

theorem linkedDisk_longest : linkedDisk.longestTarget = 2 := by
  simp only [Disk.longestTarget, linkedDisk, List.foldl_cons, List.foldl_nil, ofText_wM,
    ofText_wD, List.length_cons, List.length_nil]
  rfl

theorem linkedWritten_longest (bs : List UInt8) : (linkedWritten bs).longestTarget = 2 := by
  simp only [Disk.longestTarget, linkedWritten, List.foldl_cons, List.foldl_nil, ofText_wM,
    ofText_wD, List.length_cons, List.length_nil]
  rfl

theorem linkedPruned_longest (bs : List UInt8) : (linkedPruned bs).longestTarget = 2 := by
  simp only [Disk.longestTarget, linkedPruned, List.foldl_cons, List.foldl_nil, ofText_wM,
    List.length_cons, List.length_nil]
  rfl

/-- The route root `/w/L` is already a directory, through the links. -/
theorem linkedDisk_createDirAll : linkedDisk.createDirAll "/w/L" = .ok linkedDisk := by
  have hlen : "/w/L".length = 4 := by with_unfolding_all decide
  have hdir : linkedDisk.isDir "/w/L" = true := by
    simp only [Disk.isDir, stat_wL rfl rfl linkedDisk_longest rfl rfl]
  have hcreate : linkedDisk.createDir "/w/L" = .error (.os .fileExists) := by
    simp only [Disk.createDir, locate_wL rfl linkedDisk_longest]
    rfl
  have hempty : "/w/L".isEmpty = false := by with_unfolding_all decide
  have hkind : ((IoError.os OsError.fileExists).kind == IoKind.notFound) = false := rfl
  rw [Disk.createDirAll, Disk.makeDirs, hlen, Disk.makeDirsUp]
  simp only [hempty, hcreate, hkind, hdir, Bool.false_eq_true, if_false, if_true]

theorem linkedDisk_writeNow (c : String) :
    FileStore.writeNow linkedDisk "/w/L/X.tid" c = .ok (linkedWritten (Utf8.encode c)) := by
  have hp : Path.parent? "/w/L/X.tid" = some "/w/L" := by with_unfolding_all decide
  have hfresh : linkedDisk.freshName ["w", "D"] = ".tidsync-0" := by with_unfolding_all decide
  have hstaged : ({ nodes := (linkedDisk.setNode (["w", "D"] ++ [".tidsync-0"])
      (.file (Utf8.encode c) linkedDisk.clock)).nodes, clock := linkedDisk.clock + 1 } : Disk) =
      ⟨linkedDisk.nodes ++ [(["w", "D", ".tidsync-0"], .file (Utf8.encode c) 0)], 1⟩ := rfl
  have hlongest : (⟨linkedDisk.nodes ++ [(["w", "D", ".tidsync-0"], .file (Utf8.encode c) 0)], 1⟩ :
      Disk).longestTarget = 2 := by
    simp only [Disk.longestTarget, linkedDisk, List.cons_append, List.nil_append, List.foldl_cons,
      List.foldl_nil, ofText_wM, ofText_wD, List.length_cons, List.length_nil]
    rfl
  simp only [FileStore.writeNow, hp, linkedDisk_createDirAll, bind, Except.bind, Disk.replaceVia,
    stat_wL rfl rfl linkedDisk_longest rfl rfl, hfresh, hstaged,
    locate_wLX rfl rfl hlongest rfl rfl]
  rfl

/-- Removing `/w/M` removes the link itself. -/
theorem linkedWritten_removeFile (bs : List UInt8) :
    (linkedWritten bs).removeFile "/w/M" = .ok (linkedPruned bs) := by
  simp only [Disk.removeFile, locate_wM rfl (linkedWritten_longest bs)]
  rfl

/-- With the link `M` gone, the route root `/w/L` is a dangling link: no directory can be made
there, and no file written below it. -/
theorem linkedPruned_writeNow (bs : List UInt8) (c : String) :
    FileStore.writeNow (linkedPruned bs) "/w/L/X.tid" c = .error (.os .fileExists) := by
  have hp : Path.parent? "/w/L/X.tid" = some "/w/L" := by with_unfolding_all decide
  have hlen : "/w/L".length = 4 := by with_unfolding_all decide
  have hempty : "/w/L".isEmpty = false := by with_unfolding_all decide
  have hkind : ((IoError.os OsError.fileExists).kind == IoKind.notFound) = false := rfl
  have hdir : (linkedPruned bs).isDir "/w/L" = false := by
    simp only [Disk.isDir, stat_wL_dangling rfl rfl (linkedPruned_longest bs) rfl]
  have hcreate : (linkedPruned bs).createDir "/w/L" = .error (.os .fileExists) := by
    simp only [Disk.createDir, locate_wL rfl (linkedPruned_longest bs)]
    rfl
  have hall : (linkedPruned bs).createDirAll "/w/L" = .error (.os .fileExists) := by
    rw [Disk.createDirAll, Disk.makeDirs, hlen, Disk.makeDirsUp]
    simp only [hempty, hcreate, hkind, hdir, Bool.false_eq_true, if_false]
  simp only [FileStore.writeNow, hp, hall]
  rfl

/-- Before the save, nothing is at the target: the walk through the links finds no `X.tid` in
`D`. -/
theorem linkedDisk_target_free : linkedDisk.pathExists "/w/L/X.tid" = false := by
  simp only [Disk.pathExists, Disk.stat, Disk.reach, locate_wLX rfl rfl linkedDisk_longest rfl rfl]
  rfl

theorem linked_current : linkedWiki.index.recordForTitle? "X" = some linkedOld := by
  with_unfolding_all rfl

/-- The router generates `/w/L/X.tid` for `X`: the old record's directory `/w` is above the route
root, and the candidate is free. -/
theorem linked_target (n : Nat) :
    linkedWiki.router.targetPath (Document.new "X") (some linkedOld) "tid"
        (linkedWiki.isTaken "X" (some linkedOld)) (n + 1) =
      ({ linkedWiki.router with lastGenerated := [("X", "/w/L/X.tid")] }, "/w/L/X.tid") := by
  have hroot : (linkedWiki.router.resolve (Document.new "X")).rootDirectory = "/w/L" := rfl
  have hparent : Path.parent? "/w/M" = some "/w" := by with_unfolding_all decide
  have hout : Path.startsWith "/w" "/w/L" = false := by with_unfolding_all decide
  have hcand : FileName.candidate "/w/L" (FileName.sanitize "X") "tid" 0 = "/w/L/X.tid" := by
    rw [sanitize_X]
    with_unfolding_all decide
  have htaken : linkedWiki.isTaken "X" (some linkedOld) "/w/L/X.tid" = false := by
    unfold Adaptor.isTaken
    rw [if_neg (by with_unfolding_all decide)]
    have hnone : linkedWiki.index.recordAt? "/w/L/X.tid" = none := by with_unfolding_all rfl
    rw [hnone]
    exact linkedDisk_target_free
  have htitle : (Document.new "X").title = "X" := rfl
  have hold : linkedOld.absolutePath = "/w/M" := rfl
  have hcache : linkedWiki.router.lastGenerated = [] := rfl
  simp only [Router.targetPath, hroot, hold, hparent, hout, Bool.false_and, Bool.false_eq_true,
    if_false, FileName.generate, FileName.firstFree, htitle, hcand, htaken, hcache]
  rfl

/-- The plan of saving `X` into the linked wiki: the file `/w/L/X.tid` below the route root,
with the record at `/w/M` as the title's current one. -/
def linkedPlan : SavePlan := ⟨Document.new "X", some linkedOld, "/w/L/X.tid"⟩

/-- The linked wiki once the save has planned: the path remembered and the target excluded. -/
def linkedPlanned : Adaptor :=
  { linkedWiki with
    router := { linkedWiki.router with lastGenerated := [("X", "/w/L/X.tid")] } }.exclude
    linkedPlan.written

theorem linked_plan : linkedWiki.plan (Document.new "X") = (linkedPlanned, linkedPlan) := by
  have hcur : linkedWiki.index.recordForTitle? (Document.new "X").title = some linkedOld :=
    linked_current
  have hext : (encode (Document.new "X")).extension = "tid" := by rw [encode_new_X]
  have htitle : (Document.new "X").title = "X" := rfl
  unfold Adaptor.plan
  dsimp only
  rw [hcur, hext, htitle, linked_target]
  rfl

/-- The first save of `X` answers the record at `/w/L/X.tid`, with the file written in `D` and
the link `M` removed. -/
theorem linked_first_save :
    linkedWiki.save (Document.new "X") =
        ((linkedWiki.save (Document.new "X")).1, .ok linkedRecord) ∧
      (linkedWiki.save (Document.new "X")).1.store.disk =
        linkedPruned (Utf8.encode (encode (Document.new "X")).content) ∧
      (linkedWiki.save (Document.new "X")).1.store.plannedWrites = [] := by
  have hwrite := Adaptor.writeStep_of_writeNow linkedPlanned linkedPlan
    (by rw [linkedPlan, encode_new_X]) rfl rfl (linkedDisk_writeNow _)
  have hwrite' : linkedPlanned.writeStep linkedPlan =
      ((linkedPlanned.writeStep linkedPlan).1, .ok ()) := by
    rw [hwrite]
  have hWi : (linkedPlanned.writeStep linkedPlan).1.index = linkedWiki.index := by
    rw [hwrite]
    rfl
  have hWs : (linkedPlanned.writeStep linkedPlan).1.store =
      { disk := linkedWritten (Utf8.encode (encode (Document.new "X")).content), writes := 1 } := by
    rw [hwrite]
    rfl
  rw [Adaptor.save_eq_steps, linked_plan]
  dsimp only
  rw [hwrite']
  generalize (linkedPlanned.writeStep linkedPlan).1 = W at hWi hWs
  have hsound : linkedWiki.index.Sound := IndexSet.sound_empty.run _
  have hsplit : linkedWiki.index.split linkedPlan.record.absolutePath = .ok ("/w/L", "X.tid") :=
    Except.eq_ok_of_toOption (by with_unfolding_all decide)
  have hwritten : linkedPlan.written = ["/w/L/X.tid"] := by
    simp only [SavePlan.written, linkedPlan, encode_new_X]
    rfl
  have hstale : (linkedOld.backingFiles.filter fun p => !(["/w/L/X.tid"].any (Path.same · p))) =
      ["/w/M"] := by
    with_unfolding_all decide
  have hcur : linkedPlan.current = some linkedOld := rfl
  have hstore : (W.commit linkedPlan (.ok ())).1.store = (W.store.remove "/w/M").1 := by
    unfold Adaptor.commit
    simp only [hcur, hwritten, hstale]
    rfl
  refine ⟨Prod.ext rfl ?_, ?_, ?_⟩
  · rw [(Adaptor.commit_ok _ _).2, hWi, hsound.track_answer hsplit]
    simp only [linkedPlan, SavePlan.record, encode_new_X]
    rfl
  · rw [hstore, hWs]
    simp only [FileStore.remove, if_true, linkedWritten_removeFile]
  · rw [hstore, hWs]
    simp only [FileStore.remove, if_true, linkedWritten_removeFile]

/-- Saving `X` into the linked wiki succeeds with the record at `/w/L/X.tid`; saving `X` again,
with nothing changed in between, fails to write there. -/
theorem linked_save_again_fails :
    linkedWiki.index.Sound ∧
      linkedWiki.save (Document.new "X") =
        ((linkedWiki.save (Document.new "X")).1, .ok linkedRecord) ∧
      ((linkedWiki.save (Document.new "X")).1.save (Document.new "X")).2 =
        .error (.write "X" "/w/L/X.tid" 1 (.os .fileExists)) := by
  have hs : linkedWiki.index.Sound := IndexSet.sound_empty.run _
  obtain ⟨hsave, hdisk, hplanned⟩ := linked_first_save
  refine ⟨hs, hsave, ?_⟩
  generalize ha₁ : (linkedWiki.save (Document.new "X")).1 = a₁ at hsave hdisk hplanned
  obtain ⟨hs₁, hcur₁, hrouter₁, root, rel, hsplit, hrec⟩ := Adaptor.save_ok_spec hs hsave
  have hrel : rel = "X.tid" := (congrArg FileRecord.relativePath hrec).symm
  subst hrel
  have hroot : (a₁.router.resolve (Document.new "X")).rootDirectory = "/w/L" := by
    rw [hrouter₁, linked_plan]
    rfl
  have hparent : Path.parent? "/w/L/X.tid" = some "/w/L" := by decide +kernel
  have hunder : Path.startsWith "/w/L" "/w/L" = true := by decide +kernel
  have hhas : Router.hasExtension "/w/L/X.tid" "tid" = true := by decide +kernel
  have htarget : a₁.router.targetPath (Document.new "X") (some linkedRecord)
      (encode (Document.new "X")).extension
      (a₁.isTaken (Document.new "X").title (some linkedRecord))
      (a₁.store.disk.nodes.length + a₁.index.len + 1) = (a₁.router, linkedRecord.absolutePath) := by
    simp only [Router.targetPath, hroot, encode_new_X, linkedRecord, hparent, hunder, hhas,
      Bool.and_self, if_true]
  have hfiles : linkedRecord.backingFiles =
      SavePlan.written ⟨Document.new "X", some linkedRecord, linkedRecord.absolutePath⟩ := by
    simp only [SavePlan.written, encode_new_X]
    rfl
  have hkept := (Adaptor.save_of_kept hs₁ hcur₁ htarget hfiles hsplit).2
  have hdisk₁ : (a₁.exclude linkedRecord.backingFiles).store.disk =
      linkedPruned (Utf8.encode (encode (Document.new "X")).content) := hdisk
  have hfail := Adaptor.writeAll_of_writeNow_error (a₁.exclude linkedRecord.backingFiles)
    (Document.new "X").title linkedRecord.absolutePath (encode (Document.new "X")) hplanned
    (by rw [hdisk₁]; exact linkedPruned_writeNow _ _) rfl
  rw [hkept, hfail]
  rfl

end WikiSync
