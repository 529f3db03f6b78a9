import WikiSync.Proofs.Sync.Stable

/-!
# A save that fails

A save writes the document's primary file and then its sidecar, each with retries, and only then
removes the old backing files and tracks the new record. When a write fails for good, the save
answers that failure at once: it lets the paths it excluded back in, raises one alert about the
title, and leaves everything else as it was (`Adaptor.save_failure_intact`).

* The index is the one the save started from: only the last step of a save changes it, and that
  step is not reached.
* The disk is as it was, or holds the new primary file when only the sidecar failed: a write
  that fails changes nothing, so nothing but the target is written and nothing is removed.
* The target is none of the old backing files unless it is the old primary file itself: a
  target that is not kept from the old record has the document's extension, and a sidecar's
  name ends in `.meta`, which no document is written with (`Path.extension?_sidecarPath`).
* The alert names the title and the attempts the failure reports.

Encoding a document cannot fail, so no save fails with a format error.
-/

namespace WikiSync

namespace Path

/-- Text without separators appended to a path lengthens its last piece. -/
theorem splitOn_append_plain (xs : List Char) {ys : List Char} (hys : '/' ∉ ys) :
    ∃ ps last, (xs ++ ys).splitOn '/' = ps ++ [last ++ ys] := by
  induction xs with
  | nil => exact ⟨[], [], by rw [List.nil_append, List.splitOn_eq_singleton hys]; rfl⟩
  | cons c xs ih =>
    obtain ⟨ps, last, h⟩ := ih
    by_cases hc : c = '/'
    · subst hc
      exact ⟨[] :: ps, last, by rw [List.cons_append, splitOn_slash_cons, h]; rfl⟩
    · rw [List.cons_append, splitOn_cons_of_ne hc, h]
      cases ps with
      | nil => exact ⟨[], c :: last, rfl⟩
      | cons p ps => exact ⟨(c :: p) :: ps, last, rfl⟩

/-- The extension of a path depends only on its components. -/
theorem extension?_congr {p q : String} (h : components p = components q) :
    extension? p = extension? q := by
  simp only [extension?, fileName?, h]

/-- A sidecar's extension is `meta`, or it has none when its name is `.meta` alone. -/
theorem extension?_sidecarPath (p : String) :
    extension? (sidecarPath p) = some "meta" ∨ extension? (sidecarPath p) = none := by
  have hsuffix : sidecarSuffix.toList = ['.', 'm', 'e', 't', 'a'] := rfl
  have hplain : '/' ∉ sidecarSuffix.toList := by rw [hsuffix]; decide
  obtain ⟨ps, last, hsplit⟩ := splitOn_append_plain p.toList hplain
  have hpiece : String.ofList (last ++ sidecarSuffix.toList) = String.ofList last ++ ".meta" := by
    rw [hsuffix]; simp
  have hblank : isBlankPiece (String.ofList last ++ ".meta") = false := by
    rw [← hpiece, Bool.eq_false_iff, ne_eq, isBlankPiece_ofList]
    rintro (h | h) <;> rw [hsuffix] at h <;> simpa using congrArg List.length h
  have hpar : String.ofList last ++ ".meta" ≠ ".." := by
    rw [← hpiece]
    intro h
    have hlen := congrArg (fun s : String => s.toList.length) h
    simp only [String.toList_ofList, List.length_append, hsuffix] at hlen
    have htwo : "..".toList.length = 2 := rfl
    simp only [htwo, List.length_cons, List.length_nil] at hlen
    omega
  have hcomponents : (components (sidecarPath p)).getLast? =
      some (.normal (String.ofList last ++ ".meta")) := by
    rw [components_eq_head_names, sidecarPath, String.toList_append, slashPieces, hsplit,
      List.map_append, List.map_singleton, hpiece, names_append, names_cons_named hblank,
      names_nil, nameOf, if_neg (by simpa using hpar)]
    simp
  rw [extension?, fileName?, hcomponents]
  by_cases hlast : String.ofList last = ""
  · right
    rw [hlast]
    decide
  · left
    rw [show String.ofList last ++ ".meta" = String.ofList last ++ "." ++ "meta" by
      rw [String.append_assoc]; rfl]
    rw [Option.bind_some, splitName_dot hlast (by decide) (by rw [String.append_assoc]; exact hpar)]

end Path

/-- No document is written with the sidecars' extension. -/
theorem encode_extension_ne_meta (d : Document) : (encode d).extension ≠ "meta" := by
  have hnone : "meta" ∉ "json" :: "tid" :: rawTypes.map (·.2) := by decide
  intro h
  exact hnone (h ▸ encode_extension_mem d)

namespace FileStore

/-- A write either fails and leaves the disk as it was, or succeeds and writes the file. -/
theorem write_disk (s : FileStore) (p contents : String) :
    ((s.write p contents).1.disk = s.disk ∧ ∃ e, (s.write p contents).2 = .error e) ∨
      ((s.write p contents).2 = .ok () ∧
        writeNow s.disk p contents = .ok (s.write p contents).1.disk) := by
  unfold write
  generalize hs : (if s.counted then { s with writes := s.writes + 1 } else s) = s₁
  have hdisk : s₁.disk = s.disk := by
    subst hs
    split <;> rfl
  rw [← hdisk]
  dsimp only
  split
  · exact .inl ⟨rfl, _, rfl⟩
  · split
    · exact .inr ⟨rfl, by assumption⟩
    · exact .inl ⟨rfl, _, rfl⟩

theorem write_error_disk {s s₁ : FileStore} {p contents : String} {e : IoError}
    (hw : s.write p contents = (s₁, .error e)) : s₁.disk = s.disk := by
  rcases write_disk s p contents with ⟨h, -⟩ | ⟨hok, -⟩
  · rw [hw] at h
    exact h
  · rw [hw] at hok
    cases hok

theorem write_ok_disk {s s₁ : FileStore} {p contents : String}
    (hw : s.write p contents = (s₁, .ok ())) : writeNow s.disk p contents = .ok s₁.disk := by
  rcases write_disk s p contents with ⟨-, e, he⟩ | ⟨-, hnow⟩
  · rw [hw] at he
    cases he
  · rw [hw] at hnow
    exact hnow

end FileStore

namespace Adaptor

open FileStore

/-- The retry loop leaves the disk as it was, or succeeds once and writes the file. -/
theorem writeWithRetry_go_disk (title path contents : String) (s : FileStore)
    (attempt retries : Nat) :
    (writeWithRetry.go title path contents s attempt retries).1.disk = s.disk ∨
      ((∃ n, (writeWithRetry.go title path contents s attempt retries).2 = .ok n) ∧
        writeNow s.disk path contents =
          .ok (writeWithRetry.go title path contents s attempt retries).1.disk) := by
  fun_induction writeWithRetry.go title path contents s attempt retries with
  | case1 _ _ _ _ hw => exact .inr ⟨⟨_, rfl⟩, write_ok_disk hw⟩
  | case2 _ _ _ _ _ _ hw ih =>
    rcases ih with h | ⟨hok, hnow⟩
    · exact .inl (h.trans (write_error_disk hw))
    · exact .inr ⟨hok, write_error_disk hw ▸ hnow⟩
  | case3 _ _ _ _ _ hw => exact .inl (write_error_disk hw)
  | case4 _ _ _ _ _ _ hw => exact .inl (write_error_disk hw)

/-- The retry loop fails only with a write failure, which reports its attempts. -/
theorem writeWithRetry_go_error (title path contents : String) (s : FileStore)
    (attempt retries : Nat) {e : SyncError}
    (h : (writeWithRetry.go title path contents s attempt retries).2 = .error e) :
    ∃ n, e.attempts = some n := by
  fun_induction writeWithRetry.go title path contents s attempt retries with
  | case1 => cases h
  | case2 _ _ _ _ _ _ _ ih => exact ih h
  | case3 | case4 =>
    cases h
    exact ⟨_, rfl⟩

theorem writeWithRetry_disk (a : Adaptor) (title path contents : String) :
    (a.writeWithRetry title path contents).1.store.disk = a.store.disk ∨
      ((∃ n, (a.writeWithRetry title path contents).2 = .ok n) ∧
        writeNow a.store.disk path contents = .ok (a.writeWithRetry title path contents).1.store.disk) :=
  writeWithRetry_go_disk title path contents a.store 0 (a.retry.maxAttempts - 1)

/-- Writing a document's files fails only with a write failure. -/
theorem writeAll_error_attempts {a : Adaptor} {title target : String} {enc : Encoded}
    {e : SyncError} (h : (a.writeAll title target enc).2 = .error e) : ∃ n, e.attempts = some n := by
  unfold writeAll at h
  rcases hw : a.writeWithRetry title target enc.content with ⟨a₁, e₁ | n⟩
  · rw [hw] at h
    cases h
    exact writeWithRetry_go_error title target enc.content a.store 0 (a.retry.maxAttempts - 1)
      (congrArg Prod.snd hw)
  · rw [hw] at h
    dsimp only at h
    cases hnote : enc.sidecar with
    | none =>
      rw [hnote] at h
      cases h
    | some note =>
      rw [hnote] at h
      dsimp only at h
      rcases hw₂ : a₁.writeWithRetry title (sidecarPath target) note with ⟨a₂, e₂ | m⟩
      · rw [hw₂] at h
        cases h
        exact writeWithRetry_go_error title (sidecarPath target) note a₁.store 0
          (a₁.retry.maxAttempts - 1) (congrArg Prod.snd hw₂)
      · rw [hw₂] at h
        cases h

/-- Failing to write a document's files leaves the disk as it was, or with the primary file
written when only the sidecar failed. -/
theorem writeAll_disk_of_error {a : Adaptor} {title target : String} {enc : Encoded}
    {e : SyncError} (h : (a.writeAll title target enc).2 = .error e) :
    (a.writeAll title target enc).1.store.disk = a.store.disk ∨
      (enc.sidecar.isSome ∧
        writeNow a.store.disk target enc.content = .ok (a.writeAll title target enc).1.store.disk) := by
  have hprimary := writeWithRetry_disk a title target enc.content
  unfold writeAll at h ⊢
  rcases hw : a.writeWithRetry title target enc.content with ⟨a₁, _ | n⟩
  · rw [hw] at hprimary
    rcases hprimary with hd | ⟨⟨_, hok⟩, -⟩
    · exact .inl hd
    · cases hok
  · rw [hw] at hprimary h
    dsimp only at h ⊢
    cases hnote : enc.sidecar with
    | none =>
      rw [hnote] at h
      cases h
    | some note =>
      rw [hnote] at h
      dsimp only at h ⊢
      have hside := writeWithRetry_disk a₁ title (sidecarPath target) note
      rcases hw₂ : a₁.writeWithRetry title (sidecarPath target) note with ⟨a₂, _ | m⟩
      · rw [hw₂] at hside
        dsimp only
        rcases hside with hd | ⟨⟨_, hok⟩, -⟩
        · rw [hd]
          rcases hprimary with hd₁ | ⟨-, hnow⟩
          · exact .inl hd₁
          · exact .inr ⟨rfl, hnow⟩
        · cases hok
      · rw [hw₂] at h
        cases h

/-- Tracking a saved record fails only with an index error. -/
theorem track_error_index {s : IndexSet} {root : String} {r : FileRecord} {e : SyncError}
    (h : (s.track root r).2 = .error e) : ∃ ie, e = .index ie := by
  unfold IndexSet.track at h
  dsimp only at h
  split at h
  · split at h
    · cases h
    · cases h
      exact ⟨_, rfl⟩
  · cases h
    exact ⟨_, rfl⟩

@[simp] theorem raise_alerts (a : Adaptor) (subject message : String) (n : Nat) :
    (a.raise subject message n).alerts = a.alerts ++ [⟨subject, message, n, toString a.raised⟩] :=
  rfl

@[simp] theorem release_alerts (a : Adaptor) (ps : List String) : (a.release ps).alerts = a.alerts :=
  rfl

@[simp] theorem release_raised (a : Adaptor) (ps : List String) : (a.release ps).raised = a.raised :=
  rfl

/-- The write step of a save raises no alert. -/
theorem writeStep_alerts (a : Adaptor) (pl : SavePlan) :
    (a.writeStep pl).1.alerts = a.alerts ∧ (a.writeStep pl).1.raised = a.raised := by
  unfold writeStep
  rw [writeAll_frame]
  exact ⟨rfl, rfl⟩

/-- A save that answers a write failure failed in its writes, and then only let its paths back in
and raised an alert. -/
theorem save_of_write_error {a : Adaptor} {d : Document} {e : SyncError} {n : Nat}
    (h : (a.save d).2 = .error e) (hn : e.attempts = some n) :
    ((a.plan d).1.writeStep (a.plan d).2).2 = .error e ∧
      (a.save d).1 = (((a.plan d).1.writeStep (a.plan d).2).1.release (a.plan d).2.written).raise
        d.title e.message n := by
  rw [save_eq_steps] at h ⊢
  rcases hw : (a.plan d).1.writeStep (a.plan d).2 with ⟨W, w⟩
  rw [hw] at h
  cases w with
  | error e' =>
    unfold commit at h ⊢
    cases h
    dsimp only
    rw [hn]
    exact ⟨rfl, rfl⟩
  | ok u =>
    rw [(commit_ok W (a.plan d).2).2] at h
    obtain ⟨ie, rfl⟩ := track_error_index h
    cases hn

/-- No save fails with a format error: encoding a document cannot fail. -/
theorem save_ne_codec (a : Adaptor) (d : Document) (c : CodecError) :
    (a.save d).2 ≠ .error (.codec c) := by
  intro h
  rw [save_eq_steps] at h
  rcases hw : (a.plan d).1.writeStep (a.plan d).2 with ⟨W, w⟩
  rw [hw] at h
  cases w with
  | error e =>
    unfold commit at h
    cases h
    obtain ⟨n, hn⟩ := writeAll_error_attempts (congrArg Prod.snd hw)
    cases hn
  | ok u =>
    rw [(commit_ok W (a.plan d).2).2] at h
    obtain ⟨ie, hie⟩ := track_error_index h
    cases hie

/-- The target of a save is the title's current file, or a path with the document's extension. -/
theorem saveTarget_cases (a : Adaptor) (d : Document) :
    (∃ c, a.index.recordForTitle? d.title = some c ∧ a.saveTarget d = c.absolutePath) ∨
      Path.extension? (a.saveTarget d) = some (encode d).extension := by
  obtain ⟨hne, hdot, hslash⟩ := encode_extension_plain d
  rcases Router.targetPath_cases a.router d (a.index.recordForTitle? d.title)
      (a.isTaken d.title (a.index.recordForTitle? d.title))
      (a.store.disk.nodes.length + a.index.len + 1) hne hslash hdot with
    ⟨c, hc, htarget, -⟩ | ⟨-, -, hext⟩
  · exact .inl ⟨c, hc, by rw [saveTarget, htarget]⟩
  · refine .inr ?_
    rw [saveTarget]
    simpa [Router.hasExtension] using hext

/-- A target that is not the current file is none of its backing files. -/
theorem saveTarget_not_backing (a : Adaptor) (d : Document) {c : FileRecord}
    (hc : a.index.recordForTitle? d.title = some c)
    (hmoved : Path.same c.absolutePath (a.saveTarget d) = false) :
    ∀ p ∈ c.backingFiles, Path.same p (a.saveTarget d) = false := by
  rcases saveTarget_cases a d with ⟨c', hc', hkept⟩ | hext
  · rw [hc] at hc'
    cases hc'
    rw [hkept, Path.same_eq] at hmoved
    simp at hmoved
  · have hside : Path.same (sidecarPath c.absolutePath) (a.saveTarget d) = false := by
      rw [Bool.eq_false_iff]
      intro hsame
      rw [Path.same_eq, decide_eq_true_iff] at hsame
      have hsame_ext := Path.extension?_congr hsame
      rw [hext] at hsame_ext
      rcases Path.extension?_sidecarPath c.absolutePath with hm | hm <;> rw [hm] at hsame_ext
      · exact encode_extension_ne_meta d (Option.some.inj hsame_ext).symm
      · cases hsame_ext
    intro p hp
    unfold FileRecord.backingFiles at hp
    split at hp <;> simp only [List.mem_cons, List.not_mem_nil, or_false] at hp <;>
      rcases hp with rfl | rfl <;> assumption

/-- A save whose write fails for good keeps the state intact. The index is as it was; the disk is
as it was, or holds the new primary file when only the sidecar could not be written; the target
is none of the old record's backing files unless it is the old primary file; and one alert is
raised, about the title and with the attempts the failure reports. No save fails with a format
error. -/
theorem save_failure_intact (a : Adaptor) (d : Document) :
    (∀ c, (a.save d).2 ≠ .error (.codec c)) ∧
      ∀ e n, (a.save d).2 = .error e → e.attempts = some n →
        (a.save d).1.index = a.index ∧
        ((a.save d).1.store.disk = a.store.disk ∨
          ((encode d).sidecar.isSome ∧
            FileStore.writeNow a.store.disk (a.saveTarget d) (encode d).content =
              .ok (a.save d).1.store.disk)) ∧
        (∀ c, a.index.recordForTitle? d.title = some c →
          Path.same c.absolutePath (a.saveTarget d) = false →
            ∀ p ∈ c.backingFiles, Path.same p (a.saveTarget d) = false) ∧
        (a.save d).1.alerts = a.alerts ++ [⟨d.title, e.message, n, toString a.raised⟩] := by
  refine ⟨save_ne_codec a d, fun e n h hn => ?_⟩
  obtain ⟨hwrite, hsave⟩ := save_of_write_error h hn
  have hwritten : ((a.plan d).1.writeAll (a.plan d).2.doc.title (a.plan d).2.target
      (encode (a.plan d).2.doc)).2 = .error e := hwrite
  have hdisk := writeAll_disk_of_error hwritten
  obtain ⟨halerts, hraised⟩ := writeStep_alerts (a.plan d).1 (a.plan d).2
  refine ⟨?_, ?_, fun c hc hmoved => saveTarget_not_backing a d hc hmoved, ?_⟩
  · rw [hsave, raise_index, release_index, writeStep_index, plan_index]
  · rw [hsave]
    exact hdisk
  · rw [hsave, raise_alerts, release_alerts, release_raised, halerts, hraised]
    rfl

end Adaptor

end WikiSync
