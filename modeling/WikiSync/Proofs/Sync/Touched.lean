import WikiSync.Sync.Adaptor
import WikiSync.Proofs.Path.Keyed
import WikiSync.Proofs.Path.Plain
import WikiSync.Proofs.Route.FreePath
import WikiSync.Proofs.Index.Titles
import WikiSync.Proofs.Disk.Removal

/-!
# The files a save or a delete touches

A file store is changed only by writes and removals; `FileStore.Touches W R` relates a store to
what it becomes after writes of paths in `W` and removals of paths in `R`. A save writes its
target and, for a document kept with a sidecar, the sidecar beside it, and after successful
writes removes the backing files of the title's current record that it did not write again; a
delete removes the backing files of the title's record (`persist_touches`).

The target is the title's current file when it still fits, or a path the router judges free:
the index tracks it for the same title, or no record is at it and nothing exists there
(`saveTarget_spec`). The search for a free path asks about as many candidates as the disk has
places and the index has records, and one more, and from a sound index one of them is free
(`Adaptor.exists_free_candidate`): the candidates are different paths, so records for other
titles take at most as many as the index holds (`IndexSet.card_recorded_le`); and they are
different names in the one directory the root reaches (`Disk.exists_dir_of_join`), so the disk
takes at most as many as it has places (`Disk.card_existing_le`). A search with fewer questions may give up (`FileName.Exhausted`), but the save's
never does. Nothing is checked of the sidecar beside the target, and
nothing of the other titles that the index lists as bundled in a backing file, so a save that
moves a document out of a file holding other documents may remove that file with them.
-/

namespace WikiSync

namespace FileStore

/-- `s'` is `s` after writes of paths satisfying `W` and removals of paths satisfying `R`, any
number of them in any order, and nothing else done to its files. -/
inductive Touches (W R : String → Prop) : FileStore → FileStore → Prop where
  /-- Nothing done. -/
  | refl (s : FileStore) : Touches W R s s
  /-- A write of a path satisfying `W`, then more. -/
  | write {s s' : FileStore} (p contents : String) :
      W p → Touches W R (s.write p contents).1 s' → Touches W R s s'
  /-- A removal of a path satisfying `R`, then more. -/
  | remove {s s' : FileStore} (p : String) :
      R p → Touches W R (s.remove p).1 s' → Touches W R s s'

variable {W R W' R' : String → Prop} {s s' s'' : FileStore}

theorem Touches.trans (h₁ : Touches W R s s') (h₂ : Touches W R s' s'') : Touches W R s s'' := by
  induction h₁ with
  | refl => exact h₂
  | write p c hp _ ih => exact .write p c hp (ih h₂)
  | remove p hp _ ih => exact .remove p hp (ih h₂)

theorem Touches.mono (h : Touches W R s s') (hW : ∀ p, W p → W' p) (hR : ∀ p, R p → R' p) :
    Touches W' R' s s' := by
  induction h with
  | refl => exact .refl _
  | write p c hp _ ih => exact .write p c (hW p hp) ih
  | remove p hp _ ih => exact .remove p (hR p hp) ih

theorem touches_write (s : FileStore) {p : String} (contents : String) (hp : W p) :
    Touches W R s (s.write p contents).1 :=
  .write p contents hp (.refl _)

theorem touches_remove (s : FileStore) {p : String} (hp : R p) :
    Touches W R s (s.remove p).1 :=
  .remove p hp (.refl _)

end FileStore

namespace FileName

/-- Every one of the first `bound` candidate paths is taken, and `p` is the next candidate: the
search for a free path gave up. -/
def Exhausted (root stem ext : String) (taken : String → Bool) (bound : Nat) (p : String) :
    Prop :=
  (∀ n < bound, taken (candidate root stem ext n) = true) ∧ p = candidate root stem ext bound

/-- The search from the `n`-th candidate answers a free candidate, or the one after the `fuel`
candidates it tried, all of them taken. -/
theorem firstFree_spec (root stem ext : String) (taken : String → Bool) (fuel n : Nat) :
    taken (firstFree root stem ext taken fuel n) = false ∨
      ((∀ m, n ≤ m → m < n + fuel → taken (candidate root stem ext m) = true) ∧
        firstFree root stem ext taken fuel n = candidate root stem ext (n + fuel)) := by
  induction fuel generalizing n with
  | zero =>
    right
    exact ⟨fun m hm hm' => absurd hm' (by omega), by rw [firstFree, Nat.add_zero]⟩
  | succ fuel ih =>
    rw [firstFree]
    by_cases h : taken (candidate root stem ext n) = true
    · rw [if_pos h]
      rcases ih (n + 1) with hfree | ⟨hall, heq⟩
      · exact .inl hfree
      · refine .inr ⟨fun m hm hm' => ?_, by rw [heq, Nat.add_right_comm, Nat.add_assoc]⟩
        by_cases hmn : m = n
        · rw [hmn]
          exact h
        · exact hall m (by omega) (by omega)
    · rw [if_neg h]
      exact .inl (by simpa using h)

/-- A generated path is free, unless every candidate the search could try was taken. -/
theorem generate_spec (root title ext : String) (taken : String → Bool) (bound : Nat) :
    taken (generate root title ext taken bound) = false ∨
      Exhausted root (sanitize title) ext taken bound (generate root title ext taken bound) := by
  rcases firstFree_spec root (sanitize title) ext taken bound 0 with hfree | ⟨hall, heq⟩
  · exact .inl hfree
  · refine .inr ⟨fun n hn => hall n (Nat.zero_le n) (by omega), ?_⟩
    rw [generate, heq, Nat.zero_add]

/-- The name a candidate joins to the root, for a safe stem and an extension without separators,
is a plain name. -/
theorem plainName_candidate {stem ext : String} (h : SafeStem stem) (hext : '/' ∉ ext.toList)
    (n : Nat) : Path.PlainName (String.ofList (stem.toList ++ suffixChars n ++ '.' :: ext.toList)) := by
  obtain ⟨c, cs, hcs⟩ := List.exists_cons_of_ne_nil h.nonempty
  have hc : c ≠ '.' := by
    have hfirst := h.first c (by simp [hcs])
    rintro rfl
    exact absurd hfirst (by decide)
  have hstem : '/' ∉ stem.toList := fun hm => (h.allowed '/' hm).1 (by decide)
  refine ⟨fun he => ?_, fun he => ?_, fun he => ?_, ?_⟩
  · simpa [hcs] using congrArg String.toList he
  · simpa [hcs] using congrArg String.toList he
  · have hl := congrArg String.toList he
    simp only [String.toList_ofList, hcs, List.cons_append] at hl
    exact hc (List.cons_eq_cons.mp hl).1
  · simp [hstem, (suffixChars_plain n).2, hext]

end FileName

namespace IndexSet

theorem len_eq_length (s : IndexSet) : s.len = (s.indexes.flatMap (·.entries)).length := by
  rw [len, List.length_flatMap, ← List.sum_eq_foldl_nat]
  rfl

/-- A record found at a path is one of the entries of the set's indexes. -/
theorem mem_entries_of_recordAt? {s : IndexSet} {p : String} {r : FileRecord}
    (h : s.recordAt? p = some r) : ∃ e ∈ s.indexes.flatMap (·.entries), e.2 = r := by
  unfold recordAt? at h
  split at h
  · obtain ⟨ix, hix, hget⟩ := Option.bind_eq_some_iff.mp h
    obtain ⟨e, he, rfl⟩ := Option.map_eq_some_iff.mp hget
    exact ⟨e, List.mem_flatMap.mpr ⟨ix, List.mem_of_find?_eq_some hix, List.mem_of_find?_eq_some he⟩,
      rfl⟩
  · cases h

/-- Of paths with different components, a sound set holds records at no more than it has
records. -/
theorem card_recorded_le {s : IndexSet} (hs : s.Sound) {cand : Nat → String}
    (hinj : ∀ i j, Path.components (cand i) = Path.components (cand j) → i = j) (K : Finset Nat) :
    (K.filter fun j => (s.recordAt? (cand j)).isSome).card ≤ s.len := by
  let T := ((s.indexes.flatMap (·.entries)).map fun e => Path.components e.2.absolutePath).toFinset
  have hmaps : Set.MapsTo (fun j => Path.components (cand j))
      (K.filter fun j => (s.recordAt? (cand j)).isSome : Set Nat) (T : Set _) := by
    intro j hj
    obtain ⟨r, hr⟩ := Option.isSome_iff_exists.mp (Finset.mem_filter.mp hj).2
    obtain ⟨e, he, rfl⟩ := mem_entries_of_recordAt? hr
    exact List.mem_toFinset.mpr (List.mem_map.mpr ⟨e, he, hs.components_of_recordAt? hr⟩)
  calc _ ≤ T.card := Finset.card_le_card_of_injOn _ hmaps fun i _ j _ h => hinj i j h
    _ ≤ ((s.indexes.flatMap (·.entries)).map fun e => Path.components e.2.absolutePath).length :=
      List.toFinset_card_le _
    _ = s.len := by rw [List.length_map, len_eq_length]

end IndexSet

namespace Disk

/-- The plain names joined to one path name entries of one directory: whatever name exists
below the path is a place of the disk in the directory the path reaches. -/
theorem exists_dir_of_join (d : Disk) (root : String) :
    ∃ dir : Place, ∀ name, Path.PlainName name → d.pathExists (Path.join root name) = true →
      ∃ node, (dir ++ [name], node) ∈ d.nodes := by
  obtain ⟨R, hR⟩ := approach_append_name d false
    ((Pathname.ofText root).steps.length + 1 + (linkLimit + 1) * (d.longestTarget + 2) + 1) 0 []
    (Pathname.ofText root).steps
  have hwalk : ∀ name, Path.PlainName name → d.pathExists (Path.join root name) = true →
      ∃ res, d.locate (Path.join root name) = .ok res ∧
        (R.bind fun r => if name.utf8ByteSize > nameMax then .error .nameTooLong
          else .ok (.entry r.1 name false, r.2)) = .ok res := by
    intro name hn hex
    obtain ⟨hsteps, hdir⟩ := @Pathname.ofText_join root name hn
    cases hloc : d.locate (Path.join root name) with
    | error e =>
      rw [pathExists_of_reach_error (reach_of_locate_error hloc)] at hex
      cases hex
    | ok res =>
      refine ⟨res, rfl, ?_⟩
      rw [← hR name]
      simpa only [walkFuel, hsteps, hdir, List.length_append, List.length_singleton] using
        locate_eq_approach hloc
  cases R with
  | error e =>
    refine ⟨[], fun name hn hex => ?_⟩
    obtain ⟨res, -, hres⟩ := hwalk name hn hex
    cases hres
  | ok r =>
    refine ⟨r.1, fun name hn hex => ?_⟩
    obtain ⟨res, hloc, hres⟩ := hwalk name hn hex
    have hlong : ¬ name.utf8ByteSize > nameMax := by
      intro hl
      simp [Except.bind, hl] at hres
    simp only [Except.bind, hlong, if_false, Except.ok.injEq] at hres
    subst hres
    cases hl : d.lookup (r.1 ++ [name]) with
    | none =>
      rw [pathExists_of_locate_empty hloc hl] at hex
      cases hex
    | some node => exact ⟨node, mem_nodes_of_lookup hl⟩

/-- Different plain names joined to one path exist on a disk no more often than it has places. -/
theorem card_existing_le (d : Disk) (root : String) {name : Nat → String}
    (hplain : ∀ j, Path.PlainName (name j)) (hinj : ∀ i j, name i = name j → i = j)
    (K : Finset Nat) :
    (K.filter fun j => d.pathExists (Path.join root (name j))).card ≤ d.nodes.length := by
  obtain ⟨dir, hdir⟩ := exists_dir_of_join d root
  let T := (d.nodes.map Prod.fst).toFinset
  have hmaps : Set.MapsTo (fun j => dir ++ [name j])
      (K.filter fun j => d.pathExists (Path.join root (name j)) : Set Nat) (T : Set _) := by
    intro j hj
    obtain ⟨node, hnode⟩ := hdir (name j) (hplain j) (Finset.mem_filter.mp hj).2
    exact List.mem_toFinset.mpr (List.mem_map.mpr ⟨_, hnode, rfl⟩)
  have hinjOn : Set.InjOn (fun j => dir ++ [name j])
      (K.filter fun j => d.pathExists (Path.join root (name j)) : Set Nat) :=
    fun i _ j _ h => hinj i j (by simpa using h)
  calc _ ≤ T.card := Finset.card_le_card_of_injOn _ hmaps hinjOn
    _ ≤ (d.nodes.map Prod.fst).length := List.toFinset_card_le _
    _ = d.nodes.length := List.length_map _

end Disk

namespace Router

/-- The path the router answers for a document is the current record's own file, a path that is
not taken, or the candidate after all those tried, every one of them taken. -/
theorem targetPath_spec (r : Router) (d : Document) (current : Option FileRecord) (ext : String)
    (taken : String → Bool) (bound : Nat) :
    (∃ c, current = some c ∧ (r.targetPath d current ext taken bound).2 = c.absolutePath) ∨
      taken (r.targetPath d current ext taken bound).2 = false ∨
      FileName.Exhausted (r.resolve d).rootDirectory (FileName.sanitize d.title) ext taken bound
        (r.targetPath d current ext taken bound).2 := by
  have hgen := FileName.generate_spec (r.resolve d).rootDirectory d.title ext taken bound
  unfold targetPath
  dsimp only
  split
  · rename_i p hkeep
    left
    cases current with
    | none => cases hkeep
    | some c =>
      simp only [Option.ite_none_right_eq_some, Option.some.injEq] at hkeep
      exact ⟨c, rfl, hkeep.2.symm⟩
  · split
    · rename_i p _
      split
      · rename_i hfits
        right; left
        simp only [Bool.and_eq_true, Bool.not_eq_true'] at hfits
        exact hfits.2
      · exact .inr hgen
    · exact .inr hgen

end Router

/-- Documents are written with the extensions of the header and bundle layouts, or of a raw type. -/
theorem encode_extension_mem (d : Document) :
    (encode d).extension ∈ "json" :: "tid" :: rawTypes.map (·.2) := by
  unfold encode
  dsimp only
  split
  · exact List.mem_cons_self
  · split
    · exact List.mem_cons_of_mem _ List.mem_cons_self
    · split
      · rename_i ext hext
        unfold extensionForType at hext
        obtain ⟨e, he, rfl⟩ := Option.map_eq_some_iff.mp hext
        exact List.mem_cons_of_mem _ (List.mem_cons_of_mem _
          (List.mem_map_of_mem (List.mem_of_find?_eq_some he)))
      · exact List.mem_cons_self

/-- No document is written with an extension holding a separator. -/
theorem encode_extension_no_slash (d : Document) : '/' ∉ (encode d).extension.toList := by
  have hall : ∀ e ∈ "json" :: "tid" :: rawTypes.map (·.2), '/' ∉ e.toList := by decide
  exact hall _ (encode_extension_mem d)

namespace Adaptor

open FileStore

/-- One write of a path touches only that path. -/
theorem touches_of_write {s s₁ : FileStore} {path contents : String} {r : Except IoError Unit}
    (hw : s.write path contents = (s₁, r)) : Touches (· = path) (fun _ => False) s s₁ := by
  have h : Touches (· = path) (fun _ => False) s (s.write path contents).1 :=
    touches_write s contents rfl
  rw [hw] at h
  exact h

/-- The retry loop writes only its path. -/
theorem writeWithRetry_go_touches (title path contents : String) (s : FileStore)
    (attempt retries : Nat) :
    Touches (· = path) (fun _ => False) s (writeWithRetry.go title path contents s attempt retries).1 := by
  fun_induction writeWithRetry.go title path contents s attempt retries with
  | case1 _ _ _ _ hw => exact touches_of_write hw
  | case2 _ _ _ _ _ _ hw ih => exact (touches_of_write hw).trans ih
  | case3 _ _ _ _ _ hw => exact touches_of_write hw
  | case4 _ _ _ _ _ _ hw => exact touches_of_write hw

@[simp] theorem release_store (a : Adaptor) (ps : List String) : (a.release ps).store = a.store :=
  rfl

/-- Writing with retries writes only its path and leaves the rest of the adaptor alone. -/
theorem writeWithRetry_touches (a : Adaptor) (title path contents : String) :
    Touches (· = path) (fun _ => False) a.store (a.writeWithRetry title path contents).1.store :=
  writeWithRetry_go_touches title path contents a.store 0 (a.retry.maxAttempts - 1)

/-- Writing a document's files writes only its target and, for an encoding with a sidecar, the
target's sidecar. -/
theorem writeAll_touches_written (a : Adaptor) (title target : String) (enc : Encoded) :
    Touches (· ∈ if enc.sidecar.isSome then [target, sidecarPath target] else [target])
      (fun _ => False) a.store (a.writeAll title target enc).1.store := by
  have htarget : target ∈ if enc.sidecar.isSome then [target, sidecarPath target] else [target] := by
    split <;> simp
  have hsidecar : ∀ note, enc.sidecar = some note →
      sidecarPath target ∈ if enc.sidecar.isSome then [target, sidecarPath target] else [target] :=
    fun note hnote => by simp [hnote]
  generalize (if enc.sidecar.isSome then [target, sidecarPath target] else [target]) = written
    at htarget hsidecar ⊢
  have hprimary : Touches (· ∈ written) (fun _ => False) a.store
      (a.writeWithRetry title target enc.content).1.store :=
    (writeWithRetry_touches a title target enc.content).mono (fun p hp => hp ▸ htarget)
      (fun _ h => h)
  unfold writeAll
  split
  · rename_i a' e hw
    rw [hw] at hprimary
    exact hprimary
  · rename_i a' n hw
    rw [hw] at hprimary
    split
    · exact hprimary
    · rename_i note hnote
      have hside : Touches (· ∈ written) (fun _ => False) a'.store
          (a'.writeWithRetry title (sidecarPath target) note).1.store :=
        (writeWithRetry_touches a' title (sidecarPath target) note).mono
          (fun p hp => hp ▸ hsidecar note hnote) (fun _ h => h)
      split
      · rename_i a'' e hw'
        rw [hw'] at hside
        exact hprimary.trans hside
      · rename_i a'' u hw'
        rw [hw'] at hside
        exact hprimary.trans hside

/-- Writing a document's files writes only its target and the target's sidecar. -/
theorem writeAll_touches (a : Adaptor) (title target : String) (enc : Encoded) :
    Touches (fun p => p = target ∨ p = sidecarPath target) (fun _ => False) a.store
      (a.writeAll title target enc).1.store :=
  (writeAll_touches_written a title target enc).mono
    (fun p hp => by split at hp <;> simp_all) (fun _ h => h)

/-- Removing stale files removes only those files. -/
theorem removeStale_touches (a : Adaptor) (stale : List String) :
    Touches (fun _ => False) (· ∈ stale) a.store (a.removeStale stale).store := by
  suffices h : ∀ (l : List String) (b : Adaptor), (∀ p ∈ l, p ∈ stale) →
      Touches (fun _ => False) (· ∈ stale) b.store
        (l.foldl (fun a p =>
          let a := a.exclude [p]
          { a with store := (a.store.remove p).1 }) b).store by
    exact h stale a fun _ hp => hp
  intro l
  induction l with
  | nil => intro b _; exact .refl _
  | cons p l ih =>
    intro b hl
    have hrest := ih { b.exclude [p] with store := ((b.exclude [p]).store.remove p).1 }
      fun q hq => hl q (List.mem_cons_of_mem p hq)
    exact (touches_remove b.store (hl p List.mem_cons_self)).trans hrest

theorem touches_of_writeAll {b a' : Adaptor} {title target : String} {enc : Encoded}
    {r : Except SyncError Unit} (h : b.writeAll title target enc = (a', r)) :
    Touches (fun p => p = target ∨ p = sidecarPath target) (fun _ => False) b.store a'.store := by
  have ht := writeAll_touches b title target enc
  rw [h] at ht
  exact ht

/-- A candidate is free for a title exactly when it is the current record's own file, the index
tracks it for the same title, or no record is at it and nothing exists there. -/
theorem isTaken_eq_false (a : Adaptor) (title : String) (current : Option FileRecord)
    (candidate : String) :
    a.isTaken title current candidate = false ↔
      (∃ c, current = some c ∧ Path.same c.absolutePath candidate = true) ∨
        (∃ r, a.index.recordAt? candidate = some r ∧ r.title = title) ∨
        (a.index.recordAt? candidate = none ∧ a.store.pathExists candidate = false) := by
  unfold isTaken
  by_cases hcur : current.any (fun c => Path.same c.absolutePath candidate) = true
  · rw [if_pos hcur]
    cases current with
    | none => cases hcur
    | some c => exact ⟨fun _ => .inl ⟨c, rfl, hcur⟩, fun _ => rfl⟩
  · rw [if_neg hcur]
    have hnot : ¬ ∃ c, current = some c ∧ Path.same c.absolutePath candidate = true := by
      rintro ⟨c, rfl, hsame⟩
      exact hcur (by simpa using hsame)
    cases hr : a.index.recordAt? candidate with
    | none => simp [hnot]
    | some r => simp [hnot]

/-- A candidate taken for a title, where the index tracks nothing, is a path that exists. -/
theorem pathExists_of_isTaken {a : Adaptor} {title : String} {current : Option FileRecord}
    {p : String} (h : a.isTaken title current p = true) (hnone : a.index.recordAt? p = none) :
    a.store.pathExists p = true := by
  unfold isTaken at h
  split at h
  · cases h
  · rw [hnone] at h
    exact h

/-- Of the first `N + L + 1` candidates for a title, where `N` counts the places of the disk and
`L` the records of a sound index, one is not taken. A candidate is taken by a record for another
title, and the candidates are different paths, so at most `L` are; or it exists on the disk, and
the candidates are different names in one directory, so at most `N` do. -/
theorem exists_free_candidate (a : Adaptor) (hs : a.index.Sound) (title root ext : String)
    (current : Option FileRecord) (hext : '/' ∉ ext.toList) :
    ∃ n < a.store.disk.nodes.length + a.index.len + 1,
      a.isTaken title current (FileName.candidate root (FileName.sanitize title) ext n) = false := by
  by_contra hall
  simp only [not_exists, not_and, Bool.not_eq_false] at hall
  have hsafe := FileName.sanitize_safe title
  set cand := FileName.candidate root (FileName.sanitize title) ext
  set name : Nat → String := fun n =>
    String.ofList ((FileName.sanitize title).toList ++ FileName.suffixChars n ++ '.' :: ext.toList)
  have hjoin : ∀ n, cand n = Path.join root (name n) := FileName.candidate_eq root _ ext
  have hinj : ∀ i j, Path.components (cand i) = Path.components (cand j) → i = j := fun i j h =>
    FileName.eq_of_same_candidate hsafe (by rw [Path.same_eq, decide_eq_true_eq]; exact h)
  set K := Finset.range (a.store.disk.nodes.length + a.index.len + 1)
  have hcover : K ⊆ K.filter (fun j => (a.index.recordAt? (cand j)).isSome) ∪
      K.filter (fun j => a.store.disk.pathExists (Path.join root (name j))) := by
    intro j hj
    rw [Finset.mem_union, Finset.mem_filter, Finset.mem_filter]
    by_cases hr : (a.index.recordAt? (cand j)).isSome
    · exact .inl ⟨hj, hr⟩
    · refine .inr ⟨hj, ?_⟩
      rw [← hjoin]
      exact pathExists_of_isTaken (hall j (Finset.mem_range.mp hj)) (by simpa using hr)
  have h₁ := IndexSet.card_recorded_le hs hinj K
  have h₂ : (K.filter fun j => a.store.disk.pathExists (Path.join root (name j))).card ≤
      a.store.disk.nodes.length :=
    Disk.card_existing_le a.store.disk root (FileName.plainName_candidate hsafe hext)
      (fun i j (h : name i = name j) => hinj i j (by rw [hjoin, hjoin, h])) K
  have hK := (Finset.card_le_card hcover).trans (Finset.card_union_le _ _)
  rw [Finset.card_range] at hK
  omega

/-- The path a save writes a document's primary file to, as the router chooses it when the save
starts. -/
def saveTarget (a : Adaptor) (d : Document) : String :=
  (a.router.targetPath d (a.index.recordForTitle? d.title) (encode d).extension
    (a.isTaken d.title (a.index.recordForTitle? d.title))
    (a.store.disk.nodes.length + a.index.len + 1)).2

/-- A save writes only its target and the target's sidecar, and removes only backing files of
the title's current record. -/
theorem save_touches (a : Adaptor) (d : Document) :
    Touches (fun p => p = a.saveTarget d ∨ p = sidecarPath (a.saveTarget d))
      (fun p => ∃ c, a.index.recordForTitle? d.title = some c ∧ p ∈ c.backingFiles)
      a.store (a.save d).1.store := by
  unfold save
  dsimp only
  split
  · rename_i a' e hw
    exact (touches_of_writeAll hw).mono (fun p hp => hp) (fun _ h => h.elim)
  · rename_i a' hw
    simp only [release_store]
    refine Touches.trans ((touches_of_writeAll hw).mono (fun p hp => hp) (fun _ h => h.elim)) ?_
    split
    · rename_i old hold
      refine (removeStale_touches a' _).mono (fun _ h => h.elim) ?_
      intro p hp
      exact ⟨old, hold, (List.mem_filter.mp hp).1⟩
    · exact .refl _

/-- Removing a title's files one by one removes only those files. -/
theorem removeAll_touches (title : String) (a : Adaptor) (denied : Bool) (files : List String) :
    Touches (fun _ => False) (· ∈ files) a.store (removeAll title a denied files).1.store := by
  induction files generalizing a denied with
  | nil => exact .refl _
  | cons p rest ih =>
    have hp : Touches (fun _ => False) (· ∈ p :: rest) a.store (a.store.remove p).1 :=
      touches_remove a.store List.mem_cons_self
    have hrest : ∀ b : Adaptor, ∀ denied,
        Touches (fun _ => False) (· ∈ p :: rest) b.store (removeAll title b denied rest).1.store :=
      fun b denied => (ih b denied).mono (fun _ h => h) (fun _ h => List.mem_cons_of_mem p h)
    rcases hrm : a.store.remove p with ⟨s', r⟩
    rw [hrm] at hp
    rw [removeAll, hrm]
    dsimp only
    split
    · exact hp.trans (hrest { a with store := s' } denied)
    · split
      · exact hp.trans (hrest { a with store := s' } denied)
      · split
        · exact hp.trans (hrest ({ a with store := s' }.raise title _ 1) true)
        · exact hp

/-- A delete removes only backing files of the title's record. -/
theorem delete_touches (a : Adaptor) (t : String) :
    Touches (fun _ => False)
      (fun p => ∃ c, a.index.recordForTitle? t = some c ∧ p ∈ c.backingFiles)
      a.store (a.delete t).1.store := by
  unfold delete
  dsimp only
  split
  · exact .refl _
  · rename_i record hrecord
    have hremoved : Touches (fun _ => False)
        (fun p => ∃ c, a.index.recordForTitle? t = some c ∧ p ∈ c.backingFiles) a.store
        (removeAll t (a.exclude record.backingFiles) false record.backingFiles).1.store :=
      (removeAll_touches t (a.exclude record.backingFiles) false record.backingFiles).mono
        (fun _ h => h)
        (fun p hp => ⟨record, hrecord, hp⟩)
    split
    · rename_i a' e hr
      rw [hr] at hremoved
      exact hremoved
    · rename_i a' denied hr
      rw [hr] at hremoved
      split
      · exact hremoved
      · exact hremoved

/-- A save's target, from a sound index, is the title's current file, a file the index tracks
for the same title, or a path where no record is and nothing exists: the search for a free path
may ask about as many candidates as the disk has places and the index records, and one more, so
it never gives up. -/
theorem saveTarget_spec (a : Adaptor) (hs : a.index.Sound) (d : Document) :
    (∃ c, a.index.recordForTitle? d.title = some c ∧
        Path.same c.absolutePath (a.saveTarget d) = true) ∨
      (∃ r, a.index.recordAt? (a.saveTarget d) = some r ∧ r.title = d.title) ∨
      (a.index.recordAt? (a.saveTarget d) = none ∧ a.store.pathExists (a.saveTarget d) = false) := by
  rcases Router.targetPath_spec a.router d (a.index.recordForTitle? d.title) (encode d).extension
      (a.isTaken d.title (a.index.recordForTitle? d.title))
      (a.store.disk.nodes.length + a.index.len + 1) with ⟨c, hc, hkeep⟩ | hfree | ⟨hall, -⟩
  · refine .inl ⟨c, hc, ?_⟩
    rw [saveTarget, hkeep, Path.same_eq, decide_eq_true_iff]
  · rcases (isTaken_eq_false a _ _ _).mp hfree with hown | hsame | hnone
    · exact .inl hown
    · exact .inr (.inl hsame)
    · exact .inr (.inr hnone)
  · obtain ⟨n, hn, hfree⟩ := exists_free_candidate a hs d.title (a.router.resolve d).rootDirectory
      (encode d).extension (a.index.recordForTitle? d.title) (encode_extension_no_slash d)
    rw [hall n hn] at hfree
    cases hfree

/-- What saving and deleting do to files, from a sound index. A save writes only its target and
the target's sidecar, and removes only backing files of the title's current record; its target
is the title's current file, a file the index tracks for the same title, or a path where no
record is and nothing exists. A delete removes only backing files of the title's record. Neither
looks at the sidecar beside the target or at the other titles a backing file holds. -/
theorem persist_touches (a : Adaptor) (hs : a.index.Sound) (d : Document) (t : String) :
    Touches (fun p => p = a.saveTarget d ∨ p = sidecarPath (a.saveTarget d))
        (fun p => ∃ c, a.index.recordForTitle? d.title = some c ∧ p ∈ c.backingFiles)
        a.store (a.save d).1.store ∧
      ((∃ c, a.index.recordForTitle? d.title = some c ∧
          Path.same c.absolutePath (a.saveTarget d) = true) ∨
        (∃ r, a.index.recordAt? (a.saveTarget d) = some r ∧ r.title = d.title) ∨
        (a.index.recordAt? (a.saveTarget d) = none ∧
          a.store.pathExists (a.saveTarget d) = false)) ∧
      Touches (fun _ => False)
        (fun p => ∃ c, a.index.recordForTitle? t = some c ∧ p ∈ c.backingFiles)
        a.store (a.delete t).1.store :=
  ⟨save_touches a d, saveTarget_spec a hs d, delete_touches a t⟩

/-- An adaptor over a wiki at `/w` that tracks no file yet. -/
def emptyWiki : Adaptor :=
  { (default : Adaptor) with index := IndexSet.withRoot "/w", router := { defaultRoot := "/w" } }

/-- Saving `a` into the empty wiki writes only its target and the target's sidecar, at a path
where nothing is, and deleting `b` removes nothing. -/
theorem persist_touches_emptyWiki :
    emptyWiki.index.Sound ∧
      Touches (fun p => p = emptyWiki.saveTarget (Document.new "a") ∨
          p = sidecarPath (emptyWiki.saveTarget (Document.new "a")))
        (fun p => ∃ c, emptyWiki.index.recordForTitle? "a" = some c ∧ p ∈ c.backingFiles)
        emptyWiki.store (emptyWiki.save (Document.new "a")).1.store ∧
      ((∃ c, emptyWiki.index.recordForTitle? "a" = some c ∧
          Path.same c.absolutePath (emptyWiki.saveTarget (Document.new "a")) = true) ∨
        (∃ r, emptyWiki.index.recordAt? (emptyWiki.saveTarget (Document.new "a")) = some r ∧
          r.title = "a") ∨
        (emptyWiki.index.recordAt? (emptyWiki.saveTarget (Document.new "a")) = none ∧
          emptyWiki.store.pathExists (emptyWiki.saveTarget (Document.new "a")) = false)) ∧
      Touches (fun _ => False)
        (fun p => ∃ c, emptyWiki.index.recordForTitle? "b" = some c ∧ p ∈ c.backingFiles)
        emptyWiki.store (emptyWiki.delete "b").1.store := by
  have hs : emptyWiki.index.Sound := IndexSet.sound_empty.registerRoot "/w"
  exact ⟨hs, persist_touches emptyWiki hs (Document.new "a") "b"⟩

end Adaptor

end WikiSync
