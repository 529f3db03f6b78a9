import Mathlib
import WikiSync.Proofs.Disk.Plain

/-!
# Writing and removing files on a disk without links

A file is written by making the directories above it (`createDirAll`), writing the bytes to a
fresh name in its directory and renaming that file over the path (`replaceVia`). On a disk that
holds no link, writing text to a plain place `D ++ [n]` leaves what `Wrote` records
(`writeNow_text`): the place holds the bytes, the directories down to `D` exist, no link was
made, places no deeper than the written one keep what they held, and outside the written place
only directories are new.

The pieces are the effects of single operations, each stated place by place: setting a node
(`lookup_setNode`), making directories (`Grows`, `grows_createDirAll`), picking a name no entry
has (`freshName_not_mem`: there are more candidates than entries, all different), and moving a
file (`lookup_moved`, `moveFinal_file`).

Removing plain places one after another (`removeEach`) keeps the directories down to `D` and
what any other place `D ++ [m]` holds (`removeEach_keeps`), since a removal drops a place that
held no directory together with what lies below it; when `D ++ [m]` is among the places removed,
nothing is left there (`removeEach_erases`).
-/

namespace WikiSync

namespace Disk

variable {d d' : Disk}

/-! ### Looking places up in a list of nodes -/

theorem lookup_of_ne_nil {q : Place} (hq : q ≠ []) :
    d.lookup q = (d.nodes.find? (·.1 == q)).map (·.2) := by
  simp [lookup, hq]

/-- Mapping the nodes answers at `q` what the old nodes answer at `q'`, when the map keeps the
contents of the nodes at `q'` and sends exactly those to `q`. -/
theorem find?_map_nodes {l : List (Place × Node)} {g : Place × Node → Place × Node}
    {q q' : Place} (hiff : ∀ e ∈ l, (g e).1 = q ↔ e.1 = q')
    (hkeep : ∀ e ∈ l, e.1 = q' → (g e).2 = e.2) :
    ((l.map g).find? (·.1 == q)).map (·.2) = (l.find? (·.1 == q')).map (·.2) := by
  induction l with
  | nil => rfl
  | cons e l ih =>
    have ih' := ih (fun e he => hiff e (by simp [he])) (fun e he => hkeep e (by simp [he]))
    by_cases he : e.1 = q'
    · have hg : (g e).1 = q := (hiff e (by simp)).mpr he
      simp [hg, he, hkeep e (by simp) he]
    · have hg : ((g e).1 == q) = false := by simpa using fun h => he ((hiff e (by simp)).mp h)
      have he' : (e.1 == q') = false := by simpa using he
      simp only [List.map_cons, List.find?_cons, hg, he']
      exact ih'

/-- The nodes of a disk mapped place by place answer at `q` what the disk answers at `q'`. -/
theorem lookup_map_nodes (X : Disk) {g : Place × Node → Place × Node} {q q' : Place}
    (hq : q ≠ []) (hq' : q' ≠ []) (hiff : ∀ e ∈ X.nodes, (g e).1 = q ↔ e.1 = q')
    (hkeep : ∀ e ∈ X.nodes, e.1 = q' → (g e).2 = e.2) :
    ({ X with nodes := X.nodes.map g } : Disk).lookup q = X.lookup q' := by
  rw [lookup_of_ne_nil hq, lookup_of_ne_nil hq']
  exact find?_map_nodes hiff hkeep

/-- The nodes of a disk mapped so that none lands at `q` leave nothing there. -/
theorem lookup_map_nodes_none (X : Disk) {g : Place × Node → Place × Node} {q : Place}
    (hq : q ≠ []) (hnot : ∀ e ∈ X.nodes, (g e).1 ≠ q) :
    ({ X with nodes := X.nodes.map g } : Disk).lookup q = none := by
  rw [lookup_of_ne_nil hq, List.find?_eq_none.mpr]
  · rfl
  · intro e he
    obtain ⟨e0, he0, rfl⟩ := List.mem_map.mp he
    simpa using hnot e0 he0

/-! ### Setting one place -/

/-- After a node is set at a place, the place holds it and every other place what it held. -/
theorem lookup_setNode (d : Disk) {pl : Place} (hpl : pl ≠ []) (x : Node) (q : Place) :
    (d.setNode pl x).lookup q = if q = pl then some x else d.lookup q := by
  by_cases hq : q = []
  · subst hq
    simp [lookup, Ne.symm hpl]
  unfold setNode
  split
  · rename_i hany
    split
    · rename_i hqp
      subst hqp
      rw [lookup_of_ne_nil hq]
      obtain ⟨e, he, hepl⟩ := List.any_eq_true.mp hany
      cases hf : List.find? (·.1 == q) (d.nodes.map fun e => if e.1 == q then (q, x) else e) with
      | none =>
        have := List.find?_eq_none.mp hf _ (List.mem_map_of_mem he)
        simp_all
      | some e' =>
        obtain ⟨e0, -, rfl⟩ := List.mem_map.mp (List.mem_of_find?_eq_some hf)
        have hsome := List.find?_some hf
        by_cases h0 : e0.1 = q
        · simp [h0]
        · simp [h0] at hsome
    · rename_i hqp
      refine lookup_map_nodes d hq hq (fun e _ => ?_) (fun e _ he => ?_)
      · by_cases he : e.1 = pl
        · simp [he, Ne.symm hqp]
        · simp [he]
      · simp [he, hqp]
  · rename_i hany
    rw [lookup_of_ne_nil hq, lookup_of_ne_nil hq, List.find?_append]
    split
    · rename_i hqp
      subst hqp
      rw [List.find?_eq_none.mpr]
      · simp
      · intro e he heq
        simp only [beq_iff_eq] at heq
        simp only [Bool.not_eq_true, List.any_eq_false, beq_iff_eq] at hany
        exact hany e he heq
    · rename_i hqp
      simp [Ne.symm hqp]

/-! ### Making directories -/

/-- A disk grows into another when every place keeps what it holds and every place newly filled
is a directory. -/
structure Grows (d d' : Disk) : Prop where
  /-- Every place filled is filled alike after. -/
  keeps : ∀ {q x}, d.lookup q = some x → d'.lookup q = some x
  /-- What is new is a directory. -/
  adds : ∀ {q x}, d'.lookup q = some x → d.lookup q = some x ∨ x = .dir

theorem Grows.refl (d : Disk) : d.Grows d := ⟨id, Or.inl⟩

theorem Grows.trans {d₁ d₂ d₃ : Disk} (h₁ : d₁.Grows d₂) (h₂ : d₂.Grows d₃) : d₁.Grows d₃ where
  keeps h := h₂.keeps (h₁.keeps h)
  adds h := (h₂.adds h).elim h₁.adds Or.inr

theorem Grows.noLinks (hg : d.Grows d') (hnl : d.NoLinks) : d'.NoLinks := by
  intro pl t h
  rcases hg.adds h with h | h
  · exact hnl pl t h
  · cases h

theorem grows_setNode_dir {pl : Place} (hpl : pl ≠ []) (hnone : d.lookup pl = none) :
    d.Grows (d.setNode pl .dir) where
  keeps {q x} h := by
    rw [lookup_setNode d hpl]
    split
    · rename_i hq
      subst hq
      simp [hnone] at h
    · exact h
  adds {q x} h := by
    rw [lookup_setNode d hpl] at h
    split at h
    · exact Or.inr (Option.some.inj h).symm
    · exact Or.inl h

/-- Making one directory fills a place that held nothing with a directory. -/
theorem grows_createDir {p : String} (h : d.createDir p = .ok d') : d.Grows d' := by
  unfold createDir at h
  split at h
  · cases h
  · split at h
    · cases h
    · rename_i hnone
      cases h
      exact grows_setNode_dir (by simp) (by simpa using hnone)
  · cases h

/-- Making directories up a path, however far it gets, only adds directories. -/
theorem grows_makeDirsUp (d : Disk) (fuel : Nat) (p : String) : d.Grows (d.makeDirsUp fuel p).1 := by
  induction fuel generalizing d p with
  | zero => exact Grows.refl d
  | succ fuel ih =>
    unfold makeDirsUp
    split
    · exact Grows.refl d
    split
    · exact grows_createDir (by assumption)
    split
    · split
      · exact Grows.refl d
      · rename_i q _
        have hq := ih d q
        split <;> rename_i hrun <;> rw [hrun] at hq
        · exact hq
        · split
          · exact hq.trans (grows_createDir (by assumption))
          · split <;> exact hq
    · split <;> exact Grows.refl d

theorem grows_createDirAll {p : String} (h : d.createDirAll p = .ok d') : d.Grows d' := by
  unfold createDirAll makeDirs at h
  split at h
  · rename_i hrun
    cases h
    have hg := grows_makeDirsUp d (p.length + 2) p
    rw [hrun] at hg
    exact hg
  · cases h

/-! ### A fresh name -/

/-- A name at some place below a directory is one of the directory's entries. -/
theorem mem_entries_of_lookup {pl : Place} {m : String} {x : Node}
    (h : d.lookup (pl ++ [m]) = some x) : m ∈ (d.entries pl).map (·.1) := by
  rw [lookup_of_ne_nil (by simp)] at h
  obtain ⟨⟨q, n⟩, hfind, -⟩ := Option.map_eq_some_iff.mp h
  have he := List.mem_of_find?_eq_some hfind
  have hq : q = pl ++ [m] := by simpa using List.find?_some hfind
  subst hq
  unfold entries
  simp only [List.mem_map, List.mem_mergeSort, List.mem_filterMap]
  exact ⟨(m, n), ⟨(pl ++ [m], n), he, by simp⟩, rfl⟩

/-- The fresh name is none of the directory's entries: among one more candidate than there are
entries, all different, one is free. -/
theorem freshName_not_mem (d : Disk) (pl : Place) :
    d.freshName pl ∉ (d.entries pl).map (·.1) := by
  unfold freshName
  dsimp only
  generalize (d.entries pl).map (·.1) = taken
  cases hf : ((List.range (taken.length + 1)).map fun i => ".tidsync-" ++ toString i).find?
      (fun c => !taken.contains c) with
  | some c => simpa using List.find?_some hf
  | none =>
    exfalso
    have hsub : ((List.range (taken.length + 1)).map fun i => ".tidsync-" ++ toString i) ⊆ taken :=
      fun c hc => by simpa using List.find?_eq_none.mp hf c hc
    have hnd : ((List.range (taken.length + 1)).map fun i => ".tidsync-" ++ toString i).Nodup :=
      List.nodup_range.map fun i j h => Nat.repr_inj.mp ((String.append_right_inj _).mp h)
    have hle := hnd.length_le_of_subset hsub
    simp at hle

theorem lookup_freshName (d : Disk) (pl : Place) : d.lookup (pl ++ [d.freshName pl]) = none := by
  cases h : d.lookup (pl ++ [d.freshName pl]) with
  | none => rfl
  | some x => exact absurd (mem_entries_of_lookup h) (freshName_not_mem d pl)

/-! ### Moving a file -/

@[simp] theorem within_iff {q base : Place} : Place.within q base = true ↔ base <+: q := by
  simp [Place.within]

/-- Moving the tree at `old` to `new`, on a disk with nothing within `new`: places within `new`
hold what the matching places within `old` held, places within `old` hold nothing, and the
others are as they were. -/
theorem lookup_moved (X : Disk) {old new : Place} (hold : old ≠ []) (hnew : new ≠ [])
    {g : Place × Node → Place × Node}
    (hg : ∀ e, g e = if Place.within e.1 old then (new ++ e.1.drop old.length, e.2) else e)
    (hclear : ∀ e ∈ X.nodes, ¬ new <+: e.1) (q : Place) :
    ({ X with nodes := X.nodes.map g } : Disk).lookup q =
      if new <+: q then X.lookup (old ++ q.drop new.length)
      else if old <+: q then none else X.lookup q := by
  have hsnd : ∀ e, (g e).2 = e.2 := fun e => by rw [hg]; split <;> rfl
  split
  · rename_i hq
    obtain ⟨r, rfl⟩ := hq
    refine lookup_map_nodes X (by simp [hnew]) (by simp [hold]) (fun e he => ?_)
      (fun e _ _ => hsnd e)
    rw [hg]
    split
    · rename_i hin
      obtain ⟨r', hr'⟩ := within_iff.mp hin
      rw [← hr']
      simp
    · rename_i hout
      have := hclear e he
      constructor
      · intro h
        rw [h] at this
        exact absurd (List.prefix_append new r) this
      · rintro h
        exact absurd (h ▸ List.prefix_append old _) (by simpa using hout)
  split
  · rename_i hnq hoq
    by_cases hq : q = []
    · subst hq
      simp [List.prefix_nil, hold] at hoq
    refine lookup_map_nodes_none X hq fun e _ => ?_
    rw [hg]
    split
    · rintro rfl
      exact hnq (List.prefix_append new _)
    · rename_i hout
      rintro rfl
      exact hout (within_iff.mpr hoq)
  · rename_i hnq hoq
    by_cases hq : q = []
    · subst hq
      simp [lookup]
    refine lookup_map_nodes X hq hq (fun e he => ?_) (fun e _ _ => hsnd e)
    rw [hg]
    split
    · rename_i hin
      constructor
      · rintro rfl
        exact absurd (List.prefix_append new _) hnq
      · rintro rfl
        exact absurd (within_iff.mp hin) hoq
    · exact Iff.rfl

/-- Moving a file from `odir ++ [on]` to `ndir ++ [nn]` leaves it at the new place; outside the
new place, the old place and what lay below it hold nothing and the rest is as it was. -/
theorem moveFinal_file {X Y : Disk} {odir ndir : Place} {on nn : String} {bs : List UInt8}
    {t : Nat} (hfile : X.lookup (odir ++ [on]) = some (.file bs t))
    (h : X.moveFinal (.entry odir on false) (.entry ndir nn false) = .ok Y) :
    Y.lookup (ndir ++ [nn]) = some (.file bs t) ∧
      (∀ q, ¬ (ndir ++ [nn]) <+: q →
        Y.lookup q = if (odir ++ [on]) <+: q then none else X.lookup q) ∧
      ∀ q x, Y.lookup q = some x → ∃ q', X.lookup q' = some x := by
  unfold moveFinal at h
  dsimp only at h
  rw [hfile] at h
  simp only [Bool.or_false, Bool.and_false, Bool.false_eq_true, if_false] at h
  split at h
  · cases h
  split at h
  · cases h
  rename_i _ hodir
  split at h
  · rename_i heq
    cases h
    have heq : odir ++ [on] = ndir ++ [nn] := by simpa using heq
    refine ⟨heq ▸ hfile, fun q hq => ?_, fun q x hx => ⟨q, hx⟩⟩
    rw [if_neg (heq ▸ hq)]
  rename_i hne
  have hne : odir ++ [on] ≠ ndir ++ [nn] := by simpa using hne
  -- only a file moving onto a place that is no directory gets through
  split at h
  · cases ‹Node.file bs t = Node.dir›
  · cases h
  · cases ‹Node.file bs t = Node.dir›
  · cases h
  obtain ⟨g, hg, rfl⟩ : ∃ g : Place × Node → Place × Node,
      (∀ e, g e = if Place.within e.1 (odir ++ [on]) = true then
        (ndir ++ [nn] ++ e.1.drop (odir ++ [on]).length, e.2) else e) ∧
      ({ X.eraseTree (ndir ++ [nn]) with nodes := (X.eraseTree (ndir ++ [nn])).nodes.map g } :
        Disk) = Y :=
    ⟨_, fun e => by obtain ⟨q, n⟩ := e; rfl, Except.ok.inj h⟩
  have hold : odir ++ [on] ≠ [] := by simp
  have hnew : ndir ++ [nn] ≠ [] := by simp
  have hclear : ∀ e ∈ (X.eraseTree (ndir ++ [nn])).nodes, ¬ (ndir ++ [nn]) <+: e.1 := by
    intro e he hp
    have hkept := (List.mem_filter.mp he).2
    simp [within_iff.mpr hp] at hkept
  have hmoved := lookup_moved _ hold hnew hg hclear
  refine ⟨?_, fun q hq => ?_, fun q x hx => ?_⟩
  · rw [hmoved, if_pos (List.prefix_refl _), List.drop_length, List.append_nil, lookup_eraseTree,
      if_neg]
    · exact hfile
    · have : ¬ (ndir ++ [nn]) <+: odir ++ [on] := by
        rw [List.prefix_concat_iff]
        rintro (h | h)
        · exact hne h.symm
        · exact hodir (within_iff.mpr h)
      simpa using this
  · have hout : ¬ (!q.isEmpty && Place.within q (ndir ++ [nn])) = true := by simp [hq]
    rw [hmoved, if_neg hq, lookup_eraseTree, if_neg hout]
  · rw [hmoved] at hx
    split at hx
    · exact ⟨_, (eraseTree_sub X _).lookup hx⟩
    · split at hx
      · cases hx
      · exact ⟨q, (eraseTree_sub X _).lookup hx⟩

/-! ### Writing a file through a fresh name -/

/-- An answer whose failure was relabelled succeeds only when the answer did. -/
theorem mapError_eq_ok {ε ε' α : Type} {f : ε → ε'} {x : Except ε α} {a : α}
    (h : x.mapError f = .ok a) : x = .ok a := by
  cases x with
  | error e => cases h
  | ok b =>
    cases h
    rfl

variable {D : Place} {n : String}

/-- Writing bytes to the plain place `D ++ [n]` through a fresh file in `D`: the directories down
to `D` existed and the path fits; the place holds the bytes, stamped with the disk's clock;
outside it, the fresh place and what lay below it hold nothing and the rest is as it was; and
whatever the disk holds, it held before, or it is the file written. -/
theorem replaceVia_text (hnl : d.NoLinks) (h : (D ++ [n]).Plain) {bs : List UInt8}
    (hw : d.replaceVia D.text (D ++ [n]).text bs = .ok d') :
    d.DirsTo D ∧ (D ++ [n]).Fits ∧ d'.lookup (D ++ [n]) = some (.file bs d.clock) ∧
      (∀ q, ¬ (D ++ [n]) <+: q →
        d'.lookup q = if (D ++ [d.freshName D]) <+: q then none else d.lookup q) ∧
      ∀ q x, d'.lookup q = some x → x = .file bs d.clock ∨ ∃ q', d.lookup q' = some x := by
  unfold replaceVia at hw
  obtain ⟨⟨pl, node⟩, hstat, hrest⟩ := exceptBind_eq_ok hw
  dsimp only at hrest
  split at hrest
  · cases hrest
  rename_i hnode
  obtain rfl : node = .dir := by
    cases node with
    | dir => rfl
    | file bs' t => exact absurd rfl hnode
    | link t => exact absurd rfl hnode
  obtain ⟨hpl, hdirs⟩ := stat_dirText_eq_ok hnl h.init.1 hstat
  subst pl
  obtain ⟨⟨target, links⟩, hloc, hmove⟩ := exceptBind_eq_ok hrest
  have hstaged : ∀ q, ({ d.setNode (D ++ [d.freshName D]) (.file bs d.clock) with
      clock := d.clock + 1 } : Disk).lookup q =
      if q = D ++ [d.freshName D] then some (.file bs d.clock) else d.lookup q :=
    lookup_setNode d (by simp) _
  have hnl' : ({ d.setNode (D ++ [d.freshName D]) (.file bs d.clock) with
      clock := d.clock + 1 } : Disk).NoLinks := by
    intro q t hq
    rw [hstaged] at hq
    split at hq
    · cases hq
    · exact hnl q t hq
  obtain ⟨hr, hfit, -⟩ := locate_text_eq_ok hnl' h (mapError_eq_ok hloc)
  cases hr
  obtain ⟨hnew, hframe, hsrc⟩ := moveFinal_file (by rw [hstaged, if_pos rfl]) hmove
  refine ⟨hdirs, hfit, hnew, fun q hq => ?_, fun q x hx => ?_⟩
  · rw [hframe q hq, hstaged]
    split
    · rfl
    · rename_i hfresh
      have hne : q ≠ D ++ [d.freshName D] := fun heq => hfresh (heq ▸ List.prefix_refl _)
      rw [if_neg hne]
  · obtain ⟨q', hq'⟩ := hsrc q x hx
    rw [hstaged] at hq'
    split at hq'
    · exact .inl (Option.some.inj hq').symm
    · exact .inr ⟨q', hq'⟩

/-- What writing the bytes `bs` to the plain place `D ++ [n]` of `d` left in `d'`. -/
structure Wrote (d d' : Disk) (D : Place) (n : String) (bs : List UInt8) : Prop where
  /-- No link was made. -/
  noLinks : d'.NoLinks
  /-- The directories down to `D` exist. -/
  dirs : d'.DirsTo D
  /-- The path of the place fits. -/
  fits : (D ++ [n]).Fits
  /-- The place holds the bytes. -/
  file : ∃ t, d'.lookup (D ++ [n]) = some (.file bs t)
  /-- A place no deeper than the written one, and not below it, keeps what it held. -/
  keeps : ∀ q x, q.length ≤ D.length + 1 → ¬ (D ++ [n]) <+: q → d.lookup q = some x →
    d'.lookup q = some x
  /-- Outside the written place, what is new is a directory. -/
  adds : ∀ q x, ¬ (D ++ [n]) <+: q → d'.lookup q = some x → x = .dir ∨ d.lookup q = some x

/-- A place shorter than a prefix does not start with it. -/
theorem not_prefix_of_length_lt {q pl : Place} (h : q.length < pl.length) : ¬ pl <+: q :=
  fun hp => absurd hp.length_le (Nat.not_le.mpr h)

/-- Writing text to a plain place of a disk without links: the missing directories are made,
then the file is written through a fresh name, as `Wrote` says. -/
theorem writeNow_text (hnl : d.NoLinks) (h : (D ++ [n]).Plain) {s : String}
    (hw : FileStore.writeNow d (D ++ [n]).text s = .ok d') : Wrote d d' D n (Utf8.encode s) := by
  unfold FileStore.writeNow at hw
  rw [Place.parent?_text h] at hw
  dsimp only at hw
  obtain ⟨d₁, hcreate, hrep⟩ := exceptBind_eq_ok hw
  have hg := grows_createDirAll hcreate
  obtain ⟨hdirs₁, hfit, hfile, hframe, hsrc⟩ := replaceVia_text (hg.noLinks hnl) h hrep
  have hfresh : ∀ q x, q.length ≤ D.length + 1 → d₁.lookup q = some x →
      ¬ (D ++ [d₁.freshName D]) <+: q := by
    intro q x hlen hx hpre
    have hge := hpre.length_le
    have heq : D ++ [d₁.freshName D] = q := hpre.eq_of_length (by simp at hlen hge ⊢; omega)
    rw [← heq, lookup_freshName] at hx
    cases hx
  refine ⟨fun q t hq => ?_, fun k hk => ?_, hfit, ⟨_, hfile⟩, fun q x hlen hq hx => ?_,
    fun q x hq hx => ?_⟩
  · rcases hsrc q _ hq with hq' | ⟨q', hq'⟩
    · cases hq'
    · exact hg.noLinks hnl q' t hq'
  · have hlen : (D.take k).length < (D ++ [n]).length := by simp
    rw [hframe _ (not_prefix_of_length_lt hlen),
      if_neg (hfresh _ _ (by simp) (hdirs₁ k hk))]
    exact hdirs₁ k hk
  · rw [hframe q hq, if_neg (hfresh q x hlen (hg.keeps hx))]
    exact hg.keeps hx
  · rw [hframe q hq] at hx
    split at hx
    · cases hx
    · rcases hg.adds hx with hx | hx
      · exact .inr hx
      · exact .inl hx

/-! ### Removing a file -/

/-- Removing the plain place `D ++ [n]` of a disk without links drops that place, which held
something other than a directory, with everything below it. -/
theorem removeFile_text (hnl : d.NoLinks) (h : (D ++ [n]).Plain)
    (hr : d.removeFile (D ++ [n]).text = .ok d') :
    d' = d.eraseTree (D ++ [n]) ∧ ∃ x, d.lookup (D ++ [n]) = some x ∧ x ≠ .dir := by
  unfold removeFile at hr
  split at hr
  · cases hr
  · rename_i dir n' dirOnly links hloc
    obtain ⟨hent, -, -⟩ := locate_text_eq_ok hnl h hloc
    cases hent
    split at hr
    · cases hr
    · cases hr
    · rename_i x hdir hx
      cases hr
      exact ⟨rfl, x, hx, fun h => hdir h⟩
  · cases hr

/-- A file or link at a plain place of a disk without links, reached through directories that
exist by a path that fits, is removed. -/
theorem removeFile_text_of_lookup (h : (D ++ [n]).Plain) (hfit : (D ++ [n]).Fits)
    (hdirs : d.DirsTo D) {x : Node} (hx : d.lookup (D ++ [n]) = some x) (hdir : x ≠ .dir) :
    d.removeFile (D ++ [n]).text = .ok (d.eraseTree (D ++ [n])) := by
  unfold removeFile
  rw [locate_text h hfit hdirs]
  dsimp only
  rw [hx]
  cases x with
  | dir => exact absurd rfl hdir
  | file bs t => rfl
  | link t => rfl

/-! ### Removing files one after another -/

/-- Remove a path, keeping the disk as it was when the removal fails. -/
def removeStep (d : Disk) (p : String) : Disk :=
  match d.removeFile p with
  | .ok d' => d'
  | .error _ => d

/-- Remove each path in turn, going on past a removal that fails. -/
def removeEach (d : Disk) (ps : List String) : Disk :=
  ps.foldl removeStep d

@[simp] theorem removeEach_cons (d : Disk) (p : String) (ps : List String) :
    d.removeEach (p :: ps) = (d.removeStep p).removeEach ps :=
  rfl

/-- A place above `D` is one of the directories down to `D`. -/
theorem DirsTo.of_prefix (hdirs : d.DirsTo D) {P : Place} (hP : P <+: D) :
    d.lookup P = some .dir := by
  rw [List.prefix_iff_eq_take.mp hP]
  exact hdirs _ hP.length_le

/-- Removing a plain place either fails and changes nothing, or drops a place that held no
directory. -/
theorem removeStep_text (hnl : d.NoLinks) {P : Place} (hP : P.Plain) :
    d.removeStep P.text = d ∨
      (d.removeStep P.text = d.eraseTree P ∧ ∃ x, d.lookup P = some x ∧ x ≠ .dir) := by
  obtain ⟨E, m, rfl⟩ : ∃ E m, P = E ++ [m] := ⟨P.dropLast, P.getLast hP.ne_nil,
    (List.dropLast_append_getLast hP.ne_nil).symm⟩
  unfold removeStep
  cases hr : d.removeFile (Place.text (E ++ [m])) with
  | error e => exact .inl rfl
  | ok d' =>
    obtain ⟨rfl, hx⟩ := removeFile_text hnl hP hr
    exact .inr ⟨rfl, hx⟩

/-- A removal only drops places. -/
theorem removeStep_sub (d : Disk) (p : String) : (d.removeStep p).Sub d := by
  unfold removeStep
  cases hr : d.removeFile p with
  | error e => exact Sub.refl d
  | ok d' =>
    obtain ⟨dir, n, links, -, rfl⟩ := removeFile_eq_ok hr
    exact eraseTree_sub d _

theorem removeEach_sub (d : Disk) (ps : List String) : (d.removeEach ps).Sub d := by
  induction ps generalizing d with
  | nil => exact Sub.refl d
  | cons p ps ih => exact (ih (d.removeStep p)).trans (removeStep_sub d p)

theorem Sub.noLinks (hsub : d'.Sub d) (hnl : d.NoLinks) : d'.NoLinks :=
  fun pl t h => hnl pl t (hsub.lookup h)

/-- Removing a plain place keeps every place it does not lie above, and every place it lies
above when it is a directory, since a directory is not removed. -/
theorem removeStep_lookup (hnl : d.NoLinks) {P : Place} (hP : P.Plain) {q : Place}
    (hq : P <+: q → d.lookup P = some .dir) : (d.removeStep P.text).lookup q = d.lookup q := by
  rcases removeStep_text hnl hP with h | ⟨h, x, hx, hdir⟩
  · rw [h]
  · rw [h, lookup_eraseTree, if_neg]
    intro hin
    simp only [Bool.and_eq_true, Bool.not_eq_true', List.isEmpty_eq_false_iff, within_iff] at hin
    rw [hq hin.2] at hx
    exact hdir (Option.some.inj hx).symm

/-- Removing a plain place keeps the directories down to `D`. -/
theorem removeStep_dirsTo (hnl : d.NoLinks) (hdirs : d.DirsTo D) {P : Place} (hP : P.Plain) :
    (d.removeStep P.text).DirsTo D := fun k hk => by
  rw [removeStep_lookup hnl hP fun h => hdirs.of_prefix (h.trans (List.take_prefix k D))]
  exact hdirs k hk

/-- Removing a plain place other than `D ++ [m]`, with the directories down to `D` there, keeps
what `D ++ [m]` holds. -/
theorem removeStep_concat (hnl : d.NoLinks) (hdirs : d.DirsTo D) {P : Place} (hP : P.Plain)
    {m : String} (hne : P ≠ D ++ [m]) :
    (d.removeStep P.text).lookup (D ++ [m]) = d.lookup (D ++ [m]) :=
  removeStep_lookup hnl hP fun h => hdirs.of_prefix ((List.prefix_concat_iff.mp h).resolve_left hne)

/-- Removing plain places other than `D ++ [m]` one after another keeps the directories down to
`D` and what `D ++ [m]` holds, and makes no link. -/
theorem removeEach_keeps {m : String} (ps : List String)
    (hps : ∀ p ∈ ps, ∃ P : Place, P.Plain ∧ P ≠ D ++ [m] ∧ p = P.text) (hnl : d.NoLinks)
    (hdirs : d.DirsTo D) :
    (d.removeEach ps).NoLinks ∧ (d.removeEach ps).DirsTo D ∧
      (d.removeEach ps).lookup (D ++ [m]) = d.lookup (D ++ [m]) := by
  induction ps generalizing d with
  | nil => exact ⟨hnl, hdirs, rfl⟩
  | cons p ps ih =>
    obtain ⟨P, hP, hne, rfl⟩ := hps p List.mem_cons_self
    obtain ⟨hnl', hdirs', hm⟩ := ih (fun p hp => hps p (List.mem_cons_of_mem _ hp))
      ((removeStep_sub d _).noLinks hnl) (removeStep_dirsTo hnl hdirs hP)
    exact ⟨hnl', hdirs', hm.trans (removeStep_concat hnl hdirs hP hne)⟩

/-- Removing plain places one after another, among them `D ++ [m]`, which holds no directory and
is reached by a path that fits, leaves nothing there. -/
theorem removeEach_erases {m : String} (ps : List String)
    (hps : ∀ p ∈ ps, ∃ P : Place, P.Plain ∧ p = P.text) (hmem : (D ++ [m]).text ∈ ps)
    (hS : (D ++ [m]).Plain) (hfit : (D ++ [m]).Fits) (hnl : d.NoLinks) (hdirs : d.DirsTo D)
    (hx : ∀ x, d.lookup (D ++ [m]) = some x → x ≠ .dir) :
    (d.removeEach ps).lookup (D ++ [m]) = none := by
  induction ps generalizing d with
  | nil => cases hmem
  | cons p ps ih =>
    obtain ⟨P, hP, rfl⟩ := hps p List.mem_cons_self
    by_cases hPS : P = D ++ [m]
    · subst hPS
      have hgone : (d.removeStep (D ++ [m]).text).lookup (D ++ [m]) = none := by
        cases hlook : d.lookup (D ++ [m]) with
        | none =>
          cases hstep : (d.removeStep (D ++ [m]).text).lookup (D ++ [m]) with
          | none => rfl
          | some y => rw [(removeStep_sub d _).lookup hstep] at hlook; cases hlook
        | some y =>
          unfold removeStep
          rw [removeFile_text_of_lookup hS hfit hdirs hlook (hx y hlook)]
          exact lookup_eraseTree_self d (by simp)
      rw [removeEach_cons]
      cases hend : ((d.removeStep (D ++ [m]).text).removeEach ps).lookup (D ++ [m]) with
      | none => rfl
      | some y => rw [(removeEach_sub _ ps).lookup hend] at hgone; cases hgone
    · have hmem' : (D ++ [m]).text ∈ ps := by
        rcases List.mem_cons.mp hmem with h | h
        · exact absurd ((Place.same_text hS hP).mp (by rw [h]; simp [Path.same])) (Ne.symm hPS)
        · exact h
      refine ih (fun p hp => hps p (List.mem_cons_of_mem _ hp)) hmem'
        ((removeStep_sub d _).noLinks hnl) (removeStep_dirsTo hnl hdirs hP) fun y hy => ?_
      rw [removeStep_concat hnl hdirs hP hPS] at hy
      exact hx y hy

/-! ### Disks that are trees -/

/-- Every place a disk fills lies in a directory: the disk is a tree. -/
def Rooted (d : Disk) : Prop := ∀ pl x, d.lookup pl = some x → d.lookup pl.dropLast = some .dir

/-- On a tree, the directories down to a place that holds something exist. -/
theorem Rooted.dirsTo (hr : d.Rooted) {D : Place} {m : String} {x : Node}
    (hx : d.lookup (D ++ [m]) = some x) : d.DirsTo D := by
  induction D using List.reverseRecOn generalizing m x with
  | nil =>
    intro k hk
    rw [Nat.le_zero.mp hk]
    rfl
  | append_singleton E e ih =>
    have hdir : d.lookup (E ++ [e]) = some .dir := by simpa using hr _ _ hx
    intro k hk
    by_cases hkE : k ≤ E.length
    · rw [List.take_append_of_le_length hkE]
      exact ih hdir k hkE
    · rw [List.take_of_length_le (by simp at hk ⊢; omega)]
      exact hdir

end Disk

end WikiSync
