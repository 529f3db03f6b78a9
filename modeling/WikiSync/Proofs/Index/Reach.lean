import WikiSync.Proofs.Index.Roots

/-!
# Finding a record at its path

A record is tracked in the index of the root that owned its path when it was inserted, while a
lookup by path asks the root that owns the path at the time of the lookup. Registering a root
below the record's root and above its path hands the path to the new root without moving the
record, whose index is then never asked about it: the record is no longer found at its path, the
title at the path is not found, and removing the path leaves the record tracked.

In a sound set this is the only way a record is lost to lookups by path: a tracked record is
found at its path exactly when no registered root with more components than its own root begins
the path (`Sound.recordAt?_iff`). A record found at its path gives its title as the title there,
and removing the path hands the record back and leaves its title tracked nowhere
(`titleAt_of_recordAt?`, `removePath_snd`, `Sound.recordForTitle?_removePath`).

The second part follows a path through each update of a sound set. A path is looked up in the
index of the root it splits at (`Sound.lookup_of_split`), so replacing one root's index changes
only the paths under that root (`Sound.lookup_update`). Removing a path leaves nothing there;
setting bundled titles changes only the bundled titles of that path; and inserting a record
takes its title, with the bundled titles, away from any other path that held it and leaves
every other path as it was (`Sound.lookup_removePath_self`, `Sound.lookup_setBundled`,
`Sound.lookup_insert_of_ne`). A record inserted and given bundled titles is then found at its
path and by its title, with those titles bundled (`Sound.insert_setBundled`).
-/

namespace WikiSync

/-- In a list whose keys name different paths, the value of a member is found at its key. -/
theorem lookupKey_of_mem {α : Type} {l : List (String × α)}
    (hn : (l.map (Path.components ·.1)).Nodup) {e : String × α} (he : e ∈ l) :
    lookupKey l (Path.components e.1) = some e.2 := by
  induction l with
  | nil => cases he
  | cons a l ih =>
    rw [List.map_cons, List.nodup_cons] at hn
    rw [lookupKey_cons]
    rcases List.mem_cons.mp he with rfl | he
    · simp
    · have hne : Path.components a.1 ≠ Path.components e.1 := by
        intro hsame
        apply hn.1
        rw [hsame]
        exact List.mem_map_of_mem he
      rw [if_neg hne]
      exact ih hn.2 he

/-- Searches of one list by two functions that agree on its members give the same answer. -/
theorem findSome?_congr_of_mem {α β : Type} {l : List α} {f g : α → Option β}
    (h : ∀ a ∈ l, f a = g a) : l.findSome? f = l.findSome? g := by
  induction l with
  | nil => rfl
  | cons a l ih =>
    rw [List.findSome?_cons, List.findSome?_cons, h a List.mem_cons_self,
      ih fun b hb => h b (List.mem_cons_of_mem a hb)]

/-- An answer that gives a value as an option is that value. Lookups on fixed inputs are
computed as options, whose equality is decided without an order on the errors. -/
theorem Except.eq_ok_of_toOption {ε α : Type} {e : Except ε α} {v : α}
    (h : e.toOption = some v) : e = .ok v := by
  cases e with
  | error _ => cases h
  | ok u => cases h; rfl

namespace FileIndex

/-- A consistent index finds each of its records at every spelling of the record's key. -/
theorem Consistent.get?_of_mem {ix : FileIndex} (hc : ix.Consistent) {e : String × FileRecord}
    (he : e ∈ ix.entries) {q : String} (hq : Path.components q = Path.components e.1) :
    ix.get? q = some e.2 := by
  rw [hc.refines.get, hq]
  exact lookupKey_of_mem hc.keys_nodup he

/-- A consistent index tracks the title of every record it finds. -/
theorem Consistent.tracks_of_get? {ix : FileIndex} (hc : ix.Consistent) {q : String}
    {r : FileRecord} (hr : ix.get? q = some r) : (ix.pathForTitle? r.title).isSome := by
  rw [hc.refines.get] at hr
  have hpath := (hc.pathForTitle_iff r.title (Path.components q)).mpr
    (by simp [IndexModel.titleAt, hr])
  cases hq : ix.pathForTitle? r.title with
  | none =>
    rw [hq] at hpath
    cases hpath
  | some q' => rfl

end FileIndex

namespace IndexSet

/-- In a sound set, the index of a root is the index over the root of the same path. -/
theorem Sound.index?_of_mem {s : IndexSet} (h : s.Sound) {ix : FileIndex} (hix : ix ∈ s.indexes)
    {q : String} (hq : Path.components q = Path.components ix.root) : s.index? q = some ix := by
  have hfound : (s.index? q).isSome := by
    unfold index?
    rw [List.find?_isSome]
    exact ⟨ix, hix, by simp [Path.same_eq, hq]⟩
  obtain ⟨a, ha⟩ := Option.isSome_iff_exists.mp hfound
  obtain ⟨hmem, hroot⟩ := index?_eq_some ha
  rw [ha, h.eq_of_root hmem hix (hroot.trans hq)]

/-- The title at a path is the title of the record found there. -/
theorem titleAt_of_recordAt? {s : IndexSet} {p : String} {r : FileRecord}
    (h : s.recordAt? p = some r) : s.titleAt p = .ok r.title := by
  unfold recordAt? at h
  unfold titleAt
  split at h
  · rename_i root rel hsplit
    cases hix : s.index? root with
    | none =>
      rw [hix] at h
      cases h
    | some ix =>
      rw [hix, Option.bind_some] at h
      simp [FileIndex.titleByPath, h]
  · cases h

/-- Removing a path hands back the record found there. -/
theorem removePath_snd (s : IndexSet) (p : String) : (s.removePath p).2 = s.recordAt? p := by
  unfold removePath recordAt?
  split
  · rename_i root rel hsplit
    cases hix : s.index? root with
    | none => rfl
    | some ix =>
      simp only [Option.bind_some]
      rw [FileIndex.delete_snd]
      rfl
  · rfl

/-- In a sound set, removing the path of a record found there leaves its title tracked nowhere:
its own index drops the title with the path, and no other index tracks it. -/
theorem Sound.recordForTitle?_removePath {s : IndexSet} (h : s.Sound) {p : String}
    {r : FileRecord} (hr : s.recordAt? p = some r) :
    (s.removePath p).1.recordForTitle? r.title = none := by
  unfold IndexSet.recordAt? at hr
  unfold IndexSet.removePath
  split at hr
  · rename_i root rel hsplit
    cases hix : s.index? root with
    | none =>
      rw [hix] at hr
      cases hr
    | some ix =>
      rw [hix, Option.bind_some] at hr
      obtain ⟨hmem, -⟩ := index?_eq_some hix
      have hc := h.consistent ix hmem
      have htracks := hc.tracks_of_get? hr
      dsimp only
      unfold recordForTitle?
      rw [List.findSome?_eq_none_iff]
      intro a ha
      obtain ⟨o, ho, ⟨-, rfl⟩ | ⟨hne, rfl⟩⟩ := mem_update ha
      · have hgone : (ix.delete rel).1.pathForTitle? r.title = none := by
          rw [FileIndex.pathForTitle?_delete, if_pos]
          rw [hc.refines.get] at hr
          simp [IndexModel.titleAt, hr]
        simp [hgone]
      · cases hq : a.pathForTitle? r.title with
        | none => rfl
        | some q =>
          have hsame := h.titles_apart a ho ix hmem r.title (by simp [hq]) htracks
          exact absurd (by rw [hsame, FileIndex.delete_root]) hne
  · cases hr

/-- In a sound set, a tracked record is found at its path exactly when no registered root with
more components than its own root begins the path. -/
theorem Sound.recordAt?_iff {s : IndexSet} (h : s.Sound) {ix : FileIndex} (hix : ix ∈ s.indexes)
    {e : String × FileRecord} (he : e ∈ ix.entries) :
    s.recordAt? e.2.absolutePath = some e.2 ↔
      ∀ root ∈ s.roots, Path.startsWith e.2.absolutePath root = true →
        (Path.components root).length ≤ (Path.components ix.root).length := by
  have hplaced := h.placed ix hix e he
  have hc := h.consistent ix hix
  constructor
  · intro hat root hroot hbegins
    unfold recordAt? at hat
    rcases split_cases s e.2.absolutePath with ⟨owner, rel, ho, hsplit⟩ | ⟨-, herr⟩
    · rw [hsplit] at hat
      dsimp only at hat
      cases hfound : s.index? owner with
      | none =>
        rw [hfound] at hat
        cases hat
      | some ix' =>
        rw [hfound, Option.bind_some] at hat
        obtain ⟨hmem', hroot'⟩ := index?_eq_some hfound
        have hsame : ix' = ix := h.eq_of_tracks hmem' hix
          ((h.consistent ix' hmem').tracks_of_get? hat) (hc.tracks_of_get? (hc.get?_of_mem he rfl))
        subst hsame
        have hdeepest := (owns_of_owningRoot? ho).2.2 root hroot hbegins
        rw [← hroot'] at hdeepest
        exact hdeepest
    · rw [herr] at hat
      cases hat
  · intro hdeepest
    have howns : s.Owns e.2.absolutePath ix.root :=
      ⟨List.mem_map_of_mem hix, (Path.stripPrefix?_of_components hplaced).1, hdeepest⟩
    rcases split_cases s e.2.absolutePath with ⟨owner, rel, ho, hsplit⟩ | ⟨ho, -⟩
    · have howner : owner = ix.root := Owns.unique h.roots_nodup (owns_of_owningRoot? ho) howns
      subst howner
      have hrel := split_components hsplit
      rw [hplaced] at hrel
      unfold recordAt?
      rw [hsplit]
      dsimp only
      rw [h.index?_of_mem hix rfl, Option.bind_some]
      exact hc.get?_of_mem he (List.append_cancel_left hrel).symm
    · rw [(owningRoot?_eq_some_iff h.roots_nodup _ _).mpr howns] at ho
      cases ho

/-- In every set of indexes built from nothing, a tracked record is found at its path exactly
when no registered root with more components than its own root begins the path; and a record
found at its path gives its title as the title there, and removing the path hands the record
back and leaves its title tracked nowhere. -/
theorem reachable_iff_no_deeper_root (ops : List IndexSetOp) :
    let s := ({} : IndexSet).run ops
    ∀ ix ∈ s.indexes, ∀ e ∈ ix.entries,
      (s.recordAt? e.2.absolutePath = some e.2 ↔
        ∀ root ∈ s.roots, Path.startsWith e.2.absolutePath root = true →
          (Path.components root).length ≤ (Path.components ix.root).length) ∧
      (s.recordAt? e.2.absolutePath = some e.2 →
        s.titleAt e.2.absolutePath = .ok e.2.title ∧
          (s.removePath e.2.absolutePath).2 = some e.2 ∧
          (s.removePath e.2.absolutePath).1.recordForTitle? e.2.title = none) := by
  intro s ix hix e he
  have h : s.Sound := sound_empty.run ops
  refine ⟨h.recordAt?_iff hix he, fun hat => ⟨titleAt_of_recordAt? hat, ?_, ?_⟩⟩
  · rw [removePath_snd, hat]
  · exact h.recordForTitle?_removePath hat

/-! ### What each update leaves at a path -/

/-- The root a path splits at is the root of an index of the set. -/
theorem exists_index_of_split {s : IndexSet} {q root rel : String}
    (hsplit : s.split q = .ok (root, rel)) : ∃ ix ∈ s.indexes, ix.root = root := by
  rcases split_cases s q with ⟨root', rel', ho, hok⟩ | ⟨-, herr⟩
  · rw [hok] at hsplit
    cases hsplit
    exact List.mem_map.mp (owns_of_owningRoot? ho).1
  · rw [herr] at hsplit
    cases hsplit

/-- A path that splits nowhere has no record and no bundled titles. -/
theorem lookup_of_split_error {s : IndexSet} {q : String} {e : IndexError}
    (herr : s.split q = .error e) : s.recordAt? q = none ∧ s.bundledAt q = [] := by
  unfold recordAt? bundledAt
  rw [herr]
  exact ⟨rfl, rfl⟩

/-- Removing a path that splits nowhere leaves the set as it was. -/
theorem removePath_of_split_error {s : IndexSet} {q : String} {e : IndexError}
    (herr : s.split q = .error e) : (s.removePath q).1 = s := by
  unfold IndexSet.removePath
  rw [herr]

/-- Bundling titles at a path that splits nowhere leaves the set as it was. -/
theorem setBundled_of_split_error {s : IndexSet} {p : String} {e : IndexError}
    (herr : s.split p = .error e) (ts : List String) : s.setBundled p ts = s := by
  unfold IndexSet.setBundled
  rw [herr]

/-- In a sound set, a path is looked up in the index over the root it splits at, at the part of
the path after the root. -/
theorem Sound.lookup_of_split {s : IndexSet} (h : s.Sound) {q root rel : String}
    (hsplit : s.split q = .ok (root, rel)) {ix : FileIndex} (hix : ix ∈ s.indexes)
    (hroot : Path.components ix.root = Path.components root) :
    s.recordAt? q = ix.model.records (Path.components rel) ∧
      s.bundledAt q = ix.model.bundled (Path.components rel) := by
  have hr := (h.consistent ix hix).refines
  unfold recordAt? bundledAt
  rw [hsplit]
  dsimp only
  rw [h.index?_of_mem hix hroot.symm, Option.bind_some, Option.map_some, Option.getD_some]
  exact ⟨hr.get rel, hr.bundled rel⟩

/-- The title at a path is the title of the record there. -/
theorem titleAt_toOption (s : IndexSet) (q : String) :
    (s.titleAt q).toOption = (s.recordAt? q).map (·.title) := by
  unfold titleAt recordAt?
  split
  · rename_i root rel _
    cases s.index? root with
    | none => rfl
    | some ix =>
      simp only [Option.bind_some, FileIndex.titleByPath]
      cases ix.get? rel <;> rfl
  · rfl

/-- A title found at a path is the title of a record there. -/
theorem recordAt?_of_titleAt {s : IndexSet} {p t : String} (h : s.titleAt p = .ok t) :
    ∃ r, s.recordAt? p = some r ∧ r.title = t := by
  have hat := titleAt_toOption s p
  rw [h] at hat
  cases hr : s.recordAt? p with
  | none =>
    rw [hr] at hat
    cases hat
  | some r =>
    rw [hr] at hat
    exact ⟨r, rfl, (Option.some_inj.mp hat).symm⟩

/-- After the index of a root is replaced by one over the same root, a path that splits at that
root is looked up in the new index, and any other path as before. -/
theorem Sound.lookup_update {s : IndexSet} (h : s.Sound) {ix₀ ix : FileIndex}
    (h₀ : ix₀ ∈ s.indexes) (hroot : ix.root = ix₀.root) (h' : (s.update ix).Sound)
    {q root rel : String} (hsplit : s.split q = .ok (root, rel)) :
    (s.update ix).recordAt? q = (if Path.components root = Path.components ix.root
        then ix.model.records (Path.components rel) else s.recordAt? q) ∧
      (s.update ix).bundledAt q = (if Path.components root = Path.components ix.root
        then ix.model.bundled (Path.components rel) else s.bundledAt q) := by
  have hsplit' : (s.update ix).split q = .ok (root, rel) := by
    rw [split_eq_of_roots (update_roots h h₀ hroot), hsplit]
  by_cases hsame : Path.components root = Path.components ix.root
  · rw [if_pos hsame, if_pos hsame]
    exact h'.lookup_of_split hsplit' (mem_update_self h₀ (by rw [hroot])) hsame.symm
  · rw [if_neg hsame, if_neg hsame]
    obtain ⟨o, ho, rfl⟩ := exists_index_of_split hsplit
    have hkept : o ∈ (s.update ix).indexes :=
      List.mem_map.mpr ⟨o, ho, by simp [Path.same_eq, hsame]⟩
    rw [(h'.lookup_of_split hsplit' hkept rfl).1, (h'.lookup_of_split hsplit' hkept rfl).2,
      (h.lookup_of_split hsplit ho rfl).1, (h.lookup_of_split hsplit ho rfl).2]
    exact ⟨rfl, rfl⟩

/-- After the index of a root is replaced by one over the same root, a path that split nowhere
still splits nowhere, and nothing is found at it. -/
theorem Sound.lookup_update_of_split_error {s : IndexSet} (h : s.Sound) {ix₀ ix : FileIndex}
    (h₀ : ix₀ ∈ s.indexes) (hroot : ix.root = ix₀.root) {q : String} {e : IndexError}
    (herr : s.split q = .error e) :
    (s.update ix).recordAt? q = none ∧ (s.update ix).bundledAt q = [] := by
  have herr' : (s.update ix).split q = .error e := by
    rw [split_eq_of_roots (update_roots h h₀ hroot), herr]
  exact lookup_of_split_error herr'

/-- Dropping a title from the other roots keeps the index of the root itself. -/
theorem mem_of_dropTitleElsewhere {s : IndexSet} {root t : String} {ix : FileIndex}
    (hix : ix ∈ (s.dropTitleElsewhere root t).indexes)
    (hroot : Path.components ix.root = Path.components root) : ix ∈ s.indexes := by
  obtain ⟨o, ho, rfl⟩ := List.mem_map.mp hix
  by_cases hsame : Path.same o.root root = true
  · rw [if_pos hsame]
    exact ho
  · rw [if_neg hsame] at hroot ⊢
    rw [FileIndex.removeTitle_root] at hroot
    exact absurd (by rw [Path.same_eq, hroot]; simp) hsame

/-- In a sound set, dropping a title from the roots other than `root'` drops the record of that
title, with its bundled titles, from the paths under those roots. -/
theorem Sound.lookup_dropTitleElsewhere {s : IndexSet} (h : s.Sound) {root' t : String}
    {q root rel : String} (hsplit : s.split q = .ok (root, rel))
    (hne : Path.components root ≠ Path.components root') :
    (s.dropTitleElsewhere root' t).recordAt? q =
        (if (s.recordAt? q).map (·.title) = some t then none else s.recordAt? q) ∧
      (s.dropTitleElsewhere root' t).bundledAt q =
        (if (s.recordAt? q).map (·.title) = some t then [] else s.bundledAt q) := by
  obtain ⟨o, ho, rfl⟩ := exists_index_of_split hsplit
  have hsplit' : (s.dropTitleElsewhere root' t).split q = .ok (o.root, rel) := by
    rw [split_eq_of_roots (dropTitleElsewhere_roots s root' t), hsplit]
  have hdropped : (o.removeTitle t).1 ∈ (s.dropTitleElsewhere root' t).indexes :=
    List.mem_map.mpr ⟨o, ho, by simp [Path.same_eq, hne]⟩
  obtain ⟨hrec, hbun⟩ := h.lookup_of_split hsplit ho rfl
  obtain ⟨hrec', hbun'⟩ :=
    (h.dropTitleElsewhere root' t).lookup_of_split hsplit' hdropped (by simp)
  rw [hrec', hbun', hrec, hbun, FileIndex.model_removeTitle (h.consistent o ho)]
  exact ⟨rfl, rfl⟩

/-- In a sound set, inserting a record leaves every other path as it was, except that a path
holding the record's title loses it with its bundled titles. -/
theorem Sound.lookup_insert_of_ne {s s' : IndexSet} (h : s.Sound) {r : FileRecord}
    {dsp : Option FileRecord} (hi : s.insert r = .ok (s', dsp)) {q : String}
    (hq : Path.components q ≠ Path.components r.absolutePath) :
    s'.recordAt? q = (if (s.recordAt? q).map (·.title) = some r.title then none
        else s.recordAt? q) ∧
      s'.bundledAt q = (if (s.recordAt? q).map (·.title) = some r.title then []
        else s.bundledAt q) := by
  have h' := h.insert hi
  obtain ⟨root', rel', ix, hsplit', hix, rfl, -⟩ := insert_eq_ok hi
  have hdrop := h.dropTitleElsewhere root' r.title
  obtain ⟨hmem, hroot'⟩ := index?_eq_some hix
  have hsplitd : (s.dropTitleElsewhere root' r.title).split q = s.split q :=
    split_eq_of_roots (dropTitleElsewhere_roots s root' r.title) q
  rcases split_cases s q with ⟨root, rel, -, hsplit⟩ | ⟨-, herr⟩
  · obtain ⟨hrec, hbun⟩ :=
      hdrop.lookup_update hmem (FileIndex.set_root _ _ _) h' (hsplitd.trans hsplit)
    rw [hrec, hbun, FileIndex.set_root]
    by_cases hsame : Path.components root = Path.components ix.root
    · rw [if_pos hsame, if_pos hsame]
      have hix₀ := mem_of_dropTitleElsewhere hmem hroot'
      obtain ⟨hrec₀, hbun₀⟩ := h.lookup_of_split hsplit hix₀ hsame.symm
      have hrel : Path.components rel ≠ Path.components rel' := by
        intro hr
        apply hq
        rw [split_components hsplit, split_components hsplit', hsame, hroot', hr]
      rw [FileIndex.model_set (hdrop.consistent ix hmem), hrec₀, hbun₀]
      simp only [IndexModel.set, IndexModel.titleAt, hrel, if_false, false_or]
      exact ⟨rfl, trivial⟩
    · rw [if_neg hsame, if_neg hsame]
      exact h.lookup_dropTitleElsewhere hsplit (by rwa [← hroot'])
  · obtain ⟨hrec, hbun⟩ := lookup_of_split_error herr
    obtain ⟨hrec', hbun'⟩ :=
      hdrop.lookup_update_of_split_error hmem (FileIndex.set_root _ _ _) (hsplitd.trans herr)
    rw [hrec, hbun, hrec', hbun']
    simp

/-- In a sound set, removing a path leaves nothing at it. -/
theorem Sound.lookup_removePath_self {s : IndexSet} (h : s.Sound) (q : String) :
    (s.removePath q).1.recordAt? q = none ∧ (s.removePath q).1.bundledAt q = [] := by
  have h' := h.removePath q
  rcases split_cases s q with ⟨root, rel, -, hsplit⟩ | ⟨-, herr⟩
  · obtain ⟨o, ho, rfl⟩ := exists_index_of_split hsplit
    have heq : (s.removePath q).1 = s.update (o.delete rel).1 := by
      unfold IndexSet.removePath
      rw [hsplit]
      dsimp only
      rw [h.index?_of_mem ho rfl]
    rw [heq] at h' ⊢
    obtain ⟨hrec, hbun⟩ := h.lookup_update ho (FileIndex.delete_root _ _) h' hsplit
    rw [hrec, hbun, FileIndex.model_delete]
    simp [IndexModel.delete]
  · rw [removePath_of_split_error herr]
    exact lookup_of_split_error herr

/-- Which root owns a path depends only on the path's components. -/
theorem owningRoot?_congr (s : IndexSet) {p q : String}
    (h : Path.components p = Path.components q) : s.owningRoot? p = s.owningRoot? q := by
  have hbegins : Path.startsWith p = Path.startsWith q :=
    funext fun base => by simp only [Path.startsWith, h]
  unfold owningRoot?
  rw [hbegins]

/-- Setting the bundled titles of a path in a sound set is replacing the index of the root it
splits at. -/
theorem Sound.setBundled_eq {s : IndexSet} (h : s.Sound) {p root rel : String}
    (hsplit : s.split p = .ok (root, rel)) {ix : FileIndex} (hix : ix ∈ s.indexes)
    (hroot : ix.root = root) : s.setBundled p ts = s.update (ix.setBundled rel ts) := by
  unfold IndexSet.setBundled
  rw [hsplit]
  dsimp only
  rw [h.index?_of_mem hix (by rw [hroot])]

/-- In a sound set, setting the bundled titles of a path keeps every record, and the title of
every record. -/
theorem Sound.recordForTitle?_setBundled {s : IndexSet} (h : s.Sound) (p : String)
    (ts : List String) (t : String) :
    (s.setBundled p ts).recordForTitle? t = s.recordForTitle? t := by
  rcases split_cases s p with ⟨root, rel, -, hsplit⟩ | ⟨-, herr⟩
  · obtain ⟨ix, hix, hroot⟩ := exists_index_of_split hsplit
    rw [h.setBundled_eq hsplit hix hroot]
    unfold IndexSet.recordForTitle? IndexSet.update
    rw [List.findSome?_map]
    refine findSome?_congr_of_mem fun o ho => ?_
    by_cases hsame : Path.same o.root (ix.setBundled rel ts).root = true
    · have hoix : o = ix := h.eq_of_root ho hix (by
        rw [Path.same_eq, decide_eq_true_iff, FileIndex.setBundled_root] at hsame
        exact hsame)
      subst hoix
      have hget : (o.setBundled rel ts).get? = o.get? :=
        funext fun q => by simp only [FileIndex.get?, FileIndex.setBundled_entries]
      simp only [Function.comp, if_pos hsame, FileIndex.pathForTitle?_setBundled, hget]
    · simp only [Function.comp, if_neg hsame]
  · rw [setBundled_of_split_error herr]

/-- In a sound set, setting the bundled titles of a path keeps every record, and changes only
the bundled titles of that path: they become the list when the path holds a record and the list
is not empty, and none otherwise. -/
theorem Sound.lookup_setBundled {s : IndexSet} (h : s.Sound) (p : String) (ts : List String)
    (q : String) :
    (s.setBundled p ts).recordAt? q = s.recordAt? q ∧
      (s.setBundled p ts).bundledAt q = (if Path.components q = Path.components p then
        (if ts ≠ [] ∧ (s.recordAt? q).isSome then ts else []) else s.bundledAt q) := by
  have h' := h.setBundled p ts
  rcases split_cases s p with ⟨root, rel, hop, hsplit⟩ | ⟨hop, herr⟩
  · obtain ⟨ix, hix, rfl⟩ := exists_index_of_split hsplit
    rw [h.setBundled_eq hsplit hix rfl] at h' ⊢
    rcases split_cases s q with ⟨rootq, relq, hoq, hsplitq⟩ | ⟨hoq, herrq⟩
    · obtain ⟨hrec, hbun⟩ := h.lookup_update hix (FileIndex.setBundled_root _ _ _) h' hsplitq
      rw [hrec, hbun, FileIndex.setBundled_root, FileIndex.model_setBundled]
      obtain ⟨o, ho, rfl⟩ := exists_index_of_split hsplitq
      obtain ⟨hrec₀, hbun₀⟩ := h.lookup_of_split hsplitq ho rfl
      by_cases hsame : Path.components o.root = Path.components ix.root
      · have hoix : o = ix := h.eq_of_root ho hix hsame
        subst hoix
        rw [if_pos hsame, if_pos hsame, hrec₀, hbun₀]
        refine ⟨rfl, ?_⟩
        have hiff : Path.components relq = Path.components rel ↔
            Path.components q = Path.components p := by
          rw [split_components hsplitq, split_components hsplit, List.append_cancel_left_eq]
        by_cases hqp : Path.components q = Path.components p
        · simp only [IndexModel.setBundled, hiff.mpr hqp, hqp, if_true]
        · simp only [IndexModel.setBundled, mt hiff.mp hqp, hqp, if_false]
      · have hqp : Path.components q ≠ Path.components p := by
          intro hqp
          rw [owningRoot?_congr s hqp, hop, Option.some_inj] at hoq
          exact hsame (by rw [hoq])
        rw [if_neg hsame, if_neg hsame, if_neg hqp]
        exact ⟨rfl, rfl⟩
    · obtain ⟨hrec, hbun⟩ := lookup_of_split_error herrq
      obtain ⟨hrec', hbun'⟩ :=
        h.lookup_update_of_split_error hix (FileIndex.setBundled_root _ _ _) herrq
      rw [hrec, hbun, hrec', hbun']
      simp
  · rw [setBundled_of_split_error herr]
    refine ⟨rfl, ?_⟩
    by_cases hqp : Path.components q = Path.components p
    · have hoq : s.owningRoot? q = none := by rw [owningRoot?_congr s hqp, hop]
      have herrq : s.split q = .error (.noOwningRoot q) := by simp [split, hoq]
      obtain ⟨hrec, hbun⟩ := lookup_of_split_error herrq
      rw [if_pos hqp, hrec, hbun]
      simp
    · rw [if_neg hqp]

/-- Removing a path keeps the roots of a sound set. -/
theorem Sound.removePath_roots {s : IndexSet} (h : s.Sound) (q : String) :
    (s.removePath q).1.roots = s.roots := by
  unfold IndexSet.removePath
  split
  · split
    · rename_i ix hix
      exact update_roots h (index?_eq_some hix).1 (FileIndex.delete_root _ _)
    · rfl
  · rfl

/-- Inserting a record keeps the roots of a sound set. -/
theorem Sound.insert_roots {s s' : IndexSet} (h : s.Sound) {r : FileRecord}
    {dsp : Option FileRecord} (hi : s.insert r = .ok (s', dsp)) : s'.roots = s.roots := by
  obtain ⟨root, rel, ix, -, hix, rfl, -⟩ := insert_eq_ok hi
  obtain ⟨hmem, -⟩ := index?_eq_some hix
  rw [update_roots (h.dropTitleElsewhere root r.title) hmem (FileIndex.set_root _ _ _),
    dropTitleElsewhere_roots]

/-- The set tracks title `t` at `path` with `B` bundled there: the record found at the path is
the one found for the title, and it names the path and the title. -/
structure TracksAt (s : IndexSet) (path t : String) (B : List String) : Prop where
  /-- The record at the path is the record of the title, and names both. -/
  found : ∃ r, s.recordAt? path = some r ∧ s.recordForTitle? t = some r ∧ r.title = t ∧
    r.absolutePath = path
  /-- The titles bundled at the path. -/
  bundled : s.bundledAt path = B

/-- In a sound set, inserting a record and bundling titles with it tracks the record's title at
its path with those titles bundled; every other path keeps its record and bundled titles, unless
its record had that title, when it loses both. -/
theorem Sound.insert_setBundled {s s' : IndexSet} (h : s.Sound) {r : FileRecord}
    {dsp : Option FileRecord} (hi : s.insert r = .ok (s', dsp)) (B : List String) :
    (s'.setBundled r.absolutePath B).Sound ∧
      (s'.setBundled r.absolutePath B).TracksAt r.absolutePath r.title B ∧
      ∀ q, Path.components q ≠ Path.components r.absolutePath →
        (s'.setBundled r.absolutePath B).recordAt? q =
            (if (s.recordAt? q).map (·.title) = some r.title then none else s.recordAt? q) ∧
          (s'.setBundled r.absolutePath B).bundledAt q =
            (if (s.recordAt? q).map (·.title) = some r.title then [] else s.bundledAt q) := by
  have h' := h.insert hi
  obtain ⟨root, rel, -, hfound, hat⟩ := h.insert_found hi
  obtain ⟨hrec, hbun⟩ := h'.lookup_setBundled r.absolutePath B r.absolutePath
  refine ⟨h'.setBundled _ _, ⟨⟨{ r with relativePath := rel }, ?_, ?_, rfl, rfl⟩, ?_⟩, ?_⟩
  · rw [hrec, hat]
  · rw [h'.recordForTitle?_setBundled, hfound]
  · rw [hbun, if_pos rfl, hat]
    by_cases hB : B = []
    · simp [hB]
    · simp [hB]
  · intro q hq
    obtain ⟨hrec', hbun'⟩ := h'.lookup_setBundled r.absolutePath B q
    obtain ⟨hrec₀, hbun₀⟩ := h.lookup_insert_of_ne hi hq
    rw [hrec', hbun', if_neg hq, hrec₀, hbun₀]
    exact ⟨rfl, rfl⟩

end IndexSet

end WikiSync
