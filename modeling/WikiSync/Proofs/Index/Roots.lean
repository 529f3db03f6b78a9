import WikiSync.Proofs.Index.Placement

/-!
# The indexes of all roots

A set of indexes keeps one file index per registered root. Built from nothing by registering and
dropping roots, tracking records and forgetting paths or titles, it stays sound (`Sound`): its
roots name different paths, each index is consistent, placed under its root and keyed by the
relative paths of its records, and two indexes that track one title are over the same root. Every
update keeps that (`Sound.apply`), whatever the nesting of the roots.

From soundness follows what the set promises (`Coherent`, `run_coherent`):

* the owning root of a path is the registered root with most components among those whose
  components begin the path's, and no two roots can tie (`owningRoot?_eq_some_iff`,
  `Owns.unique`);
* a title lives in one index at most, so the size of the set counts distinct titles
  (`Sound.len_eq_ncard`) and the record found for a title does not depend on the order in which
  the roots are searched (`Sound.recordForTitle?_perm`);
* each record lies under its index's root at its key, and names the key as its relative path
  (`Sound.stored`);
* inserting a record fails, with `noOwningRoot`, exactly when no registered root begins its path
  (`insert_eq_error_iff`): a failed insertion hands back no set, so the set stays as it was;
  otherwise the record is found by its title and at its path, with its relative path filled in
  (`Sound.insert_found`).
-/

namespace WikiSync

/-! ### First answers of a search -/

section Answers

variable {α β : Type} {l : List α} {f : α → Option β}

/-- A search in which some member answers `x` and every member answers `x` or nothing finds `x`. -/
theorem findSome?_eq_of_answers {x : β} (hx : ∃ a ∈ l, f a = some x)
    (hall : ∀ a ∈ l, f a = none ∨ f a = some x) : l.findSome? f = some x := by
  induction l with
  | nil =>
    obtain ⟨a, ha, -⟩ := hx
    cases ha
  | cons a l ih =>
    rw [List.findSome?_cons]
    rcases hall a List.mem_cons_self with ha | ha
    · rw [ha]
      obtain ⟨b, hb, hfb⟩ := hx
      rcases List.mem_cons.mp hb with rfl | hb
      · rw [ha] at hfb
        cases hfb
      · exact ih ⟨b, hb, hfb⟩ fun c hc => hall c (List.mem_cons_of_mem a hc)
    · rw [ha]

/-- When at most one member answers, the search finds exactly the answers of the members. -/
theorem findSome?_eq_some_iff_of_unique
    (hu : ∀ a ∈ l, ∀ b ∈ l, (f a).isSome → (f b).isSome → a = b) (x : β) :
    l.findSome? f = some x ↔ ∃ a ∈ l, f a = some x := by
  constructor
  · intro h
    obtain ⟨l₁, a, l₂, rfl, ha, -⟩ := List.findSome?_eq_some_iff.mp h
    exact ⟨a, by simp, ha⟩
  · rintro ⟨a, ha, hfa⟩
    refine findSome?_eq_of_answers ⟨a, ha, hfa⟩ fun b hb => ?_
    cases hfb : f b with
    | none => exact .inl rfl
    | some y =>
      have hba : b = a := hu b hb a ha (by simp [hfb]) (by simp [hfa])
      subst hba
      exact .inr (hfb.symm.trans hfa)

/-- When at most one member of a list answers, the first answer does not depend on the order of
the list. -/
theorem findSome?_perm_of_unique {l' : List α} (hp : l.Perm l')
    (hu : ∀ a ∈ l, ∀ b ∈ l, (f a).isSome → (f b).isSome → a = b) :
    l.findSome? f = l'.findSome? f := by
  have hu' : ∀ a ∈ l', ∀ b ∈ l', (f a).isSome → (f b).isSome → a = b :=
    fun a ha b hb => hu a (hp.mem_iff.mpr ha) b (hp.mem_iff.mpr hb)
  refine Option.ext fun x => ?_
  rw [findSome?_eq_some_iff_of_unique hu, findSome?_eq_some_iff_of_unique hu']
  exact exists_congr fun a => and_congr_left' hp.mem_iff

end Answers

/-- A path whose components are those of a base followed by those of `k` begins with the base,
and its part after the base names `k`. -/
theorem Path.stripPrefix?_of_components {p base k : String}
    (h : Path.components p = Path.components base ++ Path.components k) :
    Path.startsWith p base = true ∧
      ∃ k', Path.stripPrefix? p base = some k' ∧ Path.components k' = Path.components k := by
  have hbegins : Path.startsWith p base = true :=
    List.isPrefixOf_iff_prefix.mpr ⟨_, h.symm⟩
  obtain ⟨k', hk'⟩ := Option.isSome_iff_exists.mp (by rw [Path.isSome_stripPrefix]; exact hbegins)
  refine ⟨hbegins, k', hk', ?_⟩
  have hsplit := Path.components_stripPrefix hk'
  rw [h] at hsplit
  exact (List.append_cancel_left hsplit).symm

/-! ### One index -/

namespace FileIndex

@[simp] theorem set_root (ix : FileIndex) (p : String) (r : FileRecord) :
    (ix.set p r).1.root = ix.root := by
  unfold FileIndex.set
  dsimp only
  repeat' split
  all_goals rfl

@[simp] theorem delete_root (ix : FileIndex) (p : String) : (ix.delete p).1.root = ix.root := by
  unfold FileIndex.delete
  split <;> rfl

@[simp] theorem removeTitle_root (ix : FileIndex) (t : String) :
    (ix.removeTitle t).1.root = ix.root := by
  unfold FileIndex.removeTitle
  split <;> rfl

@[simp] theorem setBundled_root (ix : FileIndex) (p : String) (ts : List String) :
    (ix.setBundled p ts).root = ix.root := by
  unfold FileIndex.setBundled
  split <;> rfl

theorem setBundled_entries (ix : FileIndex) (p : String) (ts : List String) :
    (ix.setBundled p ts).entries = ix.entries := by
  unfold FileIndex.setBundled
  split <;> rfl

theorem pathForTitle?_setBundled (ix : FileIndex) (p : String) (ts : List String) (t : String) :
    (ix.setBundled p ts).pathForTitle? t = ix.pathForTitle? t := by
  unfold FileIndex.setBundled
  split <;> rfl

@[simp] theorem pathForTitle?_new (root t : String) : (FileIndex.new root).pathForTitle? t = none :=
  rfl

theorem mem_delete_entries {ix : FileIndex} {p : String} {e : String × FileRecord}
    (h : e ∈ (ix.delete p).1.entries) : e ∈ ix.entries := by
  unfold FileIndex.delete at h
  split at h
  · exact mem_eraseKey h
  · exact h

theorem mem_removeTitle_entries {ix : FileIndex} {t : String} {e : String × FileRecord}
    (h : e ∈ (ix.removeTitle t).1.entries) : e ∈ ix.entries := by
  unfold FileIndex.removeTitle at h
  split at h
  · exact mem_eraseKey h
  · exact h

/-- A title still tracked after deleting a path was tracked before. -/
theorem tracks_of_delete {ix : FileIndex} {p u : String}
    (h : ((ix.delete p).1.pathForTitle? u).isSome) : (ix.pathForTitle? u).isSome := by
  rw [pathForTitle?_delete] at h
  split at h
  · cases h
  · exact h

/-- A title still tracked after removing a title is another title, tracked before. -/
theorem tracks_of_removeTitle {ix : FileIndex} {t u : String}
    (h : ((ix.removeTitle t).1.pathForTitle? u).isSome) : u ≠ t ∧ (ix.pathForTitle? u).isSome := by
  rw [pathForTitle?_removeTitle] at h
  split at h
  · cases h
  · rename_i hne
    exact ⟨hne, h⟩

/-- An index that finds a record for a title tracks the title. -/
theorem tracks_of_isSome_bind {ix : FileIndex} {t : String}
    (h : ((ix.pathForTitle? t).bind ix.get?).isSome) : (ix.pathForTitle? t).isSome := by
  cases hq : ix.pathForTitle? t with
  | none =>
    rw [hq] at h
    cases h
  | some q => rfl

/-- In a consistent index, the path given for a title holds a record of that title. -/
theorem Consistent.get?_pathForTitle? {ix : FileIndex} (hc : ix.Consistent) {t q : String}
    (hq : ix.pathForTitle? t = some q) : ∃ r, ix.get? q = some r ∧ r.title = t := by
  have htitle := (hc.pathForTitle_iff t (Path.components q)).mp (by rw [hq]; rfl)
  unfold IndexModel.titleAt at htitle
  obtain ⟨r, hr, rfl⟩ := Option.map_eq_some_iff.mp htitle
  exact ⟨r, by rw [hc.refines.get]; exact hr, rfl⟩

/-- Every record of an index names its key as its relative path. -/
def Keyed (ix : FileIndex) : Prop :=
  ∀ e ∈ ix.entries, Path.components e.2.relativePath = Path.components e.1

theorem keyed_new (root : String) : (new root).Keyed := fun _ he => by cases he

/-- Tracking a record keeps an index keyed when the record names the path as its relative
path. -/
theorem Keyed.set {ix : FileIndex} (h : ix.Keyed) {p : String} {r : FileRecord}
    (hr : Path.components r.relativePath = Path.components p) : (ix.set p r).1.Keyed := by
  intro e he
  rw [set_entries] at he
  rcases mem_setKey he with he | ⟨hk, hv⟩
  · apply h e
    split at he
    · split at he
      · exact he
      · exact mem_eraseKey he
    · exact he
  · rw [hv, hk, hr]

theorem Keyed.delete {ix : FileIndex} (h : ix.Keyed) (p : String) : (ix.delete p).1.Keyed :=
  fun e he => h e (mem_delete_entries he)

theorem Keyed.removeTitle {ix : FileIndex} (h : ix.Keyed) (t : String) :
    (ix.removeTitle t).1.Keyed :=
  fun e he => h e (mem_removeTitle_entries he)

theorem Keyed.setBundled {ix : FileIndex} (h : ix.Keyed) (p : String) (ts : List String) :
    (ix.setBundled p ts).Keyed := by
  intro e he
  rw [setBundled_entries] at he
  exact h e he

/-- The titles an index tracks. -/
def titles (ix : FileIndex) : Set String :=
  {t | (ix.pathForTitle? t).isSome}

/-- The titles of a consistent index are the titles of the records at its paths. -/
theorem Consistent.titles_eq_image {ix : FileIndex} (hc : ix.Consistent) :
    ix.titles = (fun k => ((ix.model.records k).map (·.title)).getD "") '' ix.model.dom := by
  ext t
  simp only [titles, Set.mem_ofPred_eq, Set.mem_image, IndexModel.dom]
  constructor
  · intro ht
    obtain ⟨q, hq⟩ := Option.isSome_iff_exists.mp ht
    have htitle := (hc.pathForTitle_iff t (Path.components q)).mp (by rw [hq]; rfl)
    unfold IndexModel.titleAt at htitle
    exact ⟨Path.components q, by simp [Option.isSome_map ▸ congrArg Option.isSome htitle],
      by rw [htitle]; rfl⟩
  · rintro ⟨k, hk, rfl⟩
    obtain ⟨r, hr⟩ := Option.isSome_iff_exists.mp hk
    have hpath := (hc.pathForTitle_iff r.title k).mpr (by simp [IndexModel.titleAt, hr])
    simp only [hr, Option.map_some, Option.getD_some]
    cases hq : ix.pathForTitle? r.title with
    | none =>
      rw [hq] at hpath
      cases hpath
    | some q => rfl

/-- A consistent index counts the titles it tracks. -/
theorem Consistent.len_eq_ncard_titles {ix : FileIndex} (hc : ix.Consistent) :
    ix.len = ix.titles.ncard := by
  rw [hc.refines.len, hc.titles_eq_image, Set.InjOn.ncard_image]
  intro k hk k' hk' heq
  obtain ⟨r, hr⟩ := Option.isSome_iff_exists.mp hk
  obtain ⟨r', hr'⟩ := Option.isSome_iff_exists.mp hk'
  simp only [hr, hr', Option.map_some, Option.getD_some] at heq
  exact hc.titles_inj k k' r.title (by simp [IndexModel.titleAt, hr])
    (by simp [IndexModel.titleAt, hr', heq])

theorem Consistent.titles_finite {ix : FileIndex} (hc : ix.Consistent) : ix.titles.Finite := by
  rw [hc.titles_eq_image]
  exact hc.wellFormed.finite.image _

end FileIndex

/-- An update of a set of indexes. -/
inductive IndexSetOp where
  /-- Register a root. -/
  | registerRoot (root : String)
  /-- Drop a root with everything tracked under it. -/
  | deregisterRoot (root : String)
  /-- Track a record at its absolute path. -/
  | insert (r : FileRecord)
  /-- Stop tracking an absolute path. -/
  | removePath (p : String)
  /-- Stop tracking a title. -/
  | removeTitle (t : String)
  /-- Record the other titles stored in the file at an absolute path. -/
  | setBundled (p : String) (titles : List String)

namespace IndexSet

/-- Apply an update; an insertion that fails leaves the set as it was. -/
def apply (s : IndexSet) : IndexSetOp → IndexSet
  | .registerRoot root => (s.registerRoot root).1
  | .deregisterRoot root => (s.deregisterRoot root).1
  | .insert r => match s.insert r with
    | .ok (s', _) => s'
    | .error _ => s
  | .removePath p => (s.removePath p).1
  | .removeTitle t => (s.removeTitle t).1
  | .setBundled p ts => s.setBundled p ts

/-- Apply updates in turn. -/
def run (s : IndexSet) (ops : List IndexSetOp) : IndexSet :=
  ops.foldl apply s

/-! ### The owning root -/

/-- One step of the search for the owning root: a candidate with at least as many components as
the best so far takes its place. -/
def deeper (best : Option String) (r : String) : Option String :=
  match best with
  | none => some r
  | some b => if (Path.components r).length ≥ (Path.components b).length then some r else some b

theorem owningRoot?_eq (s : IndexSet) (p : String) :
    s.owningRoot? p = (s.roots.filter (Path.startsWith p)).foldl deeper none :=
  rfl

/-- One step of the search keeps the candidate or the best so far, and what it keeps is at least
as deep as both. -/
theorem deeper_spec (best : Option String) (r : String) :
    ∃ v, deeper best r = some v ∧ (v = r ∨ best = some v) ∧
      (Path.components r).length ≤ (Path.components v).length ∧
      ∀ b, best = some b → (Path.components b).length ≤ (Path.components v).length := by
  cases best with
  | none => exact ⟨r, rfl, .inl rfl, le_refl _, fun b hb => by cases hb⟩
  | some b =>
    by_cases hrb : (Path.components r).length ≥ (Path.components b).length
    · refine ⟨r, by simp [deeper, hrb], .inl rfl, le_refl _, ?_⟩
      intro b' hb'
      cases hb'
      exact hrb
    · refine ⟨b, by simp [deeper, hrb], .inr rfl, by omega, ?_⟩
      intro b' hb'
      cases hb'
      exact le_refl _

/-- The search finds nothing only when there is no candidate and nothing to start from. -/
theorem foldl_deeper_eq_none {l : List String} {init : Option String} :
    l.foldl deeper init = none ↔ l = [] ∧ init = none := by
  induction l generalizing init with
  | nil => simp
  | cons r l ih =>
    obtain ⟨v, hv, -⟩ := deeper_spec init r
    rw [List.foldl_cons, ih, hv]
    simp

/-- The search ends on a candidate, or on where it started, at least as deep as both. -/
theorem foldl_deeper_eq_some {l : List String} {init : Option String} {root : String}
    (h : l.foldl deeper init = some root) :
    (init = some root ∨ root ∈ l) ∧
      (∀ b, init = some b → (Path.components b).length ≤ (Path.components root).length) ∧
      ∀ r ∈ l, (Path.components r).length ≤ (Path.components root).length := by
  induction l generalizing init with
  | nil =>
    rw [List.foldl_nil] at h
    subst h
    exact ⟨.inl rfl, fun b hb => by cases hb; exact le_refl _, fun r hr => by cases hr⟩
  | cons r l ih =>
    obtain ⟨v, hv, hfrom, hr, hb⟩ := deeper_spec init r
    rw [List.foldl_cons, hv] at h
    obtain ⟨hmem, hinit, hl⟩ := ih h
    have hvroot := hinit v rfl
    refine ⟨?_, fun b hb' => (hb b hb').trans hvroot, ?_⟩
    · rcases hmem with hmem | hmem
      · cases hmem
        rcases hfrom with rfl | hfrom
        · exact .inr List.mem_cons_self
        · exact .inl hfrom
      · exact .inr (List.mem_cons_of_mem r hmem)
    · intro r' hr'
      rcases List.mem_cons.mp hr' with rfl | hr'
      · exact hr.trans hvroot
      · exact hl r' hr'

/-- A root owns a path when it is registered, its components begin the path's, and no
registered root that begins the path has more components. -/
def Owns (s : IndexSet) (p root : String) : Prop :=
  root ∈ s.roots ∧ Path.startsWith p root = true ∧
    ∀ r ∈ s.roots, Path.startsWith p r = true →
      (Path.components r).length ≤ (Path.components root).length

instance (s : IndexSet) (p root : String) : Decidable (s.Owns p root) :=
  inferInstanceAs (Decidable (root ∈ s.roots ∧ Path.startsWith p root = true ∧
    ∀ r ∈ s.roots, Path.startsWith p r = true →
      (Path.components r).length ≤ (Path.components root).length))

theorem owns_of_owningRoot? {s : IndexSet} {p root : String} (h : s.owningRoot? p = some root) :
    s.Owns p root := by
  rw [owningRoot?_eq] at h
  obtain ⟨hmem, -, hmax⟩ := foldl_deeper_eq_some h
  rcases hmem with hmem | hmem
  · cases hmem
  · obtain ⟨hroot, hbegins⟩ := List.mem_filter.mp hmem
    exact ⟨hroot, hbegins, fun r hr hpr => hmax r (List.mem_filter.mpr ⟨hr, hpr⟩)⟩

theorem owningRoot?_eq_none_iff (s : IndexSet) (p : String) :
    s.owningRoot? p = none ↔ ∀ r ∈ s.roots, Path.startsWith p r = false := by
  rw [owningRoot?_eq, foldl_deeper_eq_none, List.filter_eq_nil_iff]
  simp

/-- Two roots owning one path are one root, when no two registered roots name the same path:
both begin the path with as many components, so they name the same path. -/
theorem Owns.unique {s : IndexSet} (hn : (s.roots.map Path.components).Nodup) {p a b : String}
    (ha : s.Owns p a) (hb : s.Owns p b) : a = b := by
  have hlen : (Path.components a).length ≤ (Path.components b).length := hb.2.2 a ha.1 ha.2.1
  have hlen' : (Path.components b).length ≤ (Path.components a).length := ha.2.2 b hb.1 hb.2.1
  have hab : Path.components a <+: Path.components b :=
    List.prefix_of_prefix_length_le (List.isPrefixOf_iff_prefix.mp ha.2.1)
      (List.isPrefixOf_iff_prefix.mp hb.2.1) hlen
  exact List.inj_on_of_nodup_map hn ha.1 hb.1 (hab.eq_of_length (by omega))

/-- The owning root of a path is the root that owns it, when no two registered roots name the
same path. -/
theorem owningRoot?_eq_some_iff {s : IndexSet} (hn : (s.roots.map Path.components).Nodup)
    (p root : String) : s.owningRoot? p = some root ↔ s.Owns p root := by
  refine ⟨owns_of_owningRoot?, fun h => ?_⟩
  cases hs : s.owningRoot? p with
  | none =>
    have hno := (owningRoot?_eq_none_iff s p).mp hs root h.1
    rw [h.2.1] at hno
    cases hno
  | some root' => rw [Owns.unique hn (owns_of_owningRoot? hs) h]

/-- `split` reads a set only through its roots. -/
theorem split_eq_of_roots {s s' : IndexSet} (h : s.roots = s'.roots) (p : String) :
    s.split p = s'.split p := by
  unfold split owningRoot?
  rw [h]

/-- A path splits at its owning root when a root begins it; otherwise it does not split. -/
theorem split_cases (s : IndexSet) (p : String) :
    (∃ root rel, s.owningRoot? p = some root ∧ s.split p = .ok (root, rel)) ∨
      (s.owningRoot? p = none ∧ s.split p = .error (.noOwningRoot p)) := by
  cases ho : s.owningRoot? p with
  | none => exact .inr ⟨rfl, by simp [split, ho]⟩
  | some root =>
    have hstrip : (Path.stripPrefix? p root).isSome := by
      rw [Path.isSome_stripPrefix]
      exact (owns_of_owningRoot? ho).2.1
    obtain ⟨rel, hrel⟩ := Option.isSome_iff_exists.mp hstrip
    exact .inl ⟨root, rel, rfl, by simp [split, ho, hrel]⟩

/-- A path that a registered root begins splits. -/
theorem split_ok_of_startsWith {s : IndexSet} {p root : String} (hr : root ∈ s.roots)
    (h : Path.startsWith p root = true) : ∃ owner rel, s.split p = .ok (owner, rel) := by
  rcases split_cases s p with ⟨owner, rel, -, hok⟩ | ⟨hnone, -⟩
  · exact ⟨owner, rel, hok⟩
  · rw [(owningRoot?_eq_none_iff s p).mp hnone root hr] at h
    cases h

/-- A registered root has an index. -/
theorem index?_isSome {s : IndexSet} {root : String} (h : root ∈ s.roots) :
    (s.index? root).isSome := by
  obtain ⟨ix, hix, rfl⟩ := List.mem_map.mp h
  unfold index?
  rw [List.find?_isSome]
  exact ⟨ix, hix, by simp [Path.same_eq]⟩

/-! ### Soundness -/

/-- What a set of indexes keeps under its own updates: its roots name different paths; each
index is consistent, placed under its root and keyed by its records' relative paths; and two
indexes that track one title are over the same root. -/
structure Sound (s : IndexSet) : Prop where
  /-- No two roots name the same path. -/
  roots_nodup : (s.roots.map Path.components).Nodup
  /-- Each index maps its paths and its titles one to one. -/
  consistent : ∀ ix ∈ s.indexes, ix.Consistent
  /-- Each record lies at its index's root followed by its key. -/
  placed : s.Placed
  /-- Each record names its key as its relative path. -/
  keyed : ∀ ix ∈ s.indexes, ix.Keyed
  /-- Indexes that track one title are over the same root. -/
  titles_apart : ∀ a ∈ s.indexes, ∀ b ∈ s.indexes, ∀ t,
    (a.pathForTitle? t).isSome → (b.pathForTitle? t).isSome →
      Path.components a.root = Path.components b.root

theorem roots_components (s : IndexSet) :
    s.roots.map Path.components = s.indexes.map fun ix => Path.components ix.root := by
  rw [roots, List.map_map]
  rfl

/-- In a sound set, an index is determined by the path its root names. -/
theorem Sound.eq_of_root {s : IndexSet} (h : s.Sound) {a b : FileIndex} (ha : a ∈ s.indexes)
    (hb : b ∈ s.indexes) (hab : Path.components a.root = Path.components b.root) : a = b := by
  have hn := h.roots_nodup
  rw [roots_components] at hn
  exact List.inj_on_of_nodup_map hn ha hb hab

/-- In a sound set, one index at most tracks a title. -/
theorem Sound.eq_of_tracks {s : IndexSet} (h : s.Sound) {a b : FileIndex} (ha : a ∈ s.indexes)
    (hb : b ∈ s.indexes) {t : String} (hat : (a.pathForTitle? t).isSome)
    (hbt : (b.pathForTitle? t).isSome) : a = b :=
  h.eq_of_root ha hb (h.titles_apart a ha b hb t hat hbt)

theorem sound_empty : ({} : IndexSet).Sound where
  roots_nodup := List.nodup_nil
  consistent _ h := by cases h
  placed _ h := by cases h
  keyed _ h := by cases h
  titles_apart _ h := by cases h

/-- Replacing each index by one over a root that names the same path, with some of its titles,
keeps a set sound when the new indexes are consistent, placed and keyed. -/
theorem Sound.map {s : IndexSet} (h : s.Sound) (f : FileIndex → FileIndex)
    (hroot : ∀ o ∈ s.indexes, Path.components (f o).root = Path.components o.root)
    (hc : ∀ o ∈ s.indexes, (f o).Consistent) (hp : ∀ o ∈ s.indexes, (f o).Placed)
    (hk : ∀ o ∈ s.indexes, (f o).Keyed)
    (ht : ∀ o ∈ s.indexes, ∀ u, ((f o).pathForTitle? u).isSome → (o.pathForTitle? u).isSome) :
    (⟨s.indexes.map f⟩ : IndexSet).Sound where
  roots_nodup := by
    rw [roots_components, List.map_map]
    have hn := h.roots_nodup
    rw [roots_components] at hn
    convert hn using 1
    exact List.map_congr_left fun o ho => hroot o ho
  consistent ix hix := by
    obtain ⟨o, ho, rfl⟩ := List.mem_map.mp hix
    exact hc o ho
  placed ix hix := by
    obtain ⟨o, ho, rfl⟩ := List.mem_map.mp hix
    exact hp o ho
  keyed ix hix := by
    obtain ⟨o, ho, rfl⟩ := List.mem_map.mp hix
    exact hk o ho
  titles_apart a ha b hb u hau hbu := by
    obtain ⟨oa, hoa, rfl⟩ := List.mem_map.mp ha
    obtain ⟨ob, hob, rfl⟩ := List.mem_map.mp hb
    rw [hroot oa hoa, hroot ob hob]
    exact h.titles_apart oa hoa ob hob u (ht oa hoa u hau) (ht ob hob u hbu)

/-- An index of an updated set is the new index, over the root it replaced, or an old index over
another root. -/
theorem mem_update {s : IndexSet} {ix a : FileIndex} (ha : a ∈ (s.update ix).indexes) :
    ∃ o ∈ s.indexes, (Path.components o.root = Path.components ix.root ∧ a = ix) ∨
      (Path.components o.root ≠ Path.components ix.root ∧ a = o) := by
  obtain ⟨o, ho, rfl⟩ := List.mem_map.mp ha
  refine ⟨o, ho, ?_⟩
  by_cases hs : Path.components o.root = Path.components ix.root
  · exact .inl ⟨hs, by simp [Path.same_eq, hs]⟩
  · exact .inr ⟨hs, by simp [Path.same_eq, hs]⟩

theorem mem_update_self {s : IndexSet} {ix₀ ix : FileIndex} (h₀ : ix₀ ∈ s.indexes)
    (hroot : Path.components ix.root = Path.components ix₀.root) : ix ∈ (s.update ix).indexes :=
  List.mem_map.mpr ⟨ix₀, h₀, by simp [Path.same_eq, hroot]⟩

/-- Replacing an index leaves the paths the roots name as they were. -/
theorem update_roots_components (s : IndexSet) (ix : FileIndex) :
    (s.update ix).roots.map Path.components = s.roots.map Path.components := by
  rw [roots_components, roots_components]
  unfold update
  rw [List.map_map]
  refine List.map_congr_left fun o _ => ?_
  by_cases hs : Path.components o.root = Path.components ix.root
  · simp [Path.same_eq, hs]
  · simp [Path.same_eq, hs]

/-- Replacing the index of a root keeps a set sound when the new index is consistent, placed and
keyed, and each title it tracks was tracked by the old index, or by no index over another
root. -/
theorem Sound.update {s : IndexSet} (h : s.Sound) {ix₀ ix : FileIndex} (h₀ : ix₀ ∈ s.indexes)
    (hroot : Path.components ix.root = Path.components ix₀.root) (hc : ix.Consistent)
    (hp : ix.Placed) (hk : ix.Keyed)
    (ht : ∀ u, (ix.pathForTitle? u).isSome → (ix₀.pathForTitle? u).isSome ∨
      ∀ o ∈ s.indexes, (o.pathForTitle? u).isSome →
        Path.components o.root = Path.components ix₀.root) :
    (s.update ix).Sound where
  roots_nodup := by
    rw [update_roots_components]
    exact h.roots_nodup
  consistent a ha := by
    obtain ⟨o, ho, ⟨-, rfl⟩ | ⟨-, rfl⟩⟩ := mem_update ha
    · exact hc
    · exact h.consistent a ho
  placed a ha := by
    obtain ⟨o, ho, ⟨-, rfl⟩ | ⟨-, rfl⟩⟩ := mem_update ha
    · exact hp
    · exact h.placed a ho
  keyed a ha := by
    obtain ⟨o, ho, ⟨-, rfl⟩ | ⟨-, rfl⟩⟩ := mem_update ha
    · exact hk
    · exact h.keyed a ho
  titles_apart a ha b hb u hau hbu := by
    have beside : ∀ o ∈ s.indexes, (ix.pathForTitle? u).isSome → (o.pathForTitle? u).isSome →
        Path.components ix.root = Path.components o.root := by
      intro o ho hix hou
      rw [hroot]
      rcases ht u hix with h₀u | hall
      · exact h.titles_apart ix₀ h₀ o ho u h₀u hou
      · exact (hall o ho hou).symm
    obtain ⟨oa, hoa, ⟨hsa, rfl⟩ | ⟨-, rfl⟩⟩ := mem_update ha <;>
      obtain ⟨ob, hob, ⟨hsb, rfl⟩ | ⟨-, rfl⟩⟩ := mem_update hb
    · rfl
    · exact beside b hob hau hbu
    · exact (beside a hoa hbu hau).symm
    · exact h.titles_apart a hoa b hob u hau hbu

/-- In a sound set, replacing the index of a root by one over the same root keeps the roots. -/
theorem update_roots {s : IndexSet} (h : s.Sound) {ix₀ ix : FileIndex} (h₀ : ix₀ ∈ s.indexes)
    (hroot : ix.root = ix₀.root) : (s.update ix).roots = s.roots := by
  unfold update roots
  rw [List.map_map]
  refine List.map_congr_left fun o ho => ?_
  by_cases hs : Path.components o.root = Path.components ix.root
  · have ho₀ : o = ix₀ := h.eq_of_root ho h₀ (by rw [hs, hroot])
    simp [Path.same_eq, ho₀, hroot]
  · simp [Path.same_eq, hs]

/-- After replacing the index of a root, that root's index is the new one. -/
theorem index?_update {s : IndexSet} {ix₀ ix : FileIndex} (h₀ : ix₀ ∈ s.indexes)
    (hroot : Path.components ix.root = Path.components ix₀.root) {q : String}
    (hq : Path.components q = Path.components ix.root) : (s.update ix).index? q = some ix := by
  have hfound : ((s.update ix).index? q).isSome := by
    unfold index?
    rw [List.find?_isSome]
    exact ⟨ix, mem_update_self h₀ hroot, by simp [Path.same_eq, hq]⟩
  obtain ⟨a, ha⟩ := Option.isSome_iff_exists.mp hfound
  obtain ⟨hmem, hsame⟩ := index?_eq_some ha
  obtain ⟨o, -, ⟨-, rfl⟩ | ⟨hne, rfl⟩⟩ := mem_update hmem
  · exact ha
  · exact absurd (hsame.trans hq) hne

theorem Sound.registerRoot {s : IndexSet} (h : s.Sound) (root : String) :
    (s.registerRoot root).1.Sound := by
  unfold IndexSet.registerRoot
  split
  · exact h
  · rename_i hreg
    have hfresh : ∀ ix ∈ s.indexes, Path.components ix.root ≠ Path.components root := by
      intro ix hix hsame
      apply hreg
      exact List.any_eq_true.mpr ⟨ix, hix, by simp [Path.same_eq, hsame]⟩
    have hmem : ∀ {ix}, ix ∈ s.indexes ++ [FileIndex.new root] →
        ix ∈ s.indexes ∨ ix = FileIndex.new root := by
      intro ix hix
      simpa using hix
    refine ⟨?_, ?_, ?_, ?_, ?_⟩
    · have hn := h.roots_nodup
      rw [roots_components] at hn ⊢
      rw [List.map_append, List.nodup_append]
      refine ⟨hn, List.nodup_singleton _, ?_⟩
      intro a ha b hb hab
      obtain ⟨ix, hix, rfl⟩ := List.mem_map.mp ha
      simp only [List.map_cons, List.map_nil, List.mem_singleton] at hb
      exact hfresh ix hix (hab.trans hb)
    · intro ix hix
      rcases hmem hix with hix | rfl
      · exact h.consistent ix hix
      · exact FileIndex.Consistent.new root
    · intro ix hix
      rcases hmem hix with hix | rfl
      · exact h.placed ix hix
      · exact FileIndex.placed_new root
    · intro ix hix
      rcases hmem hix with hix | rfl
      · exact h.keyed ix hix
      · exact FileIndex.keyed_new root
    · intro a ha b hb u hau hbu
      rcases hmem ha with ha | rfl
      · rcases hmem hb with hb | rfl
        · exact h.titles_apart a ha b hb u hau hbu
        · simp at hbu
      · simp at hau

theorem Sound.deregisterRoot {s : IndexSet} (h : s.Sound) (root : String) :
    (s.deregisterRoot root).1.Sound where
  roots_nodup := by
    have hn := h.roots_nodup
    rw [roots_components] at hn ⊢
    exact hn.sublist (List.filter_sublist.map _)
  consistent ix hix := h.consistent ix (List.mem_filter.mp hix).1
  placed := h.placed.deregisterRoot root
  keyed ix hix := h.keyed ix (List.mem_filter.mp hix).1
  titles_apart a ha b hb :=
    h.titles_apart a (List.mem_filter.mp ha).1 b (List.mem_filter.mp hb).1

theorem Sound.removePath {s : IndexSet} (h : s.Sound) (p : String) : (s.removePath p).1.Sound := by
  unfold IndexSet.removePath
  split
  · split
    · rename_i ix hix
      obtain ⟨hmem, -⟩ := index?_eq_some hix
      exact h.update hmem (by simp) ((h.consistent ix hmem).delete _)
        ((h.placed ix hmem).delete _) ((h.keyed ix hmem).delete _)
        fun u hu => .inl (FileIndex.tracks_of_delete hu)
    · exact h
  · exact h

theorem Sound.removeTitle {s : IndexSet} (h : s.Sound) (t : String) :
    (s.removeTitle t).1.Sound := by
  unfold IndexSet.removeTitle
  split
  · rename_i ix hix
    have hmem := List.mem_of_find?_eq_some hix
    exact h.update hmem (by simp) ((h.consistent ix hmem).removeTitle _)
      ((h.placed ix hmem).removeTitle _) ((h.keyed ix hmem).removeTitle _)
      fun u hu => .inl (FileIndex.tracks_of_removeTitle hu).2
  · exact h

theorem Sound.setBundled {s : IndexSet} (h : s.Sound) (p : String) (ts : List String) :
    (s.setBundled p ts).Sound := by
  unfold IndexSet.setBundled
  split
  · split
    · rename_i ix hix
      obtain ⟨hmem, -⟩ := index?_eq_some hix
      exact h.update hmem (by simp) ((h.consistent ix hmem).setBundled _ _)
        ((h.placed ix hmem).setBundled _ _) ((h.keyed ix hmem).setBundled _ _)
        fun u hu => .inl (by rwa [FileIndex.pathForTitle?_setBundled] at hu)
    · exact h
  · exact h

theorem Sound.dropTitleElsewhere {s : IndexSet} (h : s.Sound) (root t : String) :
    (s.dropTitleElsewhere root t).Sound := by
  refine h.map _ (fun o _ => ?_) (fun o ho => ?_) (fun o ho => ?_) (fun o ho => ?_)
    (fun o _ u hu => ?_)
  · split <;> simp
  · split
    · exact h.consistent o ho
    · exact (h.consistent o ho).removeTitle t
  · split
    · exact h.placed o ho
    · exact (h.placed o ho).removeTitle t
  · split
    · exact h.keyed o ho
    · exact (h.keyed o ho).removeTitle t
  · split at hu
    · exact hu
    · exact (FileIndex.tracks_of_removeTitle hu).2

theorem dropTitleElsewhere_roots (s : IndexSet) (root t : String) :
    (s.dropTitleElsewhere root t).roots = s.roots := by
  unfold dropTitleElsewhere roots
  rw [List.map_map]
  refine List.map_congr_left fun o _ => ?_
  simp only [Function.comp]
  split <;> simp

/-- Inserting a record keeps a set sound: the record's title is dropped from every other root
before it is tracked in its own. -/
theorem Sound.insert {s s' : IndexSet} (h : s.Sound) {r : FileRecord} {d : Option FileRecord}
    (hi : s.insert r = .ok (s', d)) : s'.Sound := by
  obtain ⟨root, rel, ix, hsplit, hix, rfl, -⟩ := insert_eq_ok hi
  have hdrop := h.dropTitleElsewhere root r.title
  obtain ⟨hmem, hroot⟩ := index?_eq_some hix
  refine hdrop.update hmem (by simp) ((hdrop.consistent ix hmem).set _ _)
    ((hdrop.placed ix hmem).set (by rw [hroot]; exact split_components hsplit))
    ((hdrop.keyed ix hmem).set rfl) fun u hu => ?_
  rw [FileIndex.pathForTitle?_set] at hu
  by_cases hu' : u = r.title
  · subst hu'
    refine .inr fun o ho hou => ?_
    obtain ⟨o₀, -, rfl⟩ := List.mem_map.mp ho
    by_cases hsame : Path.same o₀.root root = true
    · rw [if_pos hsame, hroot]
      rw [Path.same_eq, decide_eq_true_iff] at hsame
      exact hsame
    · rw [if_neg hsame] at hou
      exact absurd rfl (FileIndex.tracks_of_removeTitle hou).1
  · simp only [hu', if_false] at hu
    split at hu
    · cases hu
    · exact .inl hu

/-- Every update keeps a set sound. -/
theorem Sound.apply {s : IndexSet} (h : s.Sound) : ∀ o, (s.apply o).Sound
  | .registerRoot root => h.registerRoot root
  | .deregisterRoot root => h.deregisterRoot root
  | .insert r => by
    cases hi : s.insert r with
    | error e =>
      simp only [IndexSet.apply, hi]
      exact h
    | ok v =>
      obtain ⟨s', d⟩ := v
      simp only [IndexSet.apply, hi]
      exact h.insert hi
  | .removePath p => h.removePath p
  | .removeTitle t => h.removeTitle t
  | .setBundled p ts => h.setBundled p ts

theorem Sound.run {s : IndexSet} (h : s.Sound) (ops : List IndexSetOp) : (s.run ops).Sound := by
  induction ops generalizing s with
  | nil => exact h
  | cons o ops ih => exact ih (h.apply o)

/-! ### Inserting a record -/

/-- Why an insertion fails: the path does not split, or its root has no index. -/
theorem insert_eq_error {s : IndexSet} {r : FileRecord} {e : IndexError}
    (h : s.insert r = .error e) :
    s.split r.absolutePath = .error e ∨ ∃ root rel, s.split r.absolutePath = .ok (root, rel) ∧
      (s.dropTitleElsewhere root r.title).index? root = none := by
  unfold IndexSet.insert at h
  split at h
  · rename_i hsplit
    cases h
    exact .inl hsplit
  · rename_i root rel hsplit
    dsimp only at h
    split at h
    · cases h
    · rename_i hix
      exact .inr ⟨root, rel, hsplit, hix⟩

/-- Inserting a record fails exactly when no registered root begins its path, and then with
`noOwningRoot`. -/
theorem insert_eq_error_iff (s : IndexSet) (r : FileRecord) (e : IndexError) :
    s.insert r = .error e ↔ e = .noOwningRoot r.absolutePath ∧
      ∀ root ∈ s.roots, Path.startsWith r.absolutePath root = false := by
  constructor
  · intro h
    rcases insert_eq_error h with hsplit | ⟨root, rel, hsplit, hix⟩
    · rcases split_cases s r.absolutePath with ⟨root, rel, -, hok⟩ | ⟨ho, herr⟩
      · rw [hok] at hsplit
        cases hsplit
      · rw [herr] at hsplit
        cases hsplit
        exact ⟨rfl, (owningRoot?_eq_none_iff s _).mp ho⟩
    · rcases split_cases s r.absolutePath with ⟨root', rel', ho, hok⟩ | ⟨-, herr⟩
      · rw [hok] at hsplit
        cases hsplit
        have hfound := index?_isSome (s := s.dropTitleElsewhere root r.title)
          (by rw [dropTitleElsewhere_roots]; exact (owns_of_owningRoot? ho).1)
        rw [hix] at hfound
        cases hfound
      · rw [herr] at hsplit
        cases hsplit
  · rintro ⟨rfl, hnone⟩
    obtain ⟨-, herr⟩ := (split_cases s r.absolutePath).resolve_left (by
      rintro ⟨root, rel, ho, -⟩
      rw [(owningRoot?_eq_none_iff s _).mpr hnone] at ho
      cases ho)
    unfold IndexSet.insert
    rw [herr]

/-- A record whose path a registered root begins is taken. -/
theorem insert_ok_of_startsWith {s : IndexSet} {r : FileRecord} {root : String}
    (hr : root ∈ s.roots) (h : Path.startsWith r.absolutePath root = true) :
    ∃ v, s.insert r = .ok v := by
  cases hi : s.insert r with
  | error e =>
    obtain ⟨-, hnone⟩ := (insert_eq_error_iff s r e).mp hi
    rw [hnone root hr] at h
    cases h
  | ok v => exact ⟨v, rfl⟩

/-- After a record is inserted into a sound set, it is found by its title and at its path, with
the part of its path after its owning root as its relative path. -/
theorem Sound.insert_found {s s' : IndexSet} (h : s.Sound) {r : FileRecord}
    {d : Option FileRecord} (hi : s.insert r = .ok (s', d)) :
    ∃ root rel, s.split r.absolutePath = .ok (root, rel) ∧
      s'.recordForTitle? r.title = some { r with relativePath := rel } ∧
      s'.recordAt? r.absolutePath = some { r with relativePath := rel } := by
  obtain ⟨root, rel, ix, hsplit, hix, rfl, -⟩ := insert_eq_ok hi
  have hdrop := h.dropTitleElsewhere root r.title
  obtain ⟨hmem, hroot⟩ := index?_eq_some hix
  have hc := hdrop.consistent ix hmem
  have hget : (ix.set rel { r with relativePath := rel }).1.get? rel =
      some { r with relativePath := rel } := by
    rw [(hc.set rel _).refines.get, FileIndex.model_set hc]
    simp [IndexModel.set]
  have hpath : (ix.set rel { r with relativePath := rel }).1.pathForTitle? r.title = some rel := by
    rw [FileIndex.pathForTitle?_set]
    simp
  refine ⟨root, rel, hsplit, ?_, ?_⟩
  · refine findSome?_eq_of_answers ⟨_, mem_update_self hmem (by simp), by simp [hpath, hget]⟩
      fun a ha => ?_
    obtain ⟨o, ho, ⟨-, rfl⟩ | ⟨hne, rfl⟩⟩ := mem_update ha
    · exact .inr (by simp [hpath, hget])
    · left
      obtain ⟨o₀, -, rfl⟩ := List.mem_map.mp ho
      have hsame : Path.same o₀.root root = false := by
        rw [Path.same_eq, decide_eq_false_iff_not]
        intro hs
        apply hne
        simp [Path.same_eq, hs, hroot]
      simp only [hsame, Bool.false_eq_true, if_false, FileIndex.pathForTitle?_removeTitle,
        if_true, Option.bind_none]
  · unfold recordAt?
    rw [split_eq_of_roots (update_roots hdrop hmem (by simp)), split_eq_of_roots
      (dropTitleElsewhere_roots s root r.title), hsplit]
    dsimp only
    rw [index?_update hmem (by simp) (by simp [hroot])]
    exact hget

/-! ### Titles across roots -/

/-- Summing the sizes of indexes over roots naming different paths, where indexes tracking one
title are over one root, counts the titles they track together. -/
theorem foldl_len_eq_ncard (l : List FileIndex) (hc : ∀ ix ∈ l, ix.Consistent)
    (hn : (l.map fun ix => Path.components ix.root).Nodup)
    (ha : ∀ a ∈ l, ∀ b ∈ l, ∀ t, t ∈ a.titles → t ∈ b.titles →
      Path.components a.root = Path.components b.root) (n : Nat) :
    (l.map FileIndex.len).foldl (· + ·) n = n + {t | ∃ ix ∈ l, t ∈ ix.titles}.ncard ∧
      {t | ∃ ix ∈ l, t ∈ ix.titles}.Finite := by
  induction l generalizing n with
  | nil => simp
  | cons a l ih =>
    rw [List.map_cons, List.nodup_cons] at hn
    obtain ⟨hrest, hfin⟩ := ih (fun ix hix => hc ix (List.mem_cons_of_mem a hix)) hn.2
      (fun x hx y hy => ha x (List.mem_cons_of_mem a hx) y (List.mem_cons_of_mem a hy))
      (n + a.len)
    have hsplit : {t | ∃ ix ∈ a :: l, t ∈ ix.titles} =
        a.titles ∪ {t | ∃ ix ∈ l, t ∈ ix.titles} := by
      ext t
      simp
    -- the first index shares no title with the rest: their roots differ
    have hdisj : Disjoint a.titles {t | ∃ ix ∈ l, t ∈ ix.titles} := by
      rw [Set.disjoint_left]
      rintro t hta ⟨b, hb, htb⟩
      exact hn.1 (List.mem_map.mpr ⟨b, hb, (ha a List.mem_cons_self b
        (List.mem_cons_of_mem a hb) t hta htb).symm⟩)
    have hafin := (hc a List.mem_cons_self).titles_finite
    rw [hsplit, Set.ncard_union_eq hdisj hafin hfin,
      ← (hc a List.mem_cons_self).len_eq_ncard_titles, List.map_cons, List.foldl_cons, hrest]
    exact ⟨by omega, hafin.union hfin⟩

/-- In a sound set, a title has a record exactly when some index tracks it. -/
theorem Sound.isSome_recordForTitle? {s : IndexSet} (h : s.Sound) (t : String) :
    (s.recordForTitle? t).isSome ↔ ∃ ix ∈ s.indexes, t ∈ ix.titles := by
  unfold recordForTitle?
  rw [List.findSome?_isSome_iff]
  refine exists_congr fun ix => and_congr_right fun hix => ?_
  simp only [FileIndex.titles, Set.mem_ofPred_eq]
  refine ⟨FileIndex.tracks_of_isSome_bind, fun ht => ?_⟩
  obtain ⟨q, hq⟩ := Option.isSome_iff_exists.mp ht
  obtain ⟨r, hr, -⟩ := (h.consistent ix hix).get?_pathForTitle? hq
  simp [hq, hr]

/-- A sound set counts the different titles it tracks. -/
theorem Sound.len_eq_ncard {s : IndexSet} (h : s.Sound) :
    s.len = {t | (s.recordForTitle? t).isSome}.ncard := by
  have hn := h.roots_nodup
  rw [roots_components] at hn
  have hcount := (foldl_len_eq_ncard s.indexes h.consistent hn
    (fun a ha b hb t => h.titles_apart a ha b hb t) 0).1
  rw [len, hcount, Nat.zero_add]
  congr 1
  ext t
  exact (h.isSome_recordForTitle? t).symm

/-- In a sound set, the record found for a title does not depend on the order of the roots: one
index at most answers. -/
theorem Sound.recordForTitle?_perm {s : IndexSet} (h : s.Sound) {l : List FileIndex}
    (hl : l.Perm s.indexes) (t : String) :
    (⟨l⟩ : IndexSet).recordForTitle? t = s.recordForTitle? t := by
  refine findSome?_perm_of_unique hl fun a ha b hb hat hbt => ?_
  exact h.eq_of_tracks (hl.mem_iff.mp ha) (hl.mem_iff.mp hb) (FileIndex.tracks_of_isSome_bind hat)
    (FileIndex.tracks_of_isSome_bind hbt)

/-- Every record of a sound set lies under the root of its index at its key: it names the key as
its relative path, and its absolute path begins with the root and has the key after it. -/
theorem Sound.stored {s : IndexSet} (h : s.Sound) {ix : FileIndex} (hix : ix ∈ s.indexes)
    {e : String × FileRecord} (he : e ∈ ix.entries) :
    Path.components e.2.relativePath = Path.components e.1 ∧
      Path.startsWith e.2.absolutePath ix.root = true ∧
      ∃ k, Path.stripPrefix? e.2.absolutePath ix.root = some k ∧
        Path.components k = Path.components e.1 :=
  ⟨h.keyed ix hix e he, Path.stripPrefix?_of_components (h.placed ix hix e he)⟩

/-! ### What a built set guarantees -/

/-- What a set of indexes guarantees once it has been built from nothing by registering and
dropping roots and by tracking and forgetting records. -/
structure Coherent (s : IndexSet) : Prop where
  /-- Each index maps its paths and its titles one to one. -/
  consistent : ∀ ix ∈ s.indexes, ix.Consistent
  /-- Two indexes that track one title are the same index. -/
  one_index_per_title : ∀ a ∈ s.indexes, ∀ b ∈ s.indexes, ∀ t,
    (a.pathForTitle? t).isSome → (b.pathForTitle? t).isSome → a = b
  /-- The size of the set is the number of different titles it tracks. -/
  len_eq_ncard : s.len = {t | (s.recordForTitle? t).isSome}.ncard
  /-- The record found for a title is the same whatever the order of the roots. -/
  recordForTitle?_perm : ∀ l, l.Perm s.indexes → ∀ t,
    (⟨l⟩ : IndexSet).recordForTitle? t = s.recordForTitle? t
  /-- Each record of an index names its key as its relative path, and its absolute path begins
  with the index's root and has the key after it. -/
  stored : ∀ ix ∈ s.indexes, ∀ e ∈ ix.entries,
    Path.components e.2.relativePath = Path.components e.1 ∧
      Path.startsWith e.2.absolutePath ix.root = true ∧
      ∃ k, Path.stripPrefix? e.2.absolutePath ix.root = some k ∧
        Path.components k = Path.components e.1
  /-- The root owning a path is the registered root with most components that begins it. -/
  owner_iff : ∀ p root, s.owningRoot? p = some root ↔ s.Owns p root
  /-- At most one registered root owns a path. -/
  owner_unique : ∀ p a b, s.Owns p a → s.Owns p b → a = b
  /-- Inserting a record fails exactly when no registered root begins its path, and then it
  fails with `noOwningRoot`. -/
  insert_error : ∀ r e, s.insert r = .error e ↔
    e = .noOwningRoot r.absolutePath ∧ ∀ root ∈ s.roots, Path.startsWith r.absolutePath root = false
  /-- An inserted record is found by its title and at its path, with the part of its path after
  its owning root as its relative path. -/
  insert_found : ∀ r s' d, s.insert r = .ok (s', d) →
    ∃ root rel, s.split r.absolutePath = .ok (root, rel) ∧
      s'.recordForTitle? r.title = some { r with relativePath := rel } ∧
      s'.recordAt? r.absolutePath = some { r with relativePath := rel }

/-- A sound set is coherent. -/
theorem Sound.coherent {s : IndexSet} (h : s.Sound) : s.Coherent where
  consistent := h.consistent
  one_index_per_title _ ha _ hb _ := h.eq_of_tracks ha hb
  len_eq_ncard := h.len_eq_ncard
  recordForTitle?_perm _ hl := h.recordForTitle?_perm hl
  stored _ hix _ he := h.stored hix he
  owner_iff := owningRoot?_eq_some_iff h.roots_nodup
  owner_unique _ _ _ := Owns.unique h.roots_nodup
  insert_error := insert_eq_error_iff s
  insert_found _ _ _ := h.insert_found

/-- Every set of indexes reached from the empty set by registering and dropping roots, inserting
records, removing paths or titles and setting bundled titles is coherent. -/
theorem run_coherent (ops : List IndexSetOp) : (({} : IndexSet).run ops).Coherent :=
  (sound_empty.run ops).coherent

/-! ### Deregistering a root -/

/-- Deregistering a root forgets its index and keeps the index of every other root. -/
theorem index?_deregisterRoot (s : IndexSet) (root r : String) :
    (s.deregisterRoot root).1.index? r = if Path.same r root then none else s.index? r := by
  unfold deregisterRoot index?
  split
  · rename_i hr
    refine List.find?_eq_none.mpr fun ix hix hsame => ?_
    have hkept := (List.mem_filter.mp hix).2
    simp only [Path.same_eq, decide_eq_true_eq, Bool.not_eq_eq_eq_not, Bool.not_true,
      decide_eq_false_iff_not] at hr hsame hkept
    exact hkept (hsame.trans hr)
  · rename_i hr
    rw [List.find?_filter]
    congr 1
    funext ix
    by_cases hix : Path.same ix.root r = true
    · have hne : Path.same ix.root root = false := by
        simp only [Path.same_eq, decide_eq_true_eq, decide_eq_false_iff_not] at hix hr ⊢
        exact fun h => hr (hix.symm.trans h)
      simp [hix, hne]
    · simp [hix]

/-- The roots left after deregistering one are the others. -/
theorem mem_roots_deregisterRoot {s : IndexSet} {root q : String} :
    q ∈ (s.deregisterRoot root).1.roots ↔ q ∈ s.roots ∧ Path.same q root = false := by
  unfold deregisterRoot roots
  simp only [List.mem_map, List.mem_filter, Bool.not_eq_eq_eq_not, Bool.not_true]
  constructor
  · rintro ⟨ix, ⟨hix, hsame⟩, rfl⟩
    exact ⟨⟨ix, hix, rfl⟩, hsame⟩
  · rintro ⟨⟨ix, hix, rfl⟩, hsame⟩
    exact ⟨ix, ⟨hix, hsame⟩, rfl⟩

/-- A root that another root's removal leaves registered still owns what it owned. -/
theorem Owns.deregisterRoot {s : IndexSet} {x q root : String} (h : s.Owns x q)
    (hq : Path.same q root = false) : (s.deregisterRoot root).1.Owns x q :=
  ⟨mem_roots_deregisterRoot.mpr ⟨h.1, hq⟩, h.2.1,
    fun r hr hxr => h.2.2 r (mem_roots_deregisterRoot.mp hr).1 hxr⟩

end IndexSet

end WikiSync
