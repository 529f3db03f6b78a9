import WikiSync.Index.IndexSet
import WikiSync.Proofs.Index.Refinement
import WikiSync.Proofs.Path.Strip

/-!
# Where tracked records lie

An index tracks each record under its path relative to the index's root, while the record keeps
its absolute path. The two agree: the absolute path names the root followed by the key
(`FileIndex.Placed`). Inserting a record into a set of indexes splits its absolute path at the
owning root and tracks it under the part after the root, which names the rest of the path
(`split_components`), so every update of an index set keeps every index placed
(`IndexSet.Placed.insert` and its siblings). In a placed set, the record an insertion displaces
from a path lies where the inserted record does (`insert_displaced`): its absolute path may be
spelt differently but has the same components.
-/

namespace WikiSync

/-- A value found for a path is the value of an entry whose key names that path. -/
theorem exists_mem_of_lookupKey {α : Type} {l : List (String × α)} {k : List Component} {v : α}
    (h : lookupKey l k = some v) : ∃ e ∈ l, Path.components e.1 = k ∧ e.2 = v := by
  unfold lookupKey at h
  obtain ⟨e, he, rfl⟩ := Option.map_eq_some_iff.mp h
  exact ⟨e, List.mem_of_find?_eq_some he, by simpa using List.find?_some he, rfl⟩

namespace FileIndex

/-- Every record of an index lies where its key says: its absolute path names the index's root
followed by the key. -/
def Placed (ix : FileIndex) : Prop :=
  ∀ e ∈ ix.entries,
    Path.components e.2.absolutePath = Path.components ix.root ++ Path.components e.1

theorem mem_eraseKey {α : Type} {l : List (String × α)} {p : String} {e : String × α}
    (h : e ∈ eraseKey l p) : e ∈ l :=
  (List.mem_filter.mp h).1

theorem mem_setKey {α : Type} {l : List (String × α)} {p : String} {v : α} {e : String × α}
    (h : e ∈ setKey l p v) : e ∈ l ∨ (Path.components e.1 = Path.components p ∧ e.2 = v) := by
  unfold setKey at h
  split at h
  · obtain ⟨e', he', rfl⟩ := List.mem_map.mp h
    split
    · rename_i hsame
      rw [Path.same_eq, decide_eq_true_iff] at hsame
      exact .inr ⟨hsame, rfl⟩
    · exact .inl he'
  · rcases List.mem_append.mp h with h | h
    · exact .inl h
    · rw [List.mem_singleton] at h
      exact .inr ⟨by rw [h], by rw [h]⟩

/-- An index whose entries are among those of a placed index over the same root is placed. -/
theorem Placed.mono {ix ix' : FileIndex} (h : ix.Placed) (hroot : ix'.root = ix.root)
    (hsub : ∀ e ∈ ix'.entries, e ∈ ix.entries) : ix'.Placed := by
  intro e he
  rw [hroot]
  exact h e (hsub e he)

theorem placed_new (root : String) : (new root).Placed := by
  intro e he
  cases he

/-- Tracking a record at a path keeps an index placed when the record lies at that path. -/
theorem Placed.set {ix : FileIndex} (h : ix.Placed) {p : String} {r : FileRecord}
    (hr : Path.components r.absolutePath = Path.components ix.root ++ Path.components p) :
    (ix.set p r).1.Placed := by
  intro e he
  have hroot : (ix.set p r).1.root = ix.root := by
    unfold FileIndex.set
    dsimp only
    repeat' split
    all_goals rfl
  rw [set_entries] at he
  rw [hroot]
  rcases mem_setKey he with he | ⟨hk, hv⟩
  · apply h e
    split at he
    · split at he
      · exact he
      · exact mem_eraseKey he
    · exact he
  · rw [hv, hk, hr]

theorem Placed.delete {ix : FileIndex} (h : ix.Placed) (p : String) : (ix.delete p).1.Placed := by
  apply h.mono
  · unfold FileIndex.delete
    split <;> rfl
  · intro e he
    unfold FileIndex.delete at he
    split at he
    · exact mem_eraseKey he
    · exact he

theorem Placed.removeTitle {ix : FileIndex} (h : ix.Placed) (t : String) :
    (ix.removeTitle t).1.Placed := by
  apply h.mono
  · unfold FileIndex.removeTitle
    split <;> rfl
  · intro e he
    unfold FileIndex.removeTitle at he
    split at he
    · exact mem_eraseKey he
    · exact he

theorem Placed.setBundled {ix : FileIndex} (h : ix.Placed) (p : String) (ts : List String) :
    (ix.setBundled p ts).Placed := by
  apply h.mono
  · unfold FileIndex.setBundled
    split <;> rfl
  · intro e he
    unfold FileIndex.setBundled at he
    split at he <;> exact he

/-- The record a placed index displaces from a path lies at that path. -/
theorem Placed.set_snd {ix : FileIndex} (h : ix.Placed) {p : String} {r old : FileRecord}
    (hd : (ix.set p r).2 = some old) :
    Path.components old.absolutePath = Path.components ix.root ++ Path.components p := by
  rw [FileIndex.set_snd] at hd
  obtain ⟨hfound, -⟩ := Option.filter_eq_some_iff.mp hd
  obtain ⟨e, he, hk, rfl⟩ := exists_mem_of_lookupKey hfound
  rw [h e he, hk]

end FileIndex

namespace IndexSet

/-- Every index of the set is placed. -/
def Placed (s : IndexSet) : Prop :=
  ∀ ix ∈ s.indexes, ix.Placed

/-- A set of one fresh index is placed. -/
theorem placed_withRoot (root : String) : (withRoot root).Placed := by
  intro ix hix
  simp only [withRoot, List.mem_singleton] at hix
  rw [hix]
  exact FileIndex.placed_new root

theorem Placed.update {s : IndexSet} (h : s.Placed) {ix : FileIndex} (hix : ix.Placed) :
    (s.update ix).Placed := by
  intro ix' hix'
  obtain ⟨old, hold, rfl⟩ := List.mem_map.mp hix'
  split
  · exact hix
  · exact h old hold

theorem Placed.registerRoot {s : IndexSet} (h : s.Placed) (root : String) :
    (s.registerRoot root).1.Placed := by
  unfold IndexSet.registerRoot
  split
  · exact h
  · intro ix hix
    rcases List.mem_append.mp hix with hix | hix
    · exact h ix hix
    · rw [List.mem_singleton.mp hix]
      exact FileIndex.placed_new root

theorem Placed.deregisterRoot {s : IndexSet} (h : s.Placed) (root : String) :
    (s.deregisterRoot root).1.Placed := fun ix hix =>
  h ix (List.mem_filter.mp hix).1

/-- The index found for a root is one of the set's, over a root of the same components. -/
theorem index?_eq_some {s : IndexSet} {root : String} {ix : FileIndex}
    (h : s.index? root = some ix) :
    ix ∈ s.indexes ∧ Path.components ix.root = Path.components root := by
  unfold index? at h
  refine ⟨List.mem_of_find?_eq_some h, ?_⟩
  have hsame := List.find?_some h
  rw [Path.same_eq, decide_eq_true_iff] at hsame
  exact hsame

/-- A path split at its owning root is that root followed by the part after it. -/
theorem split_components {s : IndexSet} {p root rel : String} (h : s.split p = .ok (root, rel)) :
    Path.components p = Path.components root ++ Path.components rel := by
  unfold split at h
  split at h
  · split at h
    · rename_i hrel
      cases h
      exact Path.components_stripPrefix hrel
    · cases h
  · cases h

theorem Placed.removePath {s : IndexSet} (h : s.Placed) (p : String) :
    (s.removePath p).1.Placed := by
  unfold IndexSet.removePath
  split
  · split
    · rename_i hix
      exact h.update ((h _ (index?_eq_some hix).1).delete _)
    · exact h
  · exact h

theorem Placed.removeTitle {s : IndexSet} (h : s.Placed) (t : String) :
    (s.removeTitle t).1.Placed := by
  unfold IndexSet.removeTitle
  split
  · rename_i ix hix
    exact h.update ((h ix (List.mem_of_find?_eq_some hix)).removeTitle t)
  · exact h

theorem Placed.setBundled {s : IndexSet} (h : s.Placed) (p : String) (ts : List String) :
    (s.setBundled p ts).Placed := by
  unfold IndexSet.setBundled
  split
  · split
    · rename_i hix
      exact h.update ((h _ (index?_eq_some hix).1).setBundled _ _)
    · exact h
  · exact h

/-- The set with a title dropped from every root but one, as inserting a record first does. -/
def dropTitleElsewhere (s : IndexSet) (root t : String) : IndexSet :=
  ⟨s.indexes.map fun ix => if Path.same ix.root root then ix else (ix.removeTitle t).1⟩

theorem Placed.dropTitleElsewhere {s : IndexSet} (h : s.Placed) (root t : String) :
    (s.dropTitleElsewhere root t).Placed := by
  intro ix hix
  obtain ⟨ix₀, hix₀, rfl⟩ := List.mem_map.mp hix
  split
  · exact h ix₀ hix₀
  · exact (h ix₀ hix₀).removeTitle t

/-- What a successful insertion does: the record's path splits at its owning root, the title is
dropped from the other roots, and the record is tracked in that root's index under the part of
its path after the root. -/
theorem insert_eq_ok {s s' : IndexSet} {r : FileRecord} {d : Option FileRecord}
    (hi : s.insert r = .ok (s', d)) :
    ∃ root rel ix, s.split r.absolutePath = .ok (root, rel) ∧
      (s.dropTitleElsewhere root r.title).index? root = some ix ∧
      s' = (s.dropTitleElsewhere root r.title).update
        (ix.set rel { r with relativePath := rel }).1 ∧
      d = (ix.set rel { r with relativePath := rel }).2 := by
  unfold IndexSet.insert at hi
  split at hi
  · cases hi
  · rename_i root rel hsplit
    dsimp only at hi
    split at hi
    · rename_i ix hix
      cases hi
      exact ⟨root, rel, ix, hsplit, hix, rfl, rfl⟩
    · cases hi

/-- Inserting a record keeps a set placed: the record goes in under the part of its path after
the root that owns it. -/
theorem Placed.insert {s s' : IndexSet} (h : s.Placed) {r : FileRecord} {d : Option FileRecord}
    (hi : s.insert r = .ok (s', d)) : s'.Placed := by
  obtain ⟨root, rel, ix, hsplit, hix, rfl, -⟩ := insert_eq_ok hi
  have hothers := h.dropTitleElsewhere root r.title
  obtain ⟨hmem, hroot⟩ := index?_eq_some hix
  exact hothers.update ((hothers ix hmem).set (by rw [hroot]; exact split_components hsplit))

/-- The record an insertion displaces from a placed set lies where the inserted record does. -/
theorem insert_displaced {s s' : IndexSet} (h : s.Placed) {r old : FileRecord}
    (hi : s.insert r = .ok (s', some old)) :
    Path.components old.absolutePath = Path.components r.absolutePath := by
  obtain ⟨root, rel, ix, hsplit, hix, -, hd⟩ := insert_eq_ok hi
  obtain ⟨hmem, hroot⟩ := index?_eq_some hix
  rw [((h.dropTitleElsewhere root r.title) ix hmem).set_snd hd.symm, hroot,
    split_components hsplit]

end IndexSet

end WikiSync
