import WikiSync.Proofs.Index.Reach

/-!
# The record found for a title

In a sound set the record found for a title is the record of that title at some path of some
index: one index at most tracks the title, and it holds the record at one path
(`Sound.recordForTitle?_eq_some_iff`). A record found at a path is therefore the record found
for its title, and it lies at that path (`Sound.recordForTitle?_of_recordAt?`,
`Sound.components_of_recordAt?`).

Registering a root finds every title's record as before, and leaves nothing at a path that no
root held (`recordForTitle?_registerRoot`, `Sound.recordAt?_registerRoot_of_unowned`).
Inserting a record keeps the record of every other title, unless that record was the one
found at the inserted record's path: the insertion displaces it, and its title is then tracked
nowhere (`Sound.recordForTitle?_insert_of_ne`). A record of another title that lies at the same
path but in the index of a shallower root is not found at the path, and is kept.
-/

namespace WikiSync

namespace IndexModel

/-- After tracking a record, a record of another title is held where it was held before, away
from the record's path. -/
theorem set_records_eq_some_of_ne (m : IndexModel) (k k' : List Component) {r x : FileRecord}
    (hx : x.title ≠ r.title) :
    (m.set k r).1.records k' = some x ↔ k' ≠ k ∧ m.records k' = some x := by
  unfold set titleAt
  by_cases hk : k' = k
  · simp only [hk, if_true, Option.some_inj, ne_eq, not_true_eq_false, false_and, iff_false]
    rintro rfl
    exact hx rfl
  · simp only [hk, if_false, ne_eq, not_false_eq_true, true_and]
    split
    · rename_i htitle
      simp only [reduceCtorEq, false_iff]
      intro hkx
      rw [hkx, Option.map_some, Option.some_inj] at htitle
      exact hx htitle
    · rfl

/-- After dropping a title, a record of another title is held where it was held before. -/
theorem removeTitle_records_eq_some_of_ne (m : IndexModel) (t : String) (k : List Component)
    {x : FileRecord} (hx : x.title ≠ t) :
    (m.removeTitle t).records k = some x ↔ m.records k = some x := by
  unfold removeTitle titleAt
  dsimp only
  split
  · rename_i htitle
    simp only [reduceCtorEq, false_iff]
    intro hkx
    rw [hkx, Option.map_some, Option.some_inj] at htitle
    exact hx htitle
  · rfl

end IndexModel

namespace FileIndex

/-- The record at a path of an index depends only on the path's components. -/
theorem get?_congr (ix : FileIndex) {p q : String}
    (h : Path.components p = Path.components q) : ix.get? p = ix.get? q := by
  simp only [FileIndex.get?, Path.same, h]

/-- A consistent index answers a title with a record exactly when it holds the record, of that
title, at one of its paths. -/
theorem Consistent.answer_eq_some_iff {ix : FileIndex} (hc : ix.Consistent) (t : String)
    (x : FileRecord) :
    (ix.pathForTitle? t).bind ix.get? = some x ↔
      ∃ k, ix.model.records k = some x ∧ x.title = t := by
  constructor
  · intro h
    cases hq : ix.pathForTitle? t with
    | none =>
      rw [hq] at h
      cases h
    | some q =>
      rw [hq, Option.bind_some] at h
      obtain ⟨r, hr, hrt⟩ := hc.get?_pathForTitle? hq
      rw [h, Option.some_inj] at hr
      subst hr
      exact ⟨Path.components q, by rw [← hc.refines.get]; exact h, hrt⟩
  · rintro ⟨k, hk, rfl⟩
    have hpath := (hc.pathForTitle_iff x.title k).mpr (by simp [IndexModel.titleAt, hk])
    obtain ⟨q, hq, hqk⟩ := Option.map_eq_some_iff.mp hpath
    rw [hq, Option.bind_some, hc.refines.get, hqk, hk]

/-- A consistent index holding a record of a title tracks the title. -/
theorem Consistent.tracks_of_records {ix : FileIndex} (hc : ix.Consistent) {k : List Component}
    {x : FileRecord} (hk : ix.model.records k = some x) : (ix.pathForTitle? x.title).isSome :=
  tracks_of_isSome_bind (by rw [(hc.answer_eq_some_iff x.title x).mpr ⟨k, hk, rfl⟩]; rfl)

/-- Dropping a title from a consistent index answers every other title as before. -/
theorem Consistent.answer_removeTitle_of_ne {ix : FileIndex} (hc : ix.Consistent) {t t' : String}
    (ht : t ≠ t') :
    ((ix.removeTitle t').1.pathForTitle? t).bind (ix.removeTitle t').1.get? =
      (ix.pathForTitle? t).bind ix.get? := by
  refine Option.ext fun x => ?_
  rw [(hc.removeTitle t').answer_eq_some_iff, hc.answer_eq_some_iff, model_removeTitle hc]
  refine exists_congr fun k => ?_
  constructor
  · rintro ⟨hk, rfl⟩
    exact ⟨(IndexModel.removeTitle_records_eq_some_of_ne _ _ _ ht).mp hk, rfl⟩
  · rintro ⟨hk, rfl⟩
    exact ⟨(IndexModel.removeTitle_records_eq_some_of_ne _ _ _ ht).mpr hk, rfl⟩

/-- Tracking a record in a consistent index answers every other title as before, unless the
record of that title was at the record's path, where it is displaced. -/
theorem Consistent.answer_set_of_ne {ix : FileIndex} (hc : ix.Consistent) (p : String)
    {r : FileRecord} {t : String} (ht : t ≠ r.title) :
    ((ix.set p r).1.pathForTitle? t).bind (ix.set p r).1.get? =
      if (ix.model.records (Path.components p)).map (·.title) = some t then none
      else (ix.pathForTitle? t).bind ix.get? := by
  refine Option.ext fun x => ?_
  rw [(hc.set p r).answer_eq_some_iff, model_set hc]
  split
  · rename_i hdisp
    obtain ⟨y, hy, hyt⟩ := Option.map_eq_some_iff.mp hdisp
    simp only [reduceCtorEq, iff_false, not_exists, not_and]
    intro k hk hxt
    obtain ⟨hne, hkx⟩ := (IndexModel.set_records_eq_some_of_ne _ _ _ (hxt ▸ ht)).mp hk
    exact hne (hc.titles_inj k _ t (by simp [IndexModel.titleAt, hkx, hxt])
      (by simp [IndexModel.titleAt, hy, hyt]))
  · rename_i hkeep
    rw [hc.answer_eq_some_iff]
    refine exists_congr fun k => ?_
    constructor
    · rintro ⟨hk, rfl⟩
      exact ⟨((IndexModel.set_records_eq_some_of_ne _ _ _ ht).mp hk).2, rfl⟩
    · rintro ⟨hk, rfl⟩
      refine ⟨(IndexModel.set_records_eq_some_of_ne _ _ _ ht).mpr ⟨?_, hk⟩, rfl⟩
      rintro rfl
      exact hkeep (by rw [hk]; rfl)

end FileIndex

namespace IndexSet

/-- In a sound set, the record found for a title is a record of that title held at a path of
one of the indexes. -/
theorem Sound.recordForTitle?_eq_some_iff {s : IndexSet} (h : s.Sound) (t : String)
    (x : FileRecord) :
    s.recordForTitle? t = some x ↔
      ∃ ix ∈ s.indexes, ∃ k, ix.model.records k = some x ∧ x.title = t := by
  unfold recordForTitle?
  rw [findSome?_eq_some_iff_of_unique fun a ha b hb hat hbt =>
    h.eq_of_tracks ha hb (FileIndex.tracks_of_isSome_bind hat)
      (FileIndex.tracks_of_isSome_bind hbt)]
  exact exists_congr fun ix => and_congr_right fun hix =>
    (h.consistent ix hix).answer_eq_some_iff t x

/-- In a sound set, a record found at a path is the record found for its title. -/
theorem Sound.recordForTitle?_of_recordAt? {s : IndexSet} (h : s.Sound) {p : String}
    {r : FileRecord} (hr : s.recordAt? p = some r) : s.recordForTitle? r.title = some r := by
  rcases split_cases s p with ⟨root, rel, -, hsplit⟩ | ⟨-, herr⟩
  · obtain ⟨ix, hix, rfl⟩ := exists_index_of_split hsplit
    rw [(h.lookup_of_split hsplit hix rfl).1] at hr
    exact (h.recordForTitle?_eq_some_iff _ _).mpr ⟨ix, hix, _, hr, rfl⟩
  · rw [(lookup_of_split_error herr).1] at hr
    cases hr

/-- In a sound set, a record found at a path lies at that path. -/
theorem Sound.components_of_recordAt? {s : IndexSet} (h : s.Sound) {p : String}
    {r : FileRecord} (hr : s.recordAt? p = some r) :
    Path.components r.absolutePath = Path.components p := by
  rcases split_cases s p with ⟨root, rel, -, hsplit⟩ | ⟨-, herr⟩
  · obtain ⟨ix, hix, rfl⟩ := exists_index_of_split hsplit
    rw [(h.lookup_of_split hsplit hix rfl).1] at hr
    obtain ⟨e, he, hek, rfl⟩ := exists_mem_of_lookupKey hr
    rw [h.placed ix hix e he, hek, split_components hsplit]
  · rw [(lookup_of_split_error herr).1] at hr
    cases hr

/-- The record at a path depends only on the path's components. -/
theorem recordAt?_congr (s : IndexSet) {p q : String}
    (h : Path.components p = Path.components q) : s.recordAt? p = s.recordAt? q := by
  rcases split_cases s p with ⟨root, rel, ho, hsplit⟩ | ⟨ho, herr⟩
  · rw [owningRoot?_congr s h] at ho
    rcases split_cases s q with ⟨root', rel', ho', hsplit'⟩ | ⟨ho', -⟩
    · rw [ho] at ho'
      cases ho'
      have hrel : Path.components rel = Path.components rel' := by
        have hp := split_components hsplit
        rw [h, split_components hsplit'] at hp
        exact (List.append_cancel_left hp).symm
      unfold recordAt?
      rw [hsplit, hsplit']
      dsimp only
      cases s.index? root with
      | none => rfl
      | some ix => exact congrArg (Option.bind (some ix)) (funext fun o => o.get?_congr hrel)
    · rw [ho] at ho'
      cases ho'
  · rw [owningRoot?_congr s h] at ho
    rcases split_cases s q with ⟨root', rel', ho', -⟩ | ⟨-, herr'⟩
    · rw [ho] at ho'
      cases ho'
    · rw [(lookup_of_split_error herr).1, (lookup_of_split_error herr').1]

/-- Registering a root finds every title's record as before: a new root comes with an empty
index. -/
theorem recordForTitle?_registerRoot (s : IndexSet) (root t : String) :
    (s.registerRoot root).1.recordForTitle? t = s.recordForTitle? t := by
  unfold registerRoot
  split
  · rfl
  · simp [recordForTitle?, List.findSome?_append]

/-- An index of a set after registering a root is an old one or the new, empty one. -/
theorem mem_registerRoot {s : IndexSet} {root : String} {ix : FileIndex}
    (h : ix ∈ (s.registerRoot root).1.indexes) : ix ∈ s.indexes ∨ ix = FileIndex.new root := by
  unfold IndexSet.registerRoot at h
  split at h
  · exact .inl h
  · simpa using h

/-- In a sound set, registering a root leaves nothing at a path that no registered root held:
the path now splits at the new root, whose index is empty, or nowhere. -/
theorem Sound.recordAt?_registerRoot_of_unowned {s : IndexSet} (h : s.Sound) {p : String}
    (hp : s.owningRoot? p = none) (root : String) :
    (s.registerRoot root).1.recordAt? p = none := by
  have h' := h.registerRoot root
  rcases split_cases (s.registerRoot root).1 p with ⟨owner, rel, ho, hsplit⟩ | ⟨-, herr⟩
  · obtain ⟨ix, hix, rfl⟩ := exists_index_of_split hsplit
    rw [(h'.lookup_of_split hsplit hix rfl).1]
    rcases mem_registerRoot hix with hold | rfl
    · have hbegins := (owns_of_owningRoot? ho).2.1
      rw [(owningRoot?_eq_none_iff s p).mp hp ix.root (List.mem_map_of_mem hold)] at hbegins
      cases hbegins
    · rw [FileIndex.model_new]
      rfl
  · exact (lookup_of_split_error herr).1

/-- Dropping a title from the roots but one finds every other title's record as before. -/
theorem Sound.recordForTitle?_dropTitleElsewhere_of_ne {s : IndexSet} (h : s.Sound)
    (root : String) {t t' : String} (ht : t ≠ t') :
    (s.dropTitleElsewhere root t').recordForTitle? t = s.recordForTitle? t := by
  unfold recordForTitle? IndexSet.dropTitleElsewhere
  rw [List.findSome?_map]
  refine findSome?_congr_of_mem fun o ho => ?_
  simp only [Function.comp]
  split
  · rfl
  · exact (h.consistent o ho).answer_removeTitle_of_ne ht

/-- In a sound set, tracking a record in the index of its root finds every other title's record
as before, unless that record sat at the record's path: it is displaced, and no other index
tracks its title. -/
theorem Sound.recordForTitle?_update_set_of_ne {s : IndexSet} (h : s.Sound) {ix : FileIndex}
    (hix : ix ∈ s.indexes) (p : String) {r : FileRecord} {t : String} (ht : t ≠ r.title) :
    (s.update (ix.set p r).1).recordForTitle? t =
      if (ix.model.records (Path.components p)).map (·.title) = some t then none
      else s.recordForTitle? t := by
  have hc := h.consistent ix hix
  unfold recordForTitle? IndexSet.update
  rw [List.findSome?_map]
  split
  · rename_i hdisp
    rw [List.findSome?_eq_none_iff]
    intro o ho
    simp only [Function.comp]
    split
    · rename_i hsame
      rw [hc.answer_set_of_ne p ht, if_pos hdisp]
    · rename_i hsame
      obtain ⟨y, hy, hyt⟩ := Option.map_eq_some_iff.mp hdisp
      have htracks : (ix.pathForTitle? t).isSome := hyt ▸ hc.tracks_of_records hy
      cases hq : o.pathForTitle? t with
      | none => rfl
      | some q =>
        have hoix := h.eq_of_tracks ho hix (by rw [hq]; rfl) htracks
        subst hoix
        simp [Path.same_eq] at hsame
  · rename_i hkeep
    refine findSome?_congr_of_mem fun o ho => ?_
    simp only [Function.comp]
    split
    · rename_i hsame
      have hoix : o = ix := h.eq_of_root ho hix (by
        rw [Path.same_eq, decide_eq_true_iff, FileIndex.set_root] at hsame
        exact hsame)
      subst hoix
      rw [hc.answer_set_of_ne p ht, if_neg hkeep]
    · rfl

/-- In a sound set, inserting a record finds every other title's record as before, unless that
record was the one found at the inserted record's path, which the insertion displaces. -/
theorem Sound.recordForTitle?_insert_of_ne {s s' : IndexSet} (h : s.Sound) {r : FileRecord}
    {dsp : Option FileRecord} (hi : s.insert r = .ok (s', dsp)) {t : String}
    (ht : t ≠ r.title) :
    s'.recordForTitle? t =
      if (s.recordAt? r.absolutePath).map (·.title) = some t then none
      else s.recordForTitle? t := by
  obtain ⟨root, rel, ix, hsplit, hix, rfl, -⟩ := insert_eq_ok hi
  have hdrop := h.dropTitleElsewhere root r.title
  obtain ⟨hmem, hroot⟩ := index?_eq_some hix
  have hat : s.recordAt? r.absolutePath = ix.model.records (Path.components rel) :=
    (h.lookup_of_split hsplit (mem_of_dropTitleElsewhere hmem hroot) hroot).1
  have ht' : t ≠ ({ r with relativePath := rel } : FileRecord).title := ht
  rw [hdrop.recordForTitle?_update_set_of_ne hmem rel ht',
    h.recordForTitle?_dropTitleElsewhere_of_ne root ht, hat]

end IndexSet

end WikiSync
