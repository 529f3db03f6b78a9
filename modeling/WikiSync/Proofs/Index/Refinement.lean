import WikiSync.Proofs.Path.Keyed

/-!
# The file index as a finite map

A file index keeps three lists in step: records by path, bundled titles by path, and paths by
title. Seen from outside it is a finite partial map from paths, taken by their components, to
records of pairwise different titles, with the bundled titles of tracked paths (`IndexModel`).
Each update acts on that map as a plain map operation: tracking a record at a path drops every
entry at the path or of the record's title, with their bundled titles, and answers the record
that held the path when its title differs; deleting a path or a title drops its entry and
bundled titles; bundled titles are kept only for a tracked path and a non-empty list.

The three lists stay consistent under every update (`Consistent`), and on a consistent index
each update acts on the map it stands for as the map operation does (`model_apply`). So an
index reached from an empty one by any updates answers every query as the map reached by the
same updates (`run_refines`).
-/

namespace WikiSync

/-- A finite partial map from paths, by their components, to records, with the other titles
stored in the file at each path. -/
@[ext] structure IndexModel where
  /-- The record tracked at a path. -/
  records : List Component → Option FileRecord
  /-- The other titles stored in the file at a path, empty when there are none. -/
  bundled : List Component → List String

namespace IndexModel

/-- Nothing tracked. -/
def empty : IndexModel := ⟨fun _ => none, fun _ => []⟩

/-- The title of the record at a path. -/
def titleAt (m : IndexModel) (k : List Component) : Option String :=
  (m.records k).map (·.title)

/-- The paths holding a record. -/
def dom (m : IndexModel) : Set (List Component) :=
  {k | (m.records k).isSome}

/-- Track a record at a path: the entries at the path and of the record's title go, with their
bundled titles, and the path holds the record. The answer is the record that held the path,
when its title differs. -/
def set (m : IndexModel) (k : List Component) (r : FileRecord) : IndexModel × Option FileRecord :=
  (⟨fun k' => if k' = k then some r else if m.titleAt k' = some r.title then none else m.records k',
    fun k' => if k' = k ∨ m.titleAt k' = some r.title then [] else m.bundled k'⟩,
   (m.records k).filter (·.title != r.title))

/-- Drop a path with its bundled titles; the answer is its record. -/
def delete (m : IndexModel) (k : List Component) : IndexModel × Option FileRecord :=
  (⟨fun k' => if k' = k then none else m.records k',
    fun k' => if k' = k then [] else m.bundled k'⟩,
   m.records k)

/-- Drop the entry of a title with its bundled titles. -/
def removeTitle (m : IndexModel) (t : String) : IndexModel :=
  ⟨fun k' => if m.titleAt k' = some t then none else m.records k',
   fun k' => if m.titleAt k' = some t then [] else m.bundled k'⟩

/-- Set the bundled titles of a path: kept when the path is tracked and the list is not empty,
cleared otherwise. -/
def setBundled (m : IndexModel) (k : List Component) (ts : List String) : IndexModel :=
  ⟨m.records, fun k' =>
    if k' = k then (if ts ≠ [] ∧ (m.records k).isSome then ts else []) else m.bundled k'⟩

/-- What an index keeps of its map: finitely many paths, pairwise different titles, and bundled
titles only at tracked paths. -/
structure WellFormed (m : IndexModel) : Prop where
  /-- Finitely many paths hold a record. -/
  finite : m.dom.Finite
  /-- No two paths hold records of one title. -/
  titles_inj : ∀ k k' t, m.titleAt k = some t → m.titleAt k' = some t → k = k'
  /-- Only tracked paths have bundled titles. -/
  bundled_tracked : ∀ k, m.bundled k ≠ [] → (m.records k).isSome

/-- After tracking a record, its path has the record's title, the record's title is nowhere
else, and every other path keeps its title. -/
theorem titleAt_set (m : IndexModel) (k k' : List Component) (r : FileRecord) :
    (m.set k r).1.titleAt k' =
      if k' = k then some r.title else if m.titleAt k' = some r.title then none else m.titleAt k' := by
  unfold set titleAt
  dsimp only
  split_ifs <;> simp_all

end IndexModel

/-- An update of a file index. -/
inductive IndexOp where
  /-- Track a record at a path. -/
  | set (p : String) (r : FileRecord)
  /-- Stop tracking a path. -/
  | delete (p : String)
  /-- Stop tracking a title. -/
  | removeTitle (t : String)
  /-- Record the other titles stored in the file at a path. -/
  | setBundled (p : String) (titles : List String)

/-- Apply an update to a map. -/
def IndexModel.apply (m : IndexModel) : IndexOp → IndexModel
  | .set p r => (m.set (Path.components p) r).1
  | .delete p => (m.delete (Path.components p)).1
  | .removeTitle t => m.removeTitle t
  | .setBundled p ts => m.setBundled (Path.components p) ts

/-- Apply updates to a map in turn. -/
def IndexModel.run (m : IndexModel) (ops : List IndexOp) : IndexModel :=
  ops.foldl IndexModel.apply m

namespace FileIndex

/-- Apply an update to a file index. -/
def apply (ix : FileIndex) : IndexOp → FileIndex
  | .set p r => (ix.set p r).1
  | .delete p => (ix.delete p).1
  | .removeTitle t => (ix.removeTitle t).1
  | .setBundled p ts => ix.setBundled p ts

/-- Apply updates to a file index in turn. -/
def run (ix : FileIndex) (ops : List IndexOp) : FileIndex :=
  ops.foldl apply ix

/-- The map a file index stands for: its entries and bundled titles read by path. -/
def model (ix : FileIndex) : IndexModel :=
  ⟨lookupKey ix.entries, fun k => (lookupKey ix.bundledTitles k).getD []⟩

/-- The three lists of an index agree: the entries are keyed by different paths, the path
given for a title is the one of the entry holding it, and only tracked paths have bundled
titles. -/
structure Consistent (ix : FileIndex) : Prop where
  /-- No two entries are keyed by one path. -/
  keys_nodup : (ix.entries.map (Path.components ·.1)).Nodup
  /-- A title's path is the path of the entry holding the title. -/
  pathForTitle_iff : ∀ t k,
    (ix.pathForTitle? t).map Path.components = some k ↔ ix.model.titleAt k = some t
  /-- Only tracked paths have bundled titles. -/
  bundled_tracked : ∀ k, ix.model.bundled k ≠ [] → (ix.model.records k).isSome

/-- A file index answers its queries, and the answers of its updates, as a map does. -/
structure Refines (ix : FileIndex) (m : IndexModel) : Prop where
  /-- The record at a path is the map's. -/
  get : ∀ p, ix.get? p = m.records (Path.components p)
  /-- A path is tracked when the map holds it. -/
  has : ∀ p, ix.has p = (m.records (Path.components p)).isSome
  /-- The title at a path is the title of the map's record there. -/
  titleByPath : ∀ p, ix.titleByPath p = match m.records (Path.components p) with
    | some r => .ok r.title
    | none => .error (.notFound p)
  /-- The path given for a title is the path whose record has that title. -/
  pathForTitle : ∀ t k, (ix.pathForTitle? t).map Path.components = some k ↔ m.titleAt k = some t
  /-- The index counts the paths of the map. -/
  len : ix.len = m.dom.ncard
  /-- The bundled titles of a path are the map's. -/
  bundled : ∀ p, ix.bundled p = m.bundled (Path.components p)
  /-- Tracking a record answers as the map does. -/
  set_answer : ∀ p r, (ix.set p r).2 = (m.set (Path.components p) r).2
  /-- Deleting a path answers as the map does. -/
  delete_answer : ∀ p, (ix.delete p).2 = (m.delete (Path.components p)).2

/-! ### Titles and their paths -/

/-- Erasing a title forgets its path and keeps every other. -/
theorem find?_eraseTitle {α : Type} (l : List (String × α)) (t t' : String) :
    ((eraseTitle l t).find? (·.1 == t')).map (·.2) =
      if t' = t then none else (l.find? (·.1 == t')).map (·.2) := by
  rw [eraseTitle, List.find?_filter]
  by_cases h : t' = t
  · subst h
    simp
  · simp only [h, if_false]
    congr 2
    funext e
    by_cases he : e.1 = t' <;> simp [he, h]

/-- A title given a new path is found at that path, and every other title where it was. -/
theorem find?_eraseTitle_append {α : Type} (l : List (String × α)) (t t' : String) (v : α) :
    ((eraseTitle l t ++ [(t, v)]).find? (·.1 == t')).map (·.2) =
      if t' = t then some v else (l.find? (·.1 == t')).map (·.2) := by
  rw [List.find?_append, Option.map_or, find?_eraseTitle]
  by_cases h : t' = t
  · subst h
    simp
  · simp [h, Ne.symm h]

/-- The titles of a consistent index are held at one path each. -/
theorem Consistent.titles_inj {ix : FileIndex} (hc : ix.Consistent) (k k' : List Component)
    (t : String) (hk : ix.model.titleAt k = some t) (hk' : ix.model.titleAt k' = some t) :
    k = k' := by
  have h₁ := (hc.pathForTitle_iff t k).2 hk
  have h₂ := (hc.pathForTitle_iff t k').2 hk'
  rw [h₁] at h₂
  exact Option.some.inj h₂

/-! ### Tracking a record -/

/-- The entries after tracking a record: the title's old path, when another one, is dropped. -/
theorem set_entries (ix : FileIndex) (p : String) (r : FileRecord) :
    (ix.set p r).1.entries = setKey (match ix.pathForTitle? r.title with
      | some q => if Path.same q p then ix.entries else eraseKey ix.entries q
      | none => ix.entries) p r := by
  unfold FileIndex.set
  cases ix.pathForTitle? r.title <;> dsimp only <;> repeat' split
  all_goals rfl

/-- The bundled titles after tracking a record: those of the path and of the title's old path
are dropped. -/
theorem set_bundledTitles (ix : FileIndex) (p : String) (r : FileRecord) :
    (ix.set p r).1.bundledTitles = match ix.pathForTitle? r.title with
      | some q => if Path.same q p then eraseKey ix.bundledTitles p
        else eraseKey (eraseKey ix.bundledTitles p) q
      | none => eraseKey ix.bundledTitles p := by
  unfold FileIndex.set
  cases ix.pathForTitle? r.title <;> dsimp only <;> repeat' split
  all_goals rfl

/-- Dropping a title's old path, when it is not `p`, leaves the record at `p` alone. -/
theorem find?_freed (ix : FileIndex) (p : String) (E : List (String × FileRecord))
    (hE : E = ix.entries ∨ ∃ q, Path.same q p = false ∧ E = eraseKey ix.entries q) :
    (E.find? fun e => Path.same e.1 p).map (·.2) = lookupKey ix.entries (Path.components p) := by
  rw [find?_same]
  rcases hE with rfl | ⟨q, hqp, rfl⟩
  · rfl
  · rw [Path.same_eq, decide_eq_false_iff_not] at hqp
    rw [lookupKey_eraseKey, if_neg (Ne.symm hqp)]

/-- The answer of tracking, read off the record that held the path. -/
theorem displaced_answer {β : Type} (o : Option FileRecord) (t : String) (s₁ s₂ : FileRecord → β)
    (s₃ : β) :
    (match o with
      | some old => if (old.title != t) = true then (s₁ old, some old) else (s₂ old, none)
      | none => (s₃, none)).2 = o.filter (·.title != t) := by
  cases o with
  | none => rfl
  | some old => by_cases h : (old.title != t) = true <;> simp [h, Option.filter_some]

/-- Tracking a record answers the record that held the path, when its title differs. -/
theorem set_snd (ix : FileIndex) (p : String) (r : FileRecord) :
    (ix.set p r).2 = (lookupKey ix.entries (Path.components p)).filter (·.title != r.title) := by
  unfold FileIndex.set
  dsimp only
  rw [find?_freed ix p]
  · exact displaced_answer _ _ _ _ _
  · split
    · split
      · exact .inl rfl
      · rename_i hqp
        exact .inr ⟨_, Bool.of_not_eq_true hqp, rfl⟩
    · exact .inl rfl

/-- After tracking a record, its title is at the new path, the title displaced from the path
is at none, and every other title where it was. -/
theorem pathForTitle?_set (ix : FileIndex) (p : String) (r : FileRecord) (t : String) :
    (ix.set p r).1.pathForTitle? t =
      if t = r.title then some p
      else if ix.model.titleAt (Path.components p) = some t then none
      else ix.pathForTitle? t := by
  have titles := find?_eraseTitle_append ix.titlePaths r.title t p
  unfold FileIndex.set
  dsimp only
  rw [find?_freed ix p]
  · unfold pathForTitle? IndexModel.titleAt model
    dsimp only
    split
    · rename_i old hd
      simp only [hd]
      split
      · rename_i h
        have hne : old.title ≠ r.title := by simpa using h
        simp only [find?_eraseTitle, titles, Option.map_some, Option.some.injEq]
        by_cases ht : t = r.title
        · simp [ht, Ne.symm hne]
        · by_cases ho : old.title = t
          · simp [ht, ho]
          · simp [ht, ho, Ne.symm ho]
      · rename_i h
        simp only [bne_iff_ne, ne_eq, Decidable.not_not] at h
        simp only [h, titles, Option.map_some, Option.some.injEq]
        by_cases ht : t = r.title
        · simp [ht]
        · simp [ht, Ne.symm ht]
    · rename_i hd
      simpa [hd] using titles
  · split
    · split
      · exact .inl rfl
      · rename_i hqp
        exact .inr ⟨_, Bool.of_not_eq_true hqp, rfl⟩
    · exact .inl rfl

section Set

variable {ix : FileIndex} (hc : ix.Consistent) (p : String) (r : FileRecord)
include hc

/-- In a consistent index, the path freed for a title is the path of its record. -/
theorem freed_titleAt (k : List Component) :
    ix.model.titleAt k = some r.title ↔
      ∃ q, ix.pathForTitle? r.title = some q ∧ Path.components q = k := by
  rw [← hc.pathForTitle_iff]
  cases ix.pathForTitle? r.title <;> simp

/-- Tracking a record puts it at its path and drops the entry holding its title elsewhere. -/
theorem lookupKey_set_entries (k : List Component) :
    lookupKey (ix.set p r).1.entries k =
      if k = Path.components p then some r
      else if ix.model.titleAt k = some r.title then none
      else lookupKey ix.entries k := by
  rw [set_entries, lookupKey_setKey]
  simp only [freed_titleAt hc]
  by_cases hk : k = Path.components p
  · simp [hk]
  simp only [hk, if_false]
  cases hq : ix.pathForTitle? r.title with
  | none => simp
  | some q =>
    by_cases hqp : Path.same q p
    · have hqp' : Path.components q = Path.components p := by
        simpa [Path.same_eq] using hqp
      simp [hqp, hqp', Ne.symm hk]
    · simp only [hqp, Bool.false_eq_true, if_false, lookupKey_eraseKey, Option.some.injEq,
        exists_eq_left']
      by_cases hkq : k = Path.components q
      · simp [hkq]
      · simp [hkq, Ne.symm hkq]

/-- Tracking a record drops the bundled titles of its path and of its title's old path. -/
theorem lookupKey_set_bundledTitles (k : List Component) :
    lookupKey (ix.set p r).1.bundledTitles k =
      if k = Path.components p ∨ ix.model.titleAt k = some r.title then none
      else lookupKey ix.bundledTitles k := by
  rw [set_bundledTitles]
  simp only [freed_titleAt hc]
  cases hq : ix.pathForTitle? r.title with
  | none => simp [lookupKey_eraseKey]
  | some q =>
    by_cases hqp : Path.same q p
    · have hqp' : Path.components q = Path.components p := by
        simpa [Path.same_eq] using hqp
      simp only [hqp, if_true, lookupKey_eraseKey, Option.some.injEq, exists_eq_left', hqp']
      by_cases hk : k = Path.components p
      · simp [hk]
      · simp [hk, Ne.symm hk]
    · simp only [hqp, Bool.false_eq_true, if_false, lookupKey_eraseKey, Option.some.injEq,
        exists_eq_left']
      by_cases hk : k = Path.components p
      · simp [hk]
      · by_cases hkq : k = Path.components q
        · simp [hkq]
        · simp [hk, hkq, Ne.symm hkq]

/-- Tracking a record acts on the map as `IndexModel.set`. -/
theorem model_set : (ix.set p r).1.model = (ix.model.set (Path.components p) r).1 := by
  refine IndexModel.ext (funext fun k => ?_) (funext fun k => ?_)
  · exact lookupKey_set_entries hc p r k
  · show (lookupKey _ k).getD [] =
      if k = Path.components p ∨ ix.model.titleAt k = some r.title then [] else ix.model.bundled k
    rw [lookupKey_set_bundledTitles hc]
    split <;> rfl

/-- Tracking a record keeps an index consistent. -/
theorem Consistent.set : (ix.set p r).1.Consistent where
  keys_nodup := by
    rw [set_entries]
    apply nodup_keys_setKey
    split
    · split
      · exact hc.keys_nodup
      · exact nodup_keys_eraseKey _ _ hc.keys_nodup
    · exact hc.keys_nodup
  pathForTitle_iff t k := by
    have hiff := hc.pathForTitle_iff t k
    have hinj := hc.titles_inj k (Path.components p) t
    rw [model_set hc, pathForTitle?_set, IndexModel.titleAt_set]
    by_cases ht : t = r.title
    · subst ht
      by_cases hk : k = Path.components p
      · simp [hk]
      · by_cases htk : ix.model.titleAt k = some r.title <;> simp [hk, htk, Ne.symm hk]
    · by_cases hp : ix.model.titleAt (Path.components p) = some t
      · have hk : ix.model.titleAt k = some t → k = Path.components p := fun h => hinj h hp
        by_cases hkp : k = Path.components p
        · simp [ht, hp, hkp, Ne.symm ht]
        · by_cases htk : ix.model.titleAt k = some r.title
          · simp [ht, hp, hkp, htk]
          · simp only [ht, hp, hkp, htk, if_false, if_true, Option.map_none, reduceCtorEq,
              false_iff]
            exact fun h => hkp (hk h)
      · by_cases hkp : k = Path.components p
        · subst hkp
          simp only [ht, hp, if_false, if_true, Option.some.injEq, hiff]
          exact ⟨fun h => h.elim, fun h => ht h.symm⟩
        · by_cases htk : ix.model.titleAt k = some r.title
          · simp only [ht, hp, hkp, htk, if_false, if_true, reduceCtorEq, iff_false, hiff]
            simp [Ne.symm ht]
          · simp [ht, hp, hkp, htk, hiff]
  bundled_tracked k hb := by
    have htracked := hc.bundled_tracked k
    rw [model_set hc] at hb ⊢
    simp only [IndexModel.set] at hb ⊢
    split_ifs at hb ⊢ <;> simp_all

end Set

/-! ### Deleting a path -/

/-- Deleting a path answers its record. -/
theorem delete_snd (ix : FileIndex) (p : String) :
    (ix.delete p).2 = lookupKey ix.entries (Path.components p) := by
  unfold FileIndex.delete FileIndex.get?
  rw [find?_same]
  split <;> simp_all

/-- Deleting a path drops its entry. -/
theorem lookupKey_delete_entries (ix : FileIndex) (p : String) (k : List Component) :
    lookupKey (ix.delete p).1.entries k =
      if k = Path.components p then none else lookupKey ix.entries k := by
  unfold FileIndex.delete FileIndex.get?
  rw [find?_same]
  split
  · exact lookupKey_eraseKey _ _ _
  · rename_i hd
    by_cases hk : k = Path.components p
    · simp [hk, hd]
    · simp [hk]

/-- Deleting a path drops its bundled titles. -/
theorem delete_bundledTitles (ix : FileIndex) (p : String) :
    (ix.delete p).1.bundledTitles = eraseKey ix.bundledTitles p := by
  unfold FileIndex.delete
  split <;> rfl

/-- Deleting a path forgets the path of its record's title. -/
theorem pathForTitle?_delete (ix : FileIndex) (p : String) (t : String) :
    (ix.delete p).1.pathForTitle? t =
      if ix.model.titleAt (Path.components p) = some t then none else ix.pathForTitle? t := by
  unfold FileIndex.delete FileIndex.get? IndexModel.titleAt model
  rw [find?_same]
  split
  · rename_i old hd
    simp only [hd, Option.map_some, Option.some.injEq]
    show ((eraseTitle ix.titlePaths old.title).find? (·.1 == t)).map (·.2) = _
    rw [find?_eraseTitle]
    by_cases h : t = old.title
    · simp [h]
    · simp only [h, if_false, Ne.symm h]
      rfl
  · rename_i hd
    simp only [hd, Option.map_none, reduceCtorEq, if_false]
    rfl

/-- Deleting a path acts on the map as `IndexModel.delete`. -/
theorem model_delete (ix : FileIndex) (p : String) :
    (ix.delete p).1.model = (ix.model.delete (Path.components p)).1 := by
  refine IndexModel.ext (funext fun k => ?_) (funext fun k => ?_)
  · exact lookupKey_delete_entries ix p k
  · show (lookupKey _ k).getD [] = if k = Path.components p then [] else ix.model.bundled k
    rw [delete_bundledTitles, lookupKey_eraseKey]
    split <;> rfl

/-- Deleting a path keeps an index consistent. -/
theorem Consistent.delete {ix : FileIndex} (hc : ix.Consistent) (p : String) :
    (ix.delete p).1.Consistent where
  keys_nodup := by
    unfold FileIndex.delete
    split
    · exact nodup_keys_eraseKey _ _ hc.keys_nodup
    · exact hc.keys_nodup
  pathForTitle_iff t k := by
    have hiff := hc.pathForTitle_iff t k
    have hinj := hc.titles_inj k (Path.components p) t
    rw [model_delete, pathForTitle?_delete]
    simp only [IndexModel.delete, IndexModel.titleAt] at hiff hinj ⊢
    by_cases hp : (ix.model.records (Path.components p)).map (·.title) = some t
    · by_cases hk : k = Path.components p
      · simp [hp, hk]
      · simp only [hp, if_true, Option.map_none, reduceCtorEq, hk, if_false, false_iff]
        exact fun h => hk (hinj h hp)
    · by_cases hk : k = Path.components p
      · subst hk
        simp [hp, hiff]
      · simp [hp, hk, hiff]
  bundled_tracked k hb := by
    have htracked := hc.bundled_tracked k
    rw [model_delete] at hb ⊢
    simp only [IndexModel.delete] at hb ⊢
    split_ifs at hb ⊢ <;> simp_all

/-! ### Removing a title -/

/-- Removing a title drops the entry holding it. -/
theorem lookupKey_removeTitle_entries {ix : FileIndex} (hc : ix.Consistent) (t : String)
    (k : List Component) :
    lookupKey (ix.removeTitle t).1.entries k =
      if ix.model.titleAt k = some t then none else lookupKey ix.entries k := by
  simp only [← hc.pathForTitle_iff]
  unfold FileIndex.removeTitle
  split
  · rename_i q hq
    simp only [hq, Option.map_some, Option.some.injEq, lookupKey_eraseKey, eq_comm]
  · rename_i hq
    simp [hq]

/-- Removing a title drops the bundled titles of the path holding it. -/
theorem lookupKey_removeTitle_bundledTitles {ix : FileIndex} (hc : ix.Consistent) (t : String)
    (k : List Component) :
    lookupKey (ix.removeTitle t).1.bundledTitles k =
      if ix.model.titleAt k = some t then none else lookupKey ix.bundledTitles k := by
  simp only [← hc.pathForTitle_iff]
  unfold FileIndex.removeTitle
  split
  · rename_i q hq
    simp only [hq, Option.map_some, Option.some.injEq, lookupKey_eraseKey, eq_comm]
  · rename_i hq
    simp [hq]

/-- Removing a title forgets its path and keeps every other. -/
theorem pathForTitle?_removeTitle (ix : FileIndex) (t t' : String) :
    (ix.removeTitle t).1.pathForTitle? t' = if t' = t then none else ix.pathForTitle? t' := by
  unfold FileIndex.removeTitle
  split
  · exact find?_eraseTitle _ _ _
  · rename_i hq
    by_cases h : t' = t
    · subst h
      simp [hq]
    · simp [h]

/-- Removing a title acts on the map as `IndexModel.removeTitle`. -/
theorem model_removeTitle {ix : FileIndex} (hc : ix.Consistent) (t : String) :
    (ix.removeTitle t).1.model = ix.model.removeTitle t := by
  refine IndexModel.ext (funext fun k => ?_) (funext fun k => ?_)
  · exact lookupKey_removeTitle_entries hc t k
  · show (lookupKey _ k).getD [] = if ix.model.titleAt k = some t then [] else ix.model.bundled k
    rw [lookupKey_removeTitle_bundledTitles hc]
    split <;> rfl

/-- Removing a title keeps an index consistent. -/
theorem Consistent.removeTitle {ix : FileIndex} (hc : ix.Consistent) (t : String) :
    (ix.removeTitle t).1.Consistent where
  keys_nodup := by
    unfold FileIndex.removeTitle
    split
    · exact nodup_keys_eraseKey _ _ hc.keys_nodup
    · exact hc.keys_nodup
  pathForTitle_iff t' k := by
    have hiff := hc.pathForTitle_iff t' k
    rw [model_removeTitle hc, pathForTitle?_removeTitle]
    simp only [IndexModel.removeTitle, IndexModel.titleAt] at hiff ⊢
    by_cases h : t' = t
    · subst h
      by_cases hk : (ix.model.records k).map (·.title) = some t' <;> simp [hk]
    · by_cases hk : (ix.model.records k).map (·.title) = some t
      · simp only [h, if_false, hiff, hk, if_true, Option.map_none, reduceCtorEq, iff_false]
        simp [Ne.symm h]
      · simp [h, hk, hiff]
  bundled_tracked k hb := by
    have htracked := hc.bundled_tracked k
    rw [model_removeTitle hc] at hb ⊢
    simp only [IndexModel.removeTitle] at hb ⊢
    split_ifs at hb ⊢ <;> simp_all

/-! ### Bundled titles -/

/-- Setting bundled titles acts on the map as `IndexModel.setBundled`. -/
theorem model_setBundled (ix : FileIndex) (p : String) (ts : List String) :
    (ix.setBundled p ts).model = ix.model.setBundled (Path.components p) ts := by
  refine IndexModel.ext (funext fun k => ?_) (funext fun k => ?_)
  · unfold FileIndex.setBundled
    split <;> rfl
  · show (lookupKey _ k).getD [] = if k = Path.components p then
      (if ts ≠ [] ∧ (ix.model.records (Path.components p)).isSome then ts else [])
      else ix.model.bundled k
    unfold FileIndex.setBundled FileIndex.has
    rw [any_same]
    by_cases hk : k = Path.components p
    · subst hk
      split
      · rename_i h
        show (lookupKey (eraseKey ix.bundledTitles p) _).getD [] = _
        simp only [Bool.or_eq_true, List.isEmpty_iff, Bool.not_eq_true', Option.isSome_eq_false_iff,
          Option.isNone_iff_eq_none] at h
        rcases h with h | h <;> simp [lookupKey_eraseKey, h, model]
      · rename_i h
        show (lookupKey (setKey ix.bundledTitles p ts) _).getD [] = _
        simp only [Bool.or_eq_true, List.isEmpty_iff, Bool.not_eq_true', Option.isSome_eq_false_iff,
          Option.isNone_iff_eq_none, not_or] at h
        simp [lookupKey_setKey, h, model, Option.isSome_iff_ne_none]
    · split <;> simp [lookupKey_eraseKey, lookupKey_setKey, hk, model]

/-- Setting bundled titles keeps an index consistent: they are kept only at a tracked path. -/
theorem Consistent.setBundled {ix : FileIndex} (hc : ix.Consistent) (p : String)
    (ts : List String) : (ix.setBundled p ts).Consistent where
  keys_nodup := by
    unfold FileIndex.setBundled
    split
    · exact hc.keys_nodup
    · exact hc.keys_nodup
  pathForTitle_iff t k := by
    rw [model_setBundled]
    unfold FileIndex.setBundled
    split
    · exact hc.pathForTitle_iff t k
    · exact hc.pathForTitle_iff t k
  bundled_tracked k hb := by
    have htracked := hc.bundled_tracked k
    rw [model_setBundled] at hb ⊢
    simp only [IndexModel.setBundled] at hb ⊢
    split_ifs at hb with hk h
    · exact hk ▸ h.2
    · exact absurd rfl hb
    · exact htracked hb

/-! ### Runs of updates -/

/-- Every update keeps an index consistent. -/
theorem Consistent.apply {ix : FileIndex} (hc : ix.Consistent) : ∀ o, (ix.apply o).Consistent
  | .set p r => hc.set p r
  | .delete p => hc.delete p
  | .removeTitle t => hc.removeTitle t
  | .setBundled p ts => hc.setBundled p ts

/-- On a consistent index, every update acts on the map as the map's update. -/
theorem model_apply {ix : FileIndex} (hc : ix.Consistent) :
    ∀ o, (ix.apply o).model = ix.model.apply o
  | .set p r => model_set hc p r
  | .delete p => model_delete ix p
  | .removeTitle t => model_removeTitle hc t
  | .setBundled p ts => model_setBundled ix p ts

/-- An empty index is consistent. -/
theorem Consistent.new (root : String) : (FileIndex.new root).Consistent where
  keys_nodup := List.nodup_nil
  pathForTitle_iff t k := by simp [FileIndex.new, pathForTitle?, model, IndexModel.titleAt]
  bundled_tracked k hb := absurd rfl hb

/-- An empty index stands for the empty map. -/
theorem model_new (root : String) : (FileIndex.new root).model = IndexModel.empty :=
  rfl

/-- Updates keep a consistent index consistent, and act on the map it stands for as the map's
updates: the induction runs over the updates, from any consistent index. -/
theorem run_model {ix : FileIndex} (hc : ix.Consistent) (ops : List IndexOp) :
    (ix.run ops).Consistent ∧ (ix.run ops).model = ix.model.run ops := by
  induction ops generalizing ix with
  | nil => exact ⟨hc, rfl⟩
  | cons o ops ih =>
    obtain ⟨hc', hm'⟩ := ih (hc.apply o)
    refine ⟨hc', ?_⟩
    rw [run, List.foldl_cons, ← run, hm', model_apply hc o]
    rfl

/-- A consistent index answers as the map it stands for. -/
theorem Consistent.refines {ix : FileIndex} (hc : ix.Consistent) : ix.Refines ix.model where
  get p := find?_same _ _
  has p := any_same _ _
  titleByPath p := by
    unfold titleByPath
    rw [show ix.get? p = lookupKey ix.entries (Path.components p) from find?_same _ _]
    rfl
  pathForTitle := hc.pathForTitle_iff
  len := (ncard_lookupKey _ hc.keys_nodup).symm
  bundled p := by
    unfold bundled
    rw [find?_same]
    rfl
  set_answer p r := set_snd ix p r
  delete_answer p := delete_snd ix p

/-- The map a consistent index stands for keeps finitely many paths, distinct titles, and
bundled titles at tracked paths only. -/
theorem Consistent.wellFormed {ix : FileIndex} (hc : ix.Consistent) : ix.model.WellFormed where
  finite := finite_lookupKey _
  titles_inj := hc.titles_inj
  bundled_tracked := hc.bundled_tracked

/-- Every index reached from an empty one by any updates answers its queries, and the answers of
tracking and deleting, as the map reached by the same updates; that map holds finitely many
paths, no two of them with records of one title, and bundled titles only at tracked paths. -/
theorem run_refines (root : String) (ops : List IndexOp) :
    (IndexModel.empty.run ops).WellFormed ∧
      ((FileIndex.new root).run ops).Refines (IndexModel.empty.run ops) := by
  obtain ⟨hc, hm⟩ := run_model (Consistent.new root) ops
  rw [model_new] at hm
  rw [← hm]
  exact ⟨hc.wellFormed, hc.refines⟩

end FileIndex

end WikiSync
