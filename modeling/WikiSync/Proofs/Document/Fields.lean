import Mathlib.Data.String.Basic
import WikiSync.Document.Basic

/-!
# Ordered fields

Fields are a list of pairs ordered by name, one pair per name, and the type carries that order
(`Fields.ordered`), kept by setting a field (`Fields.pairwise_insertPair`). So the list view and
the map view agree: reading the pairs of some fields gives them back (`ofList_toList`), and
erasing a field and setting it back restores the fields (`erase_insert_getD`).
-/

namespace WikiSync.Fields

/-- Fields are equal when their pairs are. -/
@[ext] theorem ext {a b : Fields} (h : a.toList = b.toList) : a = b := by
  cases a
  cases b
  cases h
  rfl

/-- The fields without the pair of one name. -/
def erase (fs : Fields) (k : String) : Fields :=
  ⟨fs.toList.filter (·.1 != k), fs.ordered.filter _⟩

/-- A name after every name of the list goes last. -/
theorem insertPair_of_lt (k v : String) (l : List (String × String)) (h : ∀ a ∈ l, a.1 < k) :
    insertPair k v l = l ++ [(k, v)] := by
  induction l with
  | nil => rfl
  | cons b l ih =>
    have hb := h b List.mem_cons_self
    have hne : (k == b.1) = false := by
      rw [beq_eq_false_iff_ne]
      exact ne_of_gt hb
    rw [insertPair, hne]
    simp only [Bool.false_eq_true, if_false, not_lt_of_gt hb, List.cons_append]
    rw [ih fun a ha => h a (List.mem_cons_of_mem b ha)]

/-- Setting pairs that come in order after the fields appends them. -/
theorem foldl_insert_of_pairwise (ps : List (String × String)) (F : Fields)
    (h : (F.toList ++ ps).Pairwise fun a b => a.1 < b.1) :
    (ps.foldl (fun (fs : Fields) p => fs.insert p.1 p.2) F).toList = F.toList ++ ps := by
  induction ps generalizing F with
  | nil => simp
  | cons p ps ih =>
    have hlast : ∀ a ∈ F.toList, a.1 < p.1 :=
      fun a ha => (List.pairwise_append.1 h).2.2 a ha p List.mem_cons_self
    have hstep : (F.insert p.1 p.2).toList = F.toList ++ [p] :=
      insertPair_of_lt p.1 p.2 F.toList hlast
    rw [List.foldl_cons, ih (F.insert p.1 p.2) (by rw [hstep]; simpa using h), hstep]
    simp

/-- Setting the pairs of some fields in order, starting from none, gives those fields. -/
theorem foldl_insert_toList (F : Fields) :
    F.toList.foldl (fun (fs : Fields) p => fs.insert p.1 p.2) empty = F :=
  Fields.ext (foldl_insert_of_pairwise F.toList empty F.ordered)

/-- Reading the pairs of some fields gives those fields. -/
theorem ofList_toList (F : Fields) : ofList F.toList = F :=
  foldl_insert_toList F

/-- A field is present exactly when it has a value. -/
theorem contains_eq_isSome_get? (fs : Fields) (k : String) :
    fs.contains k = (fs.get? k).isSome := by
  rw [contains, get?, Option.isSome_map, List.isSome_find?]

/-- Setting a present field only when absent changes nothing. -/
theorem insertIfAbsent_of_contains {fs : Fields} {k : String} (v : String)
    (h : fs.contains k = true) : fs.insertIfAbsent k v = fs :=
  if_pos h

/-- The value of a field is one of its pairs. -/
theorem mem_of_get?_eq_some {fs : Fields} {k v : String} (h : fs.get? k = some v) :
    (k, v) ∈ fs.toList := by
  unfold get? at h
  obtain ⟨a, ha, rfl⟩ := Option.map_eq_some_iff.1 h
  have hk : a.1 = k := by simpa using List.find?_some ha
  rw [← hk]
  exact List.mem_of_find?_eq_some ha

/-- A field without a value has no pair. -/
theorem not_mem_of_get?_eq_none {fs : Fields} {k : String} (h : fs.get? k = none) :
    ∀ a ∈ fs.toList, a.1 ≠ k := by
  unfold get? at h
  intro a ha hk
  rw [Option.map_eq_none_iff, List.find?_eq_none] at h
  exact h a ha (by simp [hk])

/-- Setting a pair leaves the pairs of other names where a search finds them. -/
theorem find?_insertPair_of_ne (k v k' : String) (l : List (String × String)) (h : k' ≠ k) :
    (insertPair k v l).find? (·.1 == k') = l.find? (·.1 == k') := by
  have hk : ((k, v).1 == k') = false := by simpa using Ne.symm h
  induction l with
  | nil => simp [insertPair, hk]
  | cons b l ih =>
    unfold insertPair
    split
    · rename_i hb
      rw [beq_iff_eq] at hb
      have hb' : (b.1 == k') = false := by simpa [← hb] using Ne.symm h
      simp [hk, hb']
    split
    · simp [List.find?_cons, hk]
    · simp only [List.find?_cons, ih]

/-- A search for the name just set finds the new pair: every pair it passes has another name. -/
theorem find?_insertPair_self (k v : String) (l : List (String × String)) :
    (insertPair k v l).find? (·.1 == k) = some (k, v) := by
  induction l with
  | nil => simp [insertPair]
  | cons b l ih =>
    unfold insertPair
    split
    · simp
    split
    · simp
    · rename_i hb _
      rw [beq_iff_eq] at hb
      have hb' : (b.1 == k) = false := by simpa using Ne.symm hb
      simp only [List.find?_cons, hb', ih]

/-- A field just set reads back its value. -/
theorem get?_insert_self (fs : Fields) (k v : String) : (fs.insert k v).get? k = some v := by
  unfold Fields.insert get?
  rw [find?_insertPair_self]
  rfl

/-- Setting a field leaves the values of the others. -/
theorem get?_insert_of_ne (fs : Fields) (k v k' : String) (h : k' ≠ k) :
    (fs.insert k v).get? k' = fs.get? k' := by
  unfold Fields.insert get?
  rw [find?_insertPair_of_ne k v k' fs.toList h]

/-- Setting a pair back into an ordered list it was filtered out of gives the list back. -/
theorem insertPair_filter (k v : String) (l : List (String × String))
    (hl : l.Pairwise fun a b => a.1 < b.1) (hk : (k, v) ∈ l) :
    insertPair k v (l.filter (·.1 != k)) = l := by
  induction l with
  | nil => simp at hk
  | cons b l ih =>
    obtain ⟨hb, hl⟩ := List.pairwise_cons.1 hl
    rcases List.mem_cons.1 hk with rfl | hk
    · have hrest : l.filter (·.1 != k) = l := by
        rw [List.filter_eq_self]
        intro a ha
        simpa using ne_of_gt (hb a ha)
      simp only [List.filter_cons, bne_self_eq_false, Bool.false_eq_true, if_false, hrest]
      cases l with
      | nil => rfl
      | cons c l =>
        have hc := hb c List.mem_cons_self
        simp [insertPair, ne_of_lt hc, hc]
    · have hlt : b.1 < k := hb (k, v) hk
      have hne : (b.1 != k) = true := by simpa using ne_of_lt hlt
      rw [List.filter_cons, if_pos hne, insertPair, ih hl hk]
      have hkb : (k == b.1) = false := by simpa using ne_of_gt hlt
      simp [hkb, not_lt_of_gt hlt]

/-- Erasing a field and setting it to its old value, or to a default when it had none, is
setting it only when absent. -/
theorem erase_insert_getD (fs : Fields) (k d : String) :
    (fs.erase k).insert k ((fs.get? k).getD d) = fs.insertIfAbsent k d := by
  cases hk : fs.get? k with
  | some v =>
    have hmem := mem_of_get?_eq_some hk
    have hcontains : fs.contains k = true := by rw [contains_eq_isSome_get?, hk]; rfl
    rw [Option.getD_some, insertIfAbsent, if_pos hcontains]
    exact Fields.ext (insertPair_filter k v fs.toList fs.ordered hmem)
  | none =>
    have hfilter : fs.toList.filter (·.1 != k) = fs.toList := by
      rw [List.filter_eq_self]
      intro a ha
      simpa using not_mem_of_get?_eq_none hk a ha
    have hcontains : fs.contains k = false := by rw [contains_eq_isSome_get?, hk]; rfl
    rw [Option.getD_none, insertIfAbsent, hcontains]
    exact Fields.ext (congrArg (insertPair k d) hfilter)

end WikiSync.Fields
