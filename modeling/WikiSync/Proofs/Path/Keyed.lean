import Mathlib.Data.Set.Card
import WikiSync.Index.FileIndex

/-!
# Lists keyed by paths

Several tables of the library are lists of pairs keyed by a path, where two keys name one path
when their components agree. Such a list is read through `lookupKey`: the value of the first
pair whose key has the given components. Erasing a path and setting its value then act on that
view as on a map (`lookupKey_eraseKey`, `lookupKey_setKey`), and a list whose keys name
different paths has as many pairs as its view has paths (`ncard_lookupKey`).
-/

namespace WikiSync

/-- Components compare by their constructors and names. -/
instance : LawfulBEq Component where
  rfl := by
    intro a
    cases a with
    | normal n => exact beq_self_eq_true n
    | _ => rfl
  eq_of_beq := by
    intro a b h
    cases a <;> cases b <;> first | rfl | cases h | skip
    case normal.normal n m =>
      have h' : (n == m) = true := h
      rw [eq_of_beq h']

/-- Two paths are the same exactly when their components are equal. -/
theorem Path.same_eq (a b : String) :
    Path.same a b = decide (Path.components a = Path.components b) := by
  unfold Path.same
  cases h : (Path.components a == Path.components b) <;> simp_all

/-- The value of the first pair whose key has the components `k`. -/
def lookupKey {α : Type} (l : List (String × α)) (k : List Component) : Option α :=
  (l.find? fun e => Path.components e.1 == k).map (·.2)

section Keyed

variable {α : Type}

@[simp] theorem lookupKey_nil (k : List Component) : lookupKey ([] : List (String × α)) k = none :=
  rfl

theorem lookupKey_cons (e : String × α) (l : List (String × α)) (k : List Component) :
    lookupKey (e :: l) k = if Path.components e.1 = k then some e.2 else lookupKey l k := by
  by_cases h : Path.components e.1 = k <;> simp [lookupKey, h]

/-- Searching a list for a path is looking up its components. -/
theorem find?_same (l : List (String × α)) (p : String) :
    (l.find? fun e => Path.same e.1 p).map (·.2) = lookupKey l (Path.components p) :=
  rfl

/-- A list holds a path exactly when looking it up finds a value. -/
theorem any_same (l : List (String × α)) (p : String) :
    l.any (fun e => Path.same e.1 p) = (lookupKey l (Path.components p)).isSome := by
  rw [lookupKey, Option.isSome_map, List.isSome_find?]
  rfl

/-- The paths a list holds are the components of its keys. -/
theorem isSome_lookupKey (l : List (String × α)) (k : List Component) :
    (lookupKey l k).isSome ↔ k ∈ l.map (Path.components ·.1) := by
  simp [lookupKey, List.find?_isSome]

/-- Erasing a path forgets its value and keeps every other. -/
theorem lookupKey_eraseKey (l : List (String × α)) (p : String) (k : List Component) :
    lookupKey (FileIndex.eraseKey l p) k =
      if k = Path.components p then none else lookupKey l k := by
  induction l with
  | nil => simp [FileIndex.eraseKey]
  | cons e l ih =>
    simp only [FileIndex.eraseKey, List.filter_cons, Path.same_eq] at ih ⊢
    rw [lookupKey_cons]
    by_cases he : Path.components e.1 = Path.components p
    · simp only [he, decide_true, Bool.not_true, Bool.false_eq_true, if_false, ih]
      by_cases hk : k = Path.components p
      · simp [hk]
      · simp [hk, Ne.symm hk]
    · simp only [he, decide_false, Bool.not_false, if_true, lookupKey_cons, ih]
      by_cases hk : k = Path.components p
      · simp [hk, he]
      · simp [hk]

/-- Overwriting the values of a path's keys changes the value of that path alone, and only when
the list holds it. -/
theorem lookupKey_map_same (l : List (String × α)) (p : String) (v : α) (k : List Component) :
    lookupKey (l.map fun e => if Path.same e.1 p then (e.1, v) else e) k =
      if k = Path.components p ∧ (lookupKey l k).isSome then some v else lookupKey l k := by
  induction l with
  | nil => simp
  | cons e l ih =>
    simp only [List.map_cons, Path.same_eq, lookupKey_cons] at ih ⊢
    by_cases he : Path.components e.1 = Path.components p
    · simp only [he, decide_true, if_true, ih]
      by_cases hk : k = Path.components p
      · simp [hk]
      · simp [hk, Ne.symm hk]
    · simp only [he, decide_false, Bool.false_eq_true, if_false, ih]
      by_cases hk : k = Path.components p
      · simp [hk, he]
      · simp [hk]

/-- A pair appended at the end is found only where no earlier key has its path. -/
theorem lookupKey_append_singleton (l : List (String × α)) (p : String) (v : α)
    (k : List Component) :
    lookupKey (l ++ [(p, v)]) k =
      (lookupKey l k).or (if Path.components p = k then some v else none) := by
  induction l with
  | nil => by_cases h : Path.components p = k <;> simp [lookupKey_cons, h]
  | cons e l ih =>
    simp only [List.cons_append, lookupKey_cons, ih]
    split <;> simp

/-- Setting the value of a path changes that path's value alone. -/
theorem lookupKey_setKey (l : List (String × α)) (p : String) (v : α) (k : List Component) :
    lookupKey (FileIndex.setKey l p v) k =
      if k = Path.components p then some v else lookupKey l k := by
  unfold FileIndex.setKey
  split
  · rename_i h
    rw [lookupKey_map_same]
    rw [any_same] at h
    by_cases hk : k = Path.components p
    · subst hk
      simp [h]
    · simp [hk]
  · rename_i h
    rw [any_same, Bool.not_eq_true, Option.isSome_eq_false_iff, Option.isNone_iff_eq_none] at h
    rw [lookupKey_append_singleton]
    by_cases hk : k = Path.components p
    · subst hk
      simp [h]
    · simp [hk, Ne.symm hk]

/-- A filter on values keeps the value of a path when that value passes it. -/
theorem lookupKey_filter_snd (l : List (String × α)) (P : α → Bool) (k : List Component) (v : α)
    (hv : lookupKey l k = some v) (hP : P v = true) :
    lookupKey (l.filter fun e => P e.2) k = some v := by
  induction l with
  | nil => simp at hv
  | cons e l ih =>
    rw [lookupKey_cons] at hv
    by_cases he : Path.components e.1 = k
    · simp only [he, if_true, Option.some.injEq] at hv
      subst hv
      simp [hP, lookupKey_cons, he]
    · rw [if_neg he] at hv
      by_cases hp : P e.2 = true
      · simp [hp, lookupKey_cons, he, ih hv]
      · simp [hp, ih hv]

/-- Updating the values of a path's keys changes the value of that path alone. -/
theorem lookupKey_map_update (l : List (String × α)) (p : String) (f : α → α)
    (k : List Component) :
    lookupKey (l.map fun e => if Path.same e.1 p then (e.1, f e.2) else e) k =
      if k = Path.components p then (lookupKey l k).map f else lookupKey l k := by
  induction l with
  | nil => simp
  | cons e l ih =>
    simp only [List.map_cons, Path.same_eq, lookupKey_cons] at ih ⊢
    by_cases he : Path.components e.1 = Path.components p
    · simp only [he, decide_true, if_true, ih]
      by_cases hk : k = Path.components p
      · simp [hk]
      · simp [hk, Ne.symm hk]
    · simp only [he, decide_false, Bool.false_eq_true, if_false, ih]
      by_cases hk : k = Path.components p
      · simp [hk, he]
      · simp [hk]

/-- Setting the value of a path a list holds keeps the paths it holds. -/
theorem isSome_lookupKey_setKey_of_isSome {l : List (String × α)} {p : String}
    (hp : (lookupKey l (Path.components p)).isSome) (v : α) (k : List Component) :
    (lookupKey (FileIndex.setKey l p v) k).isSome = (lookupKey l k).isSome := by
  rw [lookupKey_setKey]
  split
  · rename_i hk
    rw [hk, hp]
    rfl
  · rfl

/-- Dropping the pairs whose keys pass a test on their components forgets exactly the paths
that pass it. -/
theorem lookupKey_filter_key (l : List (String × α)) (P : List Component → Bool)
    (k : List Component) :
    lookupKey (l.filter fun e => !P (Path.components e.1)) k =
      if P k then none else lookupKey l k := by
  induction l with
  | nil => simp
  | cons e l ih =>
    rw [List.filter_cons, lookupKey_cons]
    by_cases he : Path.components e.1 = k
    · subst he
      by_cases hP : P (Path.components e.1) = true
      · simp [hP, ih]
      · simp [hP, lookupKey_cons]
    · by_cases hP : P (Path.components e.1) = true
      · simp [hP, ih, he]
      · simp [hP, lookupKey_cons, he, ih]

/-- Setting a path and then erasing it is erasing it. -/
theorem eraseKey_setKey (l : List (String × α)) (p : String) (v : α) :
    FileIndex.eraseKey (FileIndex.setKey l p v) p = FileIndex.eraseKey l p := by
  unfold FileIndex.setKey FileIndex.eraseKey
  split
  · rename_i h
    clear h
    induction l with
    | nil => rfl
    | cons e l ih => by_cases he : Path.same e.1 p = true <;> simp [he, ih]
  · simp [List.filter_append, Path.same_eq]

/-- Erasing a path keeps the keys of a list different paths. -/
theorem nodup_keys_eraseKey (l : List (String × α)) (p : String)
    (h : (l.map (Path.components ·.1)).Nodup) :
    ((FileIndex.eraseKey l p).map (Path.components ·.1)).Nodup :=
  h.sublist (List.filter_sublist.map _)

/-- Setting the value of a path keeps the keys of a list different paths: it overwrites the
path's pair or appends one for a path not held. -/
theorem nodup_keys_setKey (l : List (String × α)) (p : String) (v : α)
    (h : (l.map (Path.components ·.1)).Nodup) :
    ((FileIndex.setKey l p v).map (Path.components ·.1)).Nodup := by
  unfold FileIndex.setKey
  split
  · rw [List.map_map]
    convert h using 2
    funext e
    by_cases he : Path.same e.1 p <;> simp [he]
  · rename_i hp
    rw [any_same, Bool.not_eq_true, Option.isSome_eq_false_iff, Option.isNone_iff_eq_none] at hp
    have habsent : Path.components p ∉ l.map (Path.components ·.1) := by
      rw [← isSome_lookupKey, hp]
      simp
    rw [List.map_append, List.nodup_append]
    refine ⟨h, List.nodup_singleton _, ?_⟩
    intro a ha b hb hab
    simp only [List.map_cons, List.map_nil, List.mem_singleton] at hb
    exact habsent (hb ▸ hab ▸ ha)

/-- The paths a list holds form the finite set of its keys' components. -/
theorem setOf_lookupKey (l : List (String × α)) :
    {k | (lookupKey l k).isSome} = ↑(l.map (Path.components ·.1)).toFinset := by
  ext k
  simp only [Set.mem_ofPred_eq, isSome_lookupKey, Finset.mem_coe, List.mem_toFinset]

/-- A list whose keys name different paths has one pair for each path it holds. -/
theorem ncard_lookupKey (l : List (String × α)) (h : (l.map (Path.components ·.1)).Nodup) :
    {k | (lookupKey l k).isSome}.ncard = l.length := by
  rw [setOf_lookupKey, Set.ncard_coe_finset, List.toFinset_card_of_nodup h, List.length_map]

/-- The paths a list holds are finitely many. -/
theorem finite_lookupKey (l : List (String × α)) : {k | (lookupKey l k).isSome}.Finite := by
  rw [setOf_lookupKey]
  exact Finset.finite_toSet _

end Keyed

end WikiSync
