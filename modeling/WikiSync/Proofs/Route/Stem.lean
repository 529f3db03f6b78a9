import Mathlib.Data.List.DropRight
import Mathlib.Data.List.TakeWhile
import WikiSync.Proofs.Route.Reuse

/-!
# Safe file stems

A title becomes a file stem by replacing the characters no platform accepts, keeping at most
`maxStemChars` characters, trimming dots and blanks from both ends, and then putting `_` in the
place of an empty result, or before a reserved device name. Whatever the title, the stem is safe
(`sanitize_safe`): it is not empty, short enough, made of allowed characters, neither begins nor
ends with a dot or a blank, and is no reserved name in any letter case. A safe stem is its own
stem (`sanitize_of_safe`), so making a stem twice changes nothing (`sanitize_sanitize`), and a
stem with a dot and an extension joined to a folder names one entry directly inside it
(`components_join_stem`).

The trimming is Mathlib's `List.dropWhile` followed by `List.rdropWhile`; its ends and its place
inside the replaced characters come from the lemmas of those two (`trimEnds_isInfix`,
`trimEnds_head`, `trimEnds_last`).
-/

namespace WikiSync.FileName

open Text

/-- What makes a stem safe on every platform. -/
structure SafeStem (s : String) : Prop where
  /-- It is not empty. -/
  nonempty : s.toList ≠ []
  /-- It has at most `maxStemChars` characters. -/
  short : s.length ≤ maxStemChars
  /-- None of its characters is forbidden or a control character. -/
  allowed : ∀ c ∈ s.toList, c ∉ forbidden ∧ isControl c = false
  /-- It does not begin with a dot or a blank. -/
  first : ∀ c ∈ s.toList.head?, trimmed c = false
  /-- It does not end with a dot or a blank. -/
  last : ∀ c ∈ s.toList.getLast?, trimmed c = false
  /-- It is no reserved device name, in any letter case. -/
  unreserved : ∀ r ∈ reserved, r.map Char.toUpper ≠ s.map Char.toUpper

/-! ### The steps of `sanitize` -/

/-- A replaced character is allowed: a forbidden or control character becomes `_`. -/
theorem replace_allowed (c : Char) :
    (if forbidden.contains c || isControl c then '_' else c) ∉ forbidden ∧
      isControl (if forbidden.contains c || isControl c then '_' else c) = false := by
  split
  · decide
  · rename_i hkeep
    simp only [Bool.or_eq_true, not_or, Bool.not_eq_true] at hkeep
    exact ⟨by simpa using hkeep.1, hkeep.2⟩

/-- Trimming both ends leaves a piece of the characters. -/
theorem trimEnds_isInfix (p : Char → Bool) (cs : List Char) :
    ((cs.dropWhile p).reverse.dropWhile p).reverse <:+: cs :=
  (List.rdropWhile_prefix p _).isInfix.trans (List.dropWhile_suffix p).isInfix

/-- Trimming both ends leaves no trimmed character at the end. -/
theorem trimEnds_last (p : Char → Bool) (cs : List Char) :
    ∀ c ∈ (((cs.dropWhile p).reverse.dropWhile p).reverse).getLast?, p c = false := by
  change ∀ c ∈ (List.rdropWhile p (cs.dropWhile p)).getLast?, p c = false
  intro c hc
  have hne : List.rdropWhile p (cs.dropWhile p) ≠ [] := fun h => by simp [h] at hc
  have hlast := List.rdropWhile_last_not p _ hne
  rw [List.getLast?_eq_some_getLast hne] at hc
  cases hc
  simpa using hlast

/-- Trimming both ends leaves no trimmed character at the start: the start is that of the
characters after the leading ones are dropped. -/
theorem trimEnds_head (p : Char → Bool) (cs : List Char) :
    ∀ c ∈ (((cs.dropWhile p).reverse.dropWhile p).reverse).head?, p c = false := by
  change ∀ c ∈ (List.rdropWhile p (cs.dropWhile p)).head?, p c = false
  intro c hc
  have hpre := List.rdropWhile_prefix p (cs.dropWhile p)
  have hne : List.rdropWhile p (cs.dropWhile p) ≠ [] := fun h => by simp [h] at hc
  have hne' : cs.dropWhile p ≠ [] := fun h => hne (by simp [h, List.rdropWhile])
  have hhead := List.head_dropWhile_not p hne'
  rw [List.head?_eq_some_head hne] at hc
  cases hc
  rw [hpre.head hne]
  exact hhead

/-- A name equal to a reserved one up to letter case is short, and no reserved name begins
with `_` in any letter case. -/
theorem reserved_short_plain :
    ∀ r ∈ reserved, r.length ≤ 4 ∧ (r.toList.map Char.toUpper).head? ≠ some '_' := by
  decide

/-- A stem that begins with `_` is no reserved name. -/
theorem unreserved_underscore (s : String) :
    ∀ r ∈ reserved, r.map Char.toUpper ≠ ("_" ++ s).map Char.toUpper := by
  intro r hr heq
  have hhead := congrArg (fun x : String => x.toList.head?) heq
  simp only [String.toList_map, String.toList_append] at hhead
  exact (reserved_short_plain r hr).2 (by rw [hhead]; rfl)

/-- The characters kept, trimmed and free of forbidden ones, make a safe stem when they are not
empty and not reserved. -/
theorem safe_of_trimmed {cs : List Char} (hne : cs ≠ [])
    (hall : ∀ c ∈ cs, c ∉ forbidden ∧ isControl c = false) (hlen : cs.length ≤ maxStemChars)
    (hfirst : ∀ c ∈ cs.head?, trimmed c = false) (hlast : ∀ c ∈ cs.getLast?, trimmed c = false)
    (hres : ∀ r ∈ reserved, r.map Char.toUpper ≠ (String.ofList cs).map Char.toUpper) :
    SafeStem (String.ofList cs) where
  nonempty := by simpa using hne
  short := by rw [← String.length_toList, String.toList_ofList]; exact hlen
  allowed := by simpa using hall
  first := by simpa using hfirst
  last := by simpa using hlast
  unreserved := hres

theorem safe_underscore : SafeStem "_" := by
  -- the checks are read off the one character, not decided over the literal
  have h : "_".toList = ['_'] := by decide
  refine ⟨by simp [h], by decide, ?_, ?_, ?_, by simpa using unreserved_underscore ""⟩
  · simp only [h, List.mem_singleton, forall_eq]
    exact ⟨by decide, by decide⟩
  · simp only [h, List.head?_cons, Option.mem_def, Option.some.injEq, forall_eq']
    decide
  · simp only [h, List.getLast?_singleton, Option.mem_def, Option.some.injEq, forall_eq']
    decide

/-- Whatever the title, its stem is safe. -/
theorem sanitize_safe (title : String) : SafeStem (sanitize title) := by
  unfold sanitize
  dsimp only
  generalize hcs₀ : (title.toList.map fun c =>
    if forbidden.contains c || isControl c then '_' else c).take maxStemChars = cs₀
  have hall₀ : ∀ c ∈ cs₀, c ∉ forbidden ∧ isControl c = false := by
    rw [← hcs₀]
    intro c hc
    obtain ⟨d, -, rfl⟩ := List.mem_map.mp (List.mem_of_mem_take hc)
    exact replace_allowed d
  have hlen₀ : cs₀.length ≤ maxStemChars := by
    rw [← hcs₀]
    exact List.length_take_le _ _
  have hpiece := trimEnds_isInfix trimmed cs₀
  have hfirst := trimEnds_head trimmed cs₀
  have hlast := trimEnds_last trimmed cs₀
  generalize ((cs₀.dropWhile trimmed).reverse.dropWhile trimmed).reverse = cs at hpiece hfirst hlast
  have hall : ∀ c ∈ cs, c ∉ forbidden ∧ isControl c = false := fun c hc => hall₀ c (hpiece.subset hc)
  have hlen : cs.length ≤ maxStemChars := hpiece.length_le.trans hlen₀
  split
  · exact safe_underscore
  · rename_i hempty
    have hne : cs ≠ [] := fun h => hempty (by simp [h])
    split
    · rename_i hres
      obtain ⟨r, hr, heq⟩ := List.any_eq_true.mp hres
      have hshort : cs.length ≤ 4 := by
        have h := congrArg String.length (beq_iff_eq.mp heq)
        rw [String.length_map, String.length_map, ← String.length_toList (s := String.ofList cs),
          String.toList_ofList] at h
        exact h ▸ (reserved_short_plain r hr).1
      have hcs : "_" ++ String.ofList cs = String.ofList ('_' :: cs) := by simp
      rw [hcs]
      refine safe_of_trimmed (List.cons_ne_nil _ _) ?_ ?_ ?_ ?_ (hcs ▸ unreserved_underscore _)
      · intro c hc
        rcases List.mem_cons.mp hc with rfl | hc
        · decide
        · exact hall c hc
      · rw [List.length_cons]
        exact (Nat.succ_le_succ hshort).trans (by decide)
      · intro c hc
        cases hc
        decide
      · rw [List.getLast?_cons, List.getLast?_eq_some_getLast hne]
        intro c hc
        cases hc
        exact hlast _ (List.getLast?_eq_some_getLast hne)
    · rename_i hres
      refine safe_of_trimmed hne hall hlen hfirst hlast fun r hr heq => hres ?_
      exact List.any_eq_true.mpr ⟨r, hr, beq_iff_eq.mpr heq⟩

/-- A safe stem is its own stem: nothing is replaced, cut, trimmed or prefixed. -/
theorem sanitize_of_safe {s : String} (h : SafeStem s) : sanitize s = s := by
  have hmap : (s.toList.map fun c => if forbidden.contains c || isControl c then '_' else c) =
      s.toList := by
    conv => rhs; rw [← List.map_id s.toList]
    apply List.map_congr_left
    intro c hc
    have hkeep := h.allowed c hc
    rw [if_neg (by simpa using hkeep)]
    rfl
  have htake : s.toList.take maxStemChars = s.toList :=
    List.take_of_length_le (by rw [String.length_toList]; exact h.short)
  have hdrop : s.toList.dropWhile trimmed = s.toList := by
    rw [List.dropWhile_eq_self_iff]
    intro hl
    have h0 := h.first _ (List.head?_eq_some_head (List.ne_nil_of_length_pos hl))
    simp [List.head_eq_getElem] at h0
    simp [h0]
  have hrdrop : (s.toList.reverse.dropWhile trimmed).reverse = s.toList := by
    change List.rdropWhile trimmed s.toList = s.toList
    rw [List.rdropWhile_eq_self_iff]
    intro hl
    simp [h.last _ (List.getLast?_eq_some_getLast hl)]
  have hempty : s.toList.isEmpty = false := by simpa using h.nonempty
  have hres : (reserved.any fun r => r.map Char.toUpper == s.map Char.toUpper) = false := by
    simpa using h.unreserved
  unfold sanitize
  dsimp only
  rw [hmap, htake, hdrop, hrdrop, String.ofList_toList]
  simp only [hempty, hres, Bool.false_eq_true, if_false]

/-- Making a stem twice changes nothing. -/
theorem sanitize_sanitize (title : String) : sanitize (sanitize title) = sanitize title :=
  sanitize_of_safe (sanitize_safe title)

/-- A safe stem with a dot and an extension without separators is one name, directly inside any
folder it is joined to. -/
theorem components_join_stem {stem ext : String} (h : SafeStem stem) (hext : '/' ∉ ext.toList)
    (root : String) :
    Path.components (Path.join root (stem ++ "." ++ ext)) =
      Path.components root ++ [.normal (stem ++ "." ++ ext)] := by
  obtain ⟨c, cs, hcs⟩ := List.exists_cons_of_ne_nil h.nonempty
  have hname : (stem ++ "." ++ ext).toList = c :: (cs ++ '.' :: ext.toList) := by simp [hcs]
  have hslash : '/' ∉ (stem ++ "." ++ ext).toList := by
    have hs : '/' ∉ stem.toList := fun hm => (h.allowed '/' hm).1 (by decide)
    simp [hs, hext]
  have hdot : c ≠ '.' := by
    have hc := h.first c (by simp [hcs])
    rintro rfl
    exact absurd hc (by decide)
  have hblank : Path.isBlankPiece (stem ++ "." ++ ext) = false := by
    cases hb : Path.isBlankPiece (stem ++ "." ++ ext) with
    | false => rfl
    | true =>
      rw [← String.ofList_toList (s := stem ++ "." ++ ext), Path.isBlankPiece_ofList, hname] at hb
      rcases hb with hb | hb <;> simp at hb
  have hpar : stem ++ "." ++ ext ≠ ".." := by
    intro heq
    have := congrArg String.toList heq
    rw [hname] at this
    exact hdot (List.cons_eq_cons.mp this).1
  exact Path.components_join hslash hblank hpar


/-- A title's stem is safe on every platform, making it again changes nothing, and the stem with
a dot and an extension names one entry directly inside the folder it is joined to. -/
theorem sanitize_stable (title : String) :
    SafeStem (sanitize title) ∧ sanitize (sanitize title) = sanitize title ∧
      ∀ root ext : String, '/' ∉ ext.toList →
        Path.components (Path.join root (sanitize title ++ "." ++ ext)) =
          Path.components root ++ [.normal (sanitize title ++ "." ++ ext)] :=
  ⟨sanitize_safe title, sanitize_sanitize title,
    fun root _ hext => components_join_stem (sanitize_safe title) hext root⟩

example : sanitize "con" = "_con" ∧ sanitize "  ..name.. " = "name" := by
  simp +decide [sanitize, reserved, forbidden, maxStemChars, trimmed, ← String.toList_inj,
    String.toList_map]

end WikiSync.FileName
