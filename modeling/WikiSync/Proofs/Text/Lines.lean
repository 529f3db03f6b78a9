import Mathlib.Data.List.Chain
import WikiSync.Text.Blank

/-!
# Lines, separators and blanks

What the text operations of header files do to text built line by line: lines closed by line
feeds are read back one by one (`linesFrom_closed`), the first blank line splits a header from
its body (`splitOnFirst_blankLine`), a line splits at its first colon (`splitAtChar_append`),
and replacing `\r\n` leaves alone text in which it does not occur (`replacePair_of_isChain`).
The work is done on lists of characters, where the reader's recursion lives.
-/

namespace WikiSync.Text

/-- Characters without a line feed extend the current line. -/
theorem linesFrom_append (x rest acc : List Char) (h : '\n' ∉ x) :
    linesFrom (x ++ rest) acc = linesFrom rest (x.reverse ++ acc) := by
  induction x generalizing acc with
  | nil => rfl
  | cons c x ih =>
    have hc : c ≠ '\n' := fun hc => h (hc ▸ List.mem_cons_self)
    have hx : '\n' ∉ x := fun hx => h (List.mem_cons_of_mem c hx)
    rw [List.cons_append, linesFrom.eq_4 _ _ _ hc, ih _ hx]
    simp

/-- A line that does not end with a carriage return is closed as it is. -/
theorem closeLine_reverse (x : List Char) (h : x.getLast? ≠ some '\r') :
    closeLine x.reverse = x := by
  unfold closeLine
  split
  · rename_i rest hrest
    have : x.getLast? = some '\r' := by
      rw [← List.head?_reverse, hrest]
      rfl
    exact absurd this h
  · simp

/-- Lines each closed by a line feed are read back one by one. -/
theorem linesFrom_closed (ls : List (List Char))
    (h : ∀ x ∈ ls, '\n' ∉ x ∧ x.getLast? ≠ some '\r') :
    linesFrom (ls.flatMap (· ++ ['\n'])) [] = ls := by
  induction ls with
  | nil => rfl
  | cons x ls ih =>
    obtain ⟨hx, hr⟩ := h x List.mem_cons_self
    rw [List.flatMap_cons, List.append_assoc, linesFrom_append _ _ _ hx, List.singleton_append,
      List.append_nil, linesFrom, closeLine_reverse x hr, ih fun y hy => h y (by simp [hy])]

/-- Non-empty lines separated by line feeds are read back one by one. -/
theorem linesFrom_intercalate (ls : List (List Char)) (hne : ls ≠ [])
    (h : ∀ x ∈ ls, x ≠ [] ∧ '\n' ∉ x ∧ x.getLast? ≠ some '\r') :
    linesFrom (['\n'].intercalate ls) [] = ls := by
  induction ls with
  | nil => exact absurd rfl hne
  | cons x ls ih =>
    obtain ⟨hx₀, hx, hr⟩ := h x List.mem_cons_self
    cases ls with
    | nil =>
      have hrev : x.reverse ≠ [] := by simpa using hx₀
      rw [List.intercalate_singleton, ← List.append_nil x, linesFrom_append _ _ _ hx,
        List.append_nil, List.append_nil, linesFrom.eq_2 _ hrev, List.reverse_reverse]
    | cons y ls =>
      rw [List.intercalate_cons_cons, List.append_assoc, linesFrom_append _ _ _ hx,
        List.singleton_append, List.append_nil, linesFrom, closeLine_reverse x hr,
        ih (by simp) fun z hz => h z (by simp [hz])]


/-- A pattern cannot start within characters that lack its first character. -/
theorem startsWithChars_of_not_mem (a : Char) (pat x : List Char) (c : Char) (hc : c ≠ a) :
    startsWithChars (c :: x) (a :: pat) = false := by
  simp [startsWithChars, hc]

/-- Characters that lack the first character of a pattern come before its first occurrence. -/
theorem splitOnFirst_append (a : Char) (pat x rest : List Char) (h : a ∉ x) :
    splitOnFirst (a :: pat) (x ++ rest) =
      (splitOnFirst (a :: pat) rest).map fun p => (x ++ p.1, p.2) := by
  induction x with
  | nil => simp
  | cons c x ih =>
    have hc : c ≠ a := fun hc => h (hc ▸ List.mem_cons_self)
    have hx : a ∉ x := fun hx => h (List.mem_cons_of_mem c hx)
    rw [List.cons_append, splitOnFirst, startsWithChars_of_not_mem a pat _ c hc, ih hx]
    simp [Option.map_map, Function.comp_def]

/-- Non-empty lines closed by line feeds, then a blank line: the first blank line ends the
lines, which come back joined by line feeds. -/
theorem splitOnFirst_blankLine (ls : List (List Char)) (body : List Char) (hne : ls ≠ [])
    (h : ∀ x ∈ ls, x ≠ [] ∧ '\n' ∉ x) :
    splitOnFirst ['\n', '\n'] (ls.flatMap (· ++ ['\n']) ++ '\n' :: body) =
      some (['\n'].intercalate ls, body) := by
  induction ls with
  | nil => exact absurd rfl hne
  | cons x ls ih =>
    obtain ⟨hx₀, hx⟩ := h x List.mem_cons_self
    rw [List.flatMap_cons, List.append_assoc, List.append_assoc,
      splitOnFirst_append _ _ _ _ hx, List.singleton_append]
    cases ls with
    | nil => simp [splitOnFirst, startsWithChars]
    | cons y ls =>
      obtain ⟨hy₀, hy⟩ := h y (by simp)
      obtain ⟨c, y', rfl⟩ := List.exists_cons_of_ne_nil hy₀
      have hc : c ≠ '\n' := fun hc => hy (hc ▸ List.mem_cons_self)
      have hrest := ih (by simp) fun z hz => h z (by simp [hz])
      rw [List.flatMap_cons, List.cons_append, List.append_assoc] at hrest ⊢
      rw [splitOnFirst, if_neg (by simp [startsWithChars, hc]), hrest]
      simp


/-- Text splits at its first separator: what comes before holds none. -/
theorem splitAtChar_append (x r : List Char) (sep : Char) (h : sep ∉ x) :
    splitAtChar (String.ofList (x ++ sep :: r)) sep = some (String.ofList x, String.ofList r) := by
  have hnone : x.findIdx? (· == sep) = none := by
    rw [List.findIdx?_eq_none_iff]
    intro c hc
    simpa using fun he : c = sep => h (he ▸ hc)
  unfold splitAtChar
  simp [hnone, List.findIdx?_cons]

/-- A leading blank is trimmed away. -/
theorem trim_blank_append (v : String) : trim (" " ++ v) = trim v := by
  simp [trim, trimStart, isBlank]

/-- Trimmed text does not end with a blank. -/
theorem getLast?_trim (s : String) : ∀ c ∈ (trim s).toList.getLast?, isBlank c = false := by
  intro c hc
  simp only [trim, trimEnd, String.toList_ofList, List.getLast?_reverse] at hc
  have := List.head?_dropWhile_not isBlank (trimStart s).toList.reverse
  rw [hc] at this
  exact this

/-- Characters with no pattern `a b` in them are left as they are by replacing it. -/
theorem replacePair_of_isChain (a b r : Char) (cs : List Char)
    (h : cs.IsChain fun x y => ¬ (x = a ∧ y = b)) : replacePair a b r cs = cs := by
  fun_induction replacePair a b r cs with
  | case1 => rfl
  | case2 c => rfl
  | case3 c d rest hcd ih =>
    simp only [Bool.and_eq_true, beq_iff_eq] at hcd
    exact absurd hcd (List.isChain_cons_cons.1 h).1
  | case4 c d rest hcd ih =>
    rw [ih (List.isChain_cons_cons.1 h).2]


/-- Characters in which `a b` does not occur have no `a` directly before a `b`. -/
theorem isChain_of_not_infix (a b : Char) (cs : List Char) (h : ¬ [a, b] <:+: cs) :
    cs.IsChain fun x y => ¬ (x = a ∧ y = b) := by
  rw [List.isChain_iff_forall_rel_of_append_cons_cons]
  rintro x y l₁ l₂ rfl ⟨rfl, rfl⟩
  exact h ⟨l₁, l₂, by simp⟩

/-- Characters without `b` have no `a` directly before a `b`. -/
theorem isChain_of_not_mem (a b : Char) (cs : List Char) (h : b ∉ cs) :
    cs.IsChain fun x y => ¬ (x = a ∧ y = b) := by
  rw [List.isChain_iff_forall_rel_of_append_cons_cons]
  rintro x y l₁ l₂ rfl ⟨rfl, rfl⟩
  exact h (by simp)

/-- Lines closed by line feeds end with a line feed. -/
theorem getLast?_closed (ls : List (List Char)) :
    ∀ a ∈ (ls.flatMap (· ++ ['\n'])).getLast?, a = '\n' := by
  induction ls with
  | nil => simp
  | cons x ls ih =>
    intro a ha
    rw [List.flatMap_cons, List.getLast?_append] at ha
    cases hl : (ls.flatMap (· ++ ['\n'])).getLast? with
    | none => simpa [hl, eq_comm] using ha
    | some b => exact ih a (by simpa [hl] using ha)

/-- Lines closed by line feeds, none ending with a carriage return, hold no `\r\n`. -/
theorem isChain_closed (ls : List (List Char))
    (h : ∀ x ∈ ls, '\n' ∉ x ∧ x.getLast? ≠ some '\r') :
    (ls.flatMap (· ++ ['\n'])).IsChain fun x y => ¬ (x = '\r' ∧ y = '\n') := by
  induction ls with
  | nil => exact List.IsChain.nil
  | cons x ls ih =>
    obtain ⟨hx, hr⟩ := h x List.mem_cons_self
    have hline : (x ++ ['\n']).IsChain fun x y => ¬ (x = '\r' ∧ y = '\n') := by
      refine List.IsChain.append (isChain_of_not_mem _ _ x hx) (List.isChain_singleton _) ?_
      rintro a ha b - ⟨rfl, -⟩
      exact hr ha
    rw [List.flatMap_cons]
    refine List.IsChain.append hline (ih fun y hy => h y (by simp [hy])) ?_
    rintro a ha b - ⟨rfl, -⟩
    simp at ha

end WikiSync.Text
