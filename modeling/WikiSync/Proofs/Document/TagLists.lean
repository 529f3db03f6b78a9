import Mathlib.Data.List.Infix
import WikiSync.Proofs.Document.Fields
import WikiSync.Document.TagList

/-!
# Tag lists read back

A written tag list reads back as its items with the empty ones and the repeats dropped, first
occurrences kept (`parse_render`), when each item is written in a form the reader takes whole: an
item without blanks is written bare and must not begin with `[[`, which would open a bracketed
item; an item with a blank is written in brackets and must neither hold `]]` nor end with `]`,
either of which would close its brackets early.

The proof follows the reader through one written item at a time. A bare item is read as a word
up to the blank after it (`readFrom_word`), a bracketed one up to its closing brackets
(`readFrom_bracketed`); either way the item is added as `pushUnique` adds it
(`readFrom_writeItem`), and adding items so keeps the first occurrence of each non-empty one
(`foldl_pushUnique`).
-/

namespace WikiSync.TagList

open Text

/-- Adding items one by one keeps the first occurrence of each non-empty item not yet present. -/
theorem foldl_pushUnique (items xs : List String) :
    xs.foldl pushUnique items =
      items ++ (xs.filter fun x => !x.isEmpty && !items.contains x).eraseDups := by
  induction xs generalizing items with
  | nil => simp
  | cons x xs ih =>
    by_cases hx : (x.isEmpty || items.contains x) = true
    · have hkeep : pushUnique items x = items := by rw [pushUnique, if_pos hx]
      have hdrop : (!x.isEmpty && !items.contains x) = false := by
        rw [← Bool.not_or, hx, Bool.not_true]
      rw [List.foldl_cons, hkeep, ih, List.filter_cons, hdrop]
      rfl
    · have hadd : pushUnique items x = items ++ [x] := by rw [pushUnique, if_neg hx]
      have htake : (!x.isEmpty && !items.contains x) = true := by
        rw [← Bool.not_or, Bool.of_not_eq_true hx, Bool.not_false]
      rw [List.foldl_cons, hadd, ih, List.filter_cons, if_pos htake, List.eraseDups_cons,
        List.filter_filter, List.append_assoc, List.singleton_append]
      congr 3
      apply List.filter_congr
      intro y _
      simp only [List.contains_append, List.contains_cons, List.contains_nil, Bool.or_false,
        Bool.not_or]
      cases y.isEmpty <;> cases items.contains y <;> cases y == x <;> rfl

theorem isBlank_bracket : isBlank '[' = false := by decide

/-! The reader's equations, one per kind of step. They are proved from the unfolded definition,
where a character pattern is one test, instead of from the generated equations, which must
separate every pattern from the overlapping ones before it and are slow to build. -/

theorem readFrom_nil_gap {items : List String} : readFrom [] .gap items = items := rfl

theorem readFrom_open_brackets {r : List Char} {items : List String} :
    readFrom ('[' :: '[' :: r) .gap items = readFrom r (.bracketed []) items := rfl

theorem readFrom_gap_cons {c : Char} {r : List Char} {items : List String}
    (hopen : ∀ r', c = '[' → r = '[' :: r' → False) :
    readFrom (c :: r) .gap items =
      if isBlank c then readFrom r .gap items else readFrom r (.word [c]) items := by
  rw [readFrom.eq_def]
  split <;> simp_all

theorem readFrom_word_cons {c : Char} {r acc : List Char} {items : List String} :
    readFrom (c :: r) (.word acc) items =
      if isBlank c then readFrom r .gap (pushUnique items (String.ofList acc.reverse))
      else readFrom r (.word (c :: acc)) items := by
  rw [readFrom.eq_def]
  split <;> simp_all

theorem readFrom_close_brackets {r acc : List Char} {items : List String} :
    readFrom (']' :: ']' :: r) (.bracketed acc) items =
      readFrom r .gap (pushUnique items (String.ofList acc.reverse)) := rfl

theorem readFrom_bracketed_cons {c : Char} {r acc : List Char} {items : List String}
    (hclose : ∀ r', c = ']' → r = ']' :: r' → False) :
    readFrom (c :: r) (.bracketed acc) items = readFrom r (.bracketed (c :: acc)) items := by
  rw [readFrom.eq_def]
  split <;> simp_all

/-- A blank between items is skipped. -/
theorem readFrom_gap_blank {c : Char} (hc : isBlank c = true) (r : List Char)
    (items : List String) : readFrom (c :: r) .gap items = readFrom r .gap items := by
  have hopen : ∀ r', c = '[' → r = '[' :: r' → False := by
    rintro r' rfl -
    simp [isBlank_bracket] at hc
  rw [readFrom_gap_cons hopen, if_pos hc]

/-- A run of non-blank characters read as a word ends at the blank after it, or at the end, and
adds the word. -/
theorem readFrom_word (w r acc : List Char) (items : List String)
    (hw : ∀ c ∈ w, isBlank c = false) (hr : r.head?.all isBlank = true) :
    readFrom (w ++ r) (.word acc) items =
      readFrom r .gap (pushUnique items (String.ofList (acc.reverse ++ w))) := by
  induction w generalizing acc with
  | nil =>
    cases r with
    | nil => rw [List.nil_append, List.append_nil]; rfl
    | cons c r =>
      have hc : isBlank c = true := by simpa using hr
      rw [List.nil_append, readFrom_word_cons, if_pos hc, readFrom_gap_blank hc, List.append_nil]
  | cons c w ih =>
    have hc : isBlank c = false := hw c List.mem_cons_self
    rw [List.cons_append, readFrom_word_cons, if_neg (by simp [hc]),
      ih (c :: acc) (fun d hd => hw d (List.mem_cons_of_mem _ hd))]
    simp

/-- A bracketed item whose characters, followed by one `]`, hold no `]]` is read up to the
closing brackets after it, and added. -/
theorem readFrom_bracketed (w r acc : List Char) (items : List String)
    (hw : ¬[']', ']'] <:+: w ++ [']']) :
    readFrom (w ++ ']' :: ']' :: r) (.bracketed acc) items =
      readFrom r .gap (pushUnique items (String.ofList (acc.reverse ++ w))) := by
  induction w generalizing acc with
  | nil => rw [List.nil_append, readFrom_close_brackets, List.append_nil]
  | cons c w ih =>
    -- `c` closes nothing: a `]` followed by another would put `]]` in the item
    have hclose : ∀ r', c = ']' → w ++ ']' :: ']' :: r = ']' :: r' → False := by
      rintro r' rfl hr'
      apply hw
      cases w with
      | nil => exact ⟨[], [], rfl⟩
      | cons d w =>
        obtain ⟨rfl, -⟩ := List.cons_eq_cons.1 hr'
        exact ⟨[], w ++ [']'], by simp⟩
    rw [List.cons_append, readFrom_bracketed_cons hclose,
      ih (c :: acc) (fun h => hw (List.infix_cons h))]
    simp

/-- An item with no `]]` in it and no `]` at its end has no `]]` once a `]` follows it. -/
theorem no_close_of_append {w : List Char} (hw : ¬[']', ']'] <:+: w)
    (hlast : w.getLast? ≠ some ']') : ¬[']', ']'] <:+: w ++ [']'] := by
  rintro ⟨s, t, hst⟩
  rcases List.eq_nil_or_concat t with rfl | ⟨t, d, rfl⟩
  · have h : (s ++ [']']) ++ [']'] = w ++ [']'] := by simpa using hst
    simp [← (List.append_inj' h rfl).1] at hlast
  · have h : (s ++ [']', ']'] ++ t) ++ [d] = w ++ [']'] := by simpa using hst
    exact hw ⟨s, t, (List.append_inj' h rfl).1⟩

variable {x : String} {r : List Char} {items : List String}

/-- One written item, followed by the end or a blank, is read whole and added. -/
theorem readFrom_writeItem
    (hbare : hasBlank x = false → ¬['[', '['] <+: x.toList)
    (hbracketed : hasBlank x = true → ¬[']', ']'] <:+: x.toList ++ [']'])
    (hr : r.head?.all isBlank = true) :
    readFrom ((writeItem x).toList ++ r) .gap items = readFrom r .gap (pushUnique items x) := by
  cases hx : hasBlank x with
  | true =>
    have hw : (writeItem x).toList = '[' :: '[' :: (x.toList ++ [']', ']']) := by
      simp [writeItem, hx]
    rw [hw, List.cons_append, List.cons_append, readFrom_open_brackets, List.append_assoc,
      List.cons_append, List.cons_append, List.nil_append, readFrom_bracketed _ _ _ _
      (hbracketed hx)]
    simp
  | false =>
    have hw : (writeItem x).toList = x.toList := by simp [writeItem, hx]
    have hnb : ∀ c ∈ x.toList, isBlank c = false := by
      simpa [hasBlank] using hx
    rw [hw]
    cases hcs : x.toList with
    | nil =>
      have hempty : pushUnique items x = items := by
        simp [pushUnique, String.toList_eq_nil_iff.1 hcs]
      rw [List.nil_append, hempty]
    | cons c w =>
      have hopen : ∀ r', c = '[' → w ++ r = '[' :: r' → False := by
        rintro r' rfl hr'
        cases w with
        | nil =>
          rw [List.nil_append] at hr'
          simp [hr', isBlank_bracket] at hr
        | cons d w =>
          obtain ⟨rfl, -⟩ := List.cons_eq_cons.1 hr'
          exact hbare hx ⟨w, by simp [hcs]⟩
      have hc : isBlank c = false := hnb c (by simp [hcs])
      rw [List.cons_append, readFrom_gap_cons hopen, if_neg (by simp [hc]),
        readFrom_word _ _ _ _ (fun d hd => hnb d (by simp [hcs, hd])) hr]
      rw [List.reverse_singleton, List.singleton_append, ← hcs, String.ofList_toList]

/-- Written items, each read whole, are read as the items added in order. -/
theorem readFrom_render (xs items : List String)
    (hbare : ∀ x ∈ xs, hasBlank x = false → ¬['[', '['] <+: x.toList)
    (hbracketed : ∀ x ∈ xs, hasBlank x = true → ¬[']', ']'] <:+: x.toList ++ [']']) :
    readFrom (render xs).toList .gap items = xs.foldl pushUnique items := by
  induction xs generalizing items with
  | nil => rfl
  | cons x xs ih =>
    have hx := hbare x List.mem_cons_self
    have hx' := hbracketed x List.mem_cons_self
    cases xs with
    | nil =>
      have hlast : readFrom ((writeItem x).toList ++ []) .gap items =
          readFrom [] .gap (pushUnique items x) := readFrom_writeItem hx hx' rfl
      simpa [render, readFrom_nil_gap] using hlast
    | cons y ys =>
      have hrender : (render (x :: y :: ys)).toList =
          (writeItem x).toList ++ ' ' :: (render (y :: ys)).toList := by
        simp [render, String.intercalate_cons_cons]
      have hspace : isBlank ' ' = true := by decide
      have hsep : (' ' :: (render (y :: ys)).toList).head?.all isBlank = true := hspace
      rw [hrender, readFrom_writeItem hx hx' hsep, readFrom_gap_blank hspace, List.foldl_cons,
        ih _ (fun z hz => hbare z (List.mem_cons_of_mem _ hz))
          (fun z hz => hbracketed z (List.mem_cons_of_mem _ hz))]

/-- Items written as a tag list read back without the empty ones and the repeats, first
occurrences kept in order, when no item without blanks begins with `[[` and no item with a blank
holds `]]` or ends with `]`. A document given the items as its tags reads back the same list. -/
theorem parse_render (xs : List String)
    (hbare : ∀ x ∈ xs, hasBlank x = false → ¬['[', '['] <+: x.toList)
    (hbracketed : ∀ x ∈ xs, hasBlank x = true →
      ¬[']', ']'] <:+: x.toList ∧ x.toList.getLast? ≠ some ']') :
    parse (render xs) = (xs.filter fun x => !x.isEmpty).eraseDups ∧
      ∀ title, ((Document.new title).withTags xs).tags =
        (xs.filter fun x => !x.isEmpty).eraseDups := by
  have hread : parse (render xs) = (xs.filter fun x => !x.isEmpty).eraseDups := by
    have hclosed : ∀ x ∈ xs, hasBlank x = true → ¬[']', ']'] <:+: x.toList ++ [']'] :=
      fun x hx hb => no_close_of_append (hbracketed x hx hb).1 (hbracketed x hx hb).2
    rw [parse, readFrom_render xs [] hbare hclosed, foldl_pushUnique]
    simp
  refine ⟨hread, fun title => ?_⟩
  simp only [Document.tags, Document.withTags, Document.set, Document.field?,
    Fields.get?_insert_self]
  exact hread

/-- Tags with a blank, a repeat, an empty item and a bare item holding `]]` read back. -/
theorem daily_notes_read_back :
    let xs := ["Journal", "Daily Notes", "", "Journal", "a]]b"]
    (∀ x ∈ xs, hasBlank x = false → ¬['[', '['] <+: x.toList) ∧
      (∀ x ∈ xs, hasBlank x = true →
        ¬[']', ']'] <:+: x.toList ∧ x.toList.getLast? ≠ some ']') ∧
      parse (render xs) = (xs.filter fun x => !x.isEmpty).eraseDups ∧
      ∀ title, ((Document.new title).withTags xs).tags =
        (xs.filter fun x => !x.isEmpty).eraseDups := by
  intro xs
  have hbare : ∀ x ∈ xs, hasBlank x = false → ¬['[', '['] <+: x.toList := by decide
  have hbracketed : ∀ x ∈ xs, hasBlank x = true →
      ¬[']', ']'] <:+: x.toList ∧ x.toList.getLast? ≠ some ']' := by decide
  exact ⟨hbare, hbracketed, parse_render xs hbare hbracketed⟩

end WikiSync.TagList
