import WikiSync.Proofs.Document.TagLists

/-!
# Tag lists read, written and read again

Reading a tag list gives items that are pairwise different and not empty, and no item with a
blank in it holds `]]` (`parse_tidy`): a bracketed item ends at the first `]]`, an unclosed one
holds none, and a word holds no blank. Written and read again, such items come back unchanged
(`parse_render_parse`) unless one of two kinds of item is among them, which the writer does not
guard against: an item with a blank that ends with `]`, which only an unclosed bracket gives and
whose closing brackets then close one character early; and an item without blanks that begins
with `[[`, which only a bracketed item gives and which, written bare, opens brackets when read
again.

The reading is followed by the reader's own induction principle, `readFrom.induct`, whose cases
carry the tests that separate the overlapping character patterns. What a state promises of the
item it is in (`Pending`) is kept from step to step, and each item added keeps the items tidy
(`Tidy.push`).
-/

namespace WikiSync.TagList

open Text

/-- Items as reading leaves them: pairwise different, none empty, and none with a blank holds
`]]`. -/
structure Tidy (items : List String) : Prop where
  /-- No item occurs twice. -/
  nodup : items.Nodup
  /-- No item is empty. -/
  nonempty : ∀ x ∈ items, x ≠ ""
  /-- An item with a blank holds no `]]`. -/
  closed : ∀ x ∈ items, hasBlank x = true → ¬[']', ']'] <:+: x.toList

/-- What the reader's state promises of the item it is in: a word holds no blank, and a
bracketed item holds no `]]`, the next character counted. -/
def Pending (rest : List Char) : Reading → Prop
  | .gap => True
  | .word acc => ∀ c ∈ acc, isBlank c = false
  | .bracketed acc => ¬[']', ']'] <:+: acc.reverse ++ rest.take 1

theorem Tidy.nil : Tidy [] := ⟨List.nodup_nil, by simp, by simp⟩

/-- Adding an item keeps the items tidy, when it holds no `]]` or no blank. -/
theorem Tidy.push {items : List String} {x : String} (h : Tidy items)
    (hx : hasBlank x = true → ¬[']', ']'] <:+: x.toList) : Tidy (pushUnique items x) := by
  unfold TagList.pushUnique
  split
  · exact h
  · rename_i hnew
    simp only [Bool.or_eq_true, String.isEmpty_iff, List.contains_iff_mem, not_or] at hnew
    refine ⟨?_, ?_, ?_⟩
    · rw [List.nodup_append]
      refine ⟨h.nodup, by simp, fun a ha b hb hab => hnew.2 ?_⟩
      rw [List.mem_singleton] at hb
      rwa [← hb, ← hab]
    · intro y hy
      rcases List.mem_append.mp hy with hy | hy
      · exact h.nonempty y hy
      · rw [List.mem_singleton.mp hy]
        exact hnew.1
    · intro y hy
      rcases List.mem_append.mp hy with hy | hy
      · exact h.closed y hy
      · rw [List.mem_singleton.mp hy]
        exact hx

/-- A pair inside characters with one more at the end lies inside them, or ends with the added
character. -/
theorem pair_infix_concat {a b d : Char} {l : List Char} (h : [a, b] <:+: l ++ [d]) :
    [a, b] <:+: l ∨ (l.getLast? = some a ∧ d = b) := by
  obtain ⟨s, t, hst⟩ := h
  rcases List.eq_nil_or_concat t with rfl | ⟨t, e, rfl⟩
  · have h' : (s ++ [a]) ++ [b] = l ++ [d] := by simpa using hst
    obtain ⟨hl, hd⟩ := List.append_inj' h' rfl
    refine .inr ⟨by simp [← hl], by simpa using hd.symm⟩
  · have h' : (s ++ [a, b] ++ t) ++ [e] = l ++ [d] := by simpa using hst
    exact .inl ⟨s, t, (List.append_inj' h' rfl).1⟩

/-- A bracketed item gains a character that does not close it: it still holds no `]]`, the
character after counted. -/
theorem no_close_extend {l r : List Char} {c : Char} (h : ¬[']', ']'] <:+: l ++ [c])
    (hclose : ∀ r', c = ']' → r = ']' :: r' → False) : ¬[']', ']'] <:+: l ++ [c] ++ r.take 1 := by
  cases r with
  | nil => simpa using h
  | cons d r' =>
    intro hpair
    rw [List.take_succ_cons, List.take_zero] at hpair
    rcases pair_infix_concat hpair with hin | ⟨hlast, rfl⟩
    · exact h hin
    · exact hclose r' (by simpa using hlast) rfl

/-- Reading from a state that keeps its promise keeps the items tidy. -/
theorem readFrom_tidy (cs : List Char) (st : Reading) (items : List String)
    (hst : Pending cs st) (hi : Tidy items) : Tidy (readFrom cs st items) := by
  induction cs, st, items using readFrom.induct with
  | case1 items => exact hi
  | case2 acc items =>
    exact hi.push fun hb => absurd hb (by simpa [hasBlank, Pending] using hst)
  | case3 acc items => exact hi.push fun _ => by simpa [Pending] using hst
  | case4 r items ih =>
    rw [readFrom_open_brackets]
    refine ih (fun hpair => ?_) hi
    have hlen := hpair.length_le
    simp only [List.reverse_nil, List.nil_append, List.length_take, List.length_cons,
      List.length_nil] at hlen
    omega
  | case5 c r items _ hc ih =>
    rw [readFrom_gap_blank hc]
    exact ih trivial hi
  | case6 c r items hopen hc ih =>
    rw [readFrom_gap_cons hopen, if_neg hc]
    exact ih (by simpa [Pending] using hc) hi
  | case7 c r acc items hc ih =>
    rw [readFrom_word_cons, if_pos hc]
    exact ih trivial (hi.push fun hb => absurd hb (by simpa [hasBlank, Pending] using hst))
  | case8 c r acc items hc ih =>
    rw [readFrom_word_cons, if_neg hc]
    refine ih (fun d hd => ?_) hi
    rcases List.mem_cons.mp hd with rfl | hd
    · simpa using hc
    · exact hst d hd
  | case9 r acc items ih =>
    rw [readFrom_close_brackets]
    refine ih trivial (hi.push fun _ hpair => hst ?_)
    rw [String.toList_ofList] at hpair
    exact hpair.trans (List.infix_append [] _ _)
  | case10 c r acc items hclose ih =>
    rw [readFrom_bracketed_cons hclose]
    have hnext : ¬[']', ']'] <:+: acc.reverse ++ [c] ++ r.take 1 :=
      no_close_extend (by simpa [Pending] using hst) hclose
    exact ih (by simpa [Pending] using hnext) hi

/-- The items read from any text are tidy. -/
theorem parse_tidy (s : String) : Tidy (parse s) :=
  readFrom_tidy _ _ _ trivial Tidy.nil

/-- Adding items that are new and not empty appends them. -/
theorem foldl_pushUnique_fresh {items xs : List String} (hnd : (items ++ xs).Nodup)
    (hne : ∀ x ∈ xs, x ≠ "") : xs.foldl pushUnique items = items ++ xs := by
  induction xs generalizing items with
  | nil => simp
  | cons x xs ih =>
    have hx : x ∉ items := fun hmem => (List.nodup_append.mp hnd).2.2 x hmem x (by simp) rfl
    have hadd : pushUnique items x = items ++ [x] := by
      rw [pushUnique, if_neg]
      simpa [String.isEmpty_iff] using ⟨hne x (by simp), hx⟩
    rw [List.foldl_cons, hadd, ih (by simpa using hnd) fun y hy => hne y (List.mem_cons_of_mem _ hy)]
    simp

/-- Items read from a text, written and read again, come back unchanged when no item without
blanks begins with `[[` and no item with a blank ends with `]`. -/
theorem parse_render_parse (s : String)
    (hbare : ∀ x ∈ parse s, hasBlank x = false → ¬['[', '['] <+: x.toList)
    (hlast : ∀ x ∈ parse s, hasBlank x = true → x.toList.getLast? ≠ some ']') :
    parse (render (parse s)) = parse s := by
  have ht := parse_tidy s
  have hclosed : ∀ x ∈ parse s, hasBlank x = true → ¬[']', ']'] <:+: x.toList ++ [']'] :=
    fun x hx hb => no_close_of_append (ht.closed x hx hb) (hlast x hx hb)
  show readFrom (render (parse s)).toList .gap [] = parse s
  rw [readFrom_render _ [] hbare hclosed]
  exact foldl_pushUnique_fresh (by simpa using ht.nodup) ht.nonempty

/-- A tag list with bracketed items, repeats, a bare item holding `]]` and a run of blanks reads
back the same once written. -/
theorem journal_tags_reread :
    let s := "Journal [[Daily Notes]]  a]]b Journal [[Daily Notes]] [[x]]"
    (∀ x ∈ parse s, hasBlank x = false → ¬['[', '['] <+: x.toList) ∧
      (∀ x ∈ parse s, hasBlank x = true → x.toList.getLast? ≠ some ']') ∧
      parse (render (parse s)) = parse s := by
  intro s
  have hbare : ∀ x ∈ parse s, hasBlank x = false → ¬['[', '['] <+: x.toList := by decide
  have hlast : ∀ x ∈ parse s, hasBlank x = true → x.toList.getLast? ≠ some ']' := by decide
  exact ⟨hbare, hlast, parse_render_parse s hbare hlast⟩

/-- Without its conditions the law fails: an unclosed `[[a b]` gives `a b]`, written `[[a b]]]`
and read as `a b` and `]`; a bracketed `[[x` is written bare and read as `x`. -/
example : parse (render (parse "[[a b]")) = ["a b", "]"] ∧
    parse (render (parse "[[[[x]]")) = ["x"] := by
  decide

end WikiSync.TagList
