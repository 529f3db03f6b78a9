import Mathlib.Data.String.Basic
import WikiSync.Json.Read
import WikiSync.Json.Print

/-!
# Reading pretty JSON back

The reader inverts the printer on the values bundles are made of: an array holding one object
whose members are strings, with keys in increasing order. A quoted text reads back as the text
(`readString_quote`, one escape at a time), each member line as its member (`memberAt_string`),
and the whole pretty text as the array (`parse_pretty_strings`).

The reader is driven by fuel and bounded in depth. The lemmas say how much fuel each part takes,
and `parse` gives four steps per character, which is always enough.
-/

namespace WikiSync.Json

/-! ## Strings -/

theorem hexValue_hexDigit : ∀ n, n < 16 → hexValue (hexDigit n) = some n := by decide

/-- A backslash and an escape letter stand for the letter's character. -/
theorem readStringFrom_simpleEscape (e c : Char) (rest : List Char) (l col : Nat)
    (acc : List Char) (h : simpleEscape e = some c) (hu : e ≠ 'u') :
    readStringFrom ('\\' :: e :: rest) l col .none acc =
      readStringFrom rest l (col + 1 + e.utf8Size) .none (c :: acc) := by
  simp [readStringFrom, hu, h]
  rfl

/-- Reading one escaped character moves it to the text read so far. -/
theorem readStringFrom_escapeChar (c : Char) (rest : List Char) (l col : Nat) (acc : List Char) :
    ∃ col', readStringFrom (escapeChar c ++ rest) l col .none acc =
      readStringFrom rest l col' .none (c :: acc) := by
  unfold escapeChar
  split
  · rename_i h
    rw [beq_iff_eq] at h
    subst h
    exact ⟨_, readStringFrom_simpleEscape _ _ _ _ _ _ rfl (by decide)⟩
  split
  · rename_i h
    rw [beq_iff_eq] at h
    subst h
    exact ⟨_, readStringFrom_simpleEscape _ _ _ _ _ _ rfl (by decide)⟩
  split
  · rename_i h
    rw [beq_iff_eq] at h
    subst h
    exact ⟨_, readStringFrom_simpleEscape _ _ _ _ _ _ rfl (by decide)⟩
  split
  · rename_i h
    rw [beq_iff_eq] at h
    subst h
    exact ⟨_, readStringFrom_simpleEscape _ _ _ _ _ _ rfl (by decide)⟩
  split
  · rename_i h
    rw [beq_iff_eq] at h
    subst h
    exact ⟨_, readStringFrom_simpleEscape _ _ _ _ _ _ rfl (by decide)⟩
  split
  · rename_i h
    have hc : c = Char.ofNat 8 := by
      apply Char.ext
      simpa using h
    subst hc
    exact ⟨_, readStringFrom_simpleEscape _ _ _ _ _ _ rfl (by decide)⟩
  split
  · rename_i h
    have hc : c = Char.ofNat 12 := by
      apply Char.ext
      simpa using h
    subst hc
    exact ⟨_, readStringFrom_simpleEscape _ _ _ _ _ _ rfl (by decide)⟩
  split
  · rename_i h
    have hlt : c.toNat < 32 := UInt32.lt_iff_toNat_lt.1 h
    have d₁ := hexValue_hexDigit (c.toNat / 16) (by omega)
    have d₂ := hexValue_hexDigit (c.toNat % 16) (by omega)
    have hn : 16 * (c.toNat / 16) + c.toNat % 16 = c.toNat := by omega
    have hc : scalar c.toNat = c := Char.ofNat_toNat c
    have hs : ¬ (0xDC00 ≤ c.toNat ∧ c.toNat ≤ 0xDFFF) ∧
        ¬ (0xD800 ≤ c.toNat ∧ c.toNat ≤ 0xDBFF) := by
      omega
    apply Exists.intro
    simp [readStringFrom, hexValue4, d₁, d₂, hexOutcome, hn, hc, hs,
      show hexValue '0' = some 0 from rfl]
    rfl
  · rename_i h₁ h₂ _ _ _ _ _ h
    have hq : c ≠ '"' := by simpa using h₁
    have hb : c ≠ '\\' := by simpa using h₂
    apply Exists.intro
    simp only [List.singleton_append, readStringFrom, beq_iff_eq, hq, hb, h, if_false]
    rfl

/-- Escaped characters followed by a closing quote read back as the characters. -/
theorem readStringFrom_escaped (cs rest : List Char) (l col : Nat) (acc : List Char) :
    ∃ col', readStringFrom (cs.flatMap escapeChar ++ '"' :: rest) l col .none acc =
      .ok (String.ofList (acc.reverse ++ cs), ⟨rest, l, col'⟩) := by
  induction cs generalizing col acc with
  | nil => exact ⟨_, by simp [readStringFrom]; rfl⟩
  | cons c cs ih =>
    obtain ⟨col₁, h₁⟩ :=
      readStringFrom_escapeChar c (cs.flatMap escapeChar ++ '"' :: rest) l col acc
    obtain ⟨col₂, h₂⟩ := ih col₁ (c :: acc)
    refine ⟨col₂, ?_⟩
    rw [List.flatMap_cons, List.append_assoc, h₁, h₂]
    simp

/-- A quoted text starts with its opening quote. -/
theorem quote_toList (s : String) : (quote s).toList = '"' :: (quote s).toList.tail := by
  simp [quote]

/-- Reading a quoted text, after its opening quote, gives back the text. -/
theorem readString_quote (s : String) (rest : List Char) (l col : Nat) :
    ∃ col', readString ⟨(quote s).toList.tail ++ rest, l, col⟩ = .ok (s, ⟨rest, l, col'⟩) := by
  obtain ⟨col', h⟩ := readStringFrom_escaped s.toList rest l col []
  refine ⟨col', ?_⟩
  simpa [readString, quote] using h

/-! ## Cursor steps -/

theorem next_cons (ch : Char) (r : List Char) (l col : Nat) (h : ch ≠ '\n') :
    Cursor.next ⟨ch :: r, l, col⟩ = ⟨r, l, col + ch.utf8Size⟩ := by
  unfold Cursor.next
  split <;> simp_all

theorem skipBlanksFrom_stop (ch : Char) (r : List Char) (l col : Nat)
    (h : ch ∉ [' ', '\t', '\r', '\n']) :
    skipBlanksFrom (ch :: r) l col = ⟨ch :: r, l, col⟩ := by
  simp only [List.mem_cons, List.not_mem_nil, or_false, not_or] at h
  unfold skipBlanksFrom
  split <;> simp_all

/-- Skipping a line break and the indentation of a member. -/
theorem skipBlanksFrom_indent (k : String) (r : List Char) (l col : Nat) :
    skipBlanksFrom ('\n' :: ' ' :: ' ' :: ' ' :: ' ' :: ((quote k).toList ++ r)) l col =
      ⟨(quote k).toList ++ r, l + 1, 4⟩ := by
  rw [quote_toList, List.cons_append]
  simp only [skipBlanksFrom]
  exact skipBlanksFrom_stop '"' _ (l + 1) 4 (by decide)

/-! ## Objects of strings -/

/-- A member whose key follows every key before it goes last. -/
theorem insertMember_of_lt (k : String) (v : Json) (acc : List (String × Json))
    (h : ∀ a ∈ acc, a.1 < k) : insertMember k v acc = acc ++ [(k, v)] := by
  induction acc with
  | nil => rfl
  | cons a acc ih =>
    have ha := h a (by simp)
    have hne : (k == a.1) = false := by
      rw [beq_eq_false_iff_ne]
      exact ne_of_gt ha
    have hnlt : ¬ k < a.1 := not_lt_of_gt ha
    rw [insertMember, hne]
    simp only [Bool.false_eq_true, if_false, hnlt, List.cons_append]
    rw [ih (fun b hb => h b (by simp [hb]))]

/-- Reading a string member: its key, the colon and its value, then the rest of the object. -/
theorem memberAt_string (fuel depth : Nat) (k v : String) (rest : List Char) (l col : Nat)
    (acc : List (String × Json)) :
    ∃ col', memberAt (fuel + 2) depth
        ⟨(quote k).toList ++ ':' :: ' ' :: ((quote v).toList ++ rest), l, col⟩ acc =
      readMembers (fuel + 1) depth ⟨rest, l, col'⟩ false (insertMember k (.str v) acc) := by
  obtain ⟨col₁, hk⟩ := readString_quote k (':' :: ' ' :: ((quote v).toList ++ rest)) l
    (col + '"'.utf8Size)
  obtain ⟨col₂, hv⟩ := readString_quote v rest l (col₁ + ':'.utf8Size + 1 + '"'.utf8Size)
  refine ⟨col₂, ?_⟩
  rw [memberAt, quote_toList k, List.cons_append, next_cons '"' _ _ _ (by decide), hk]
  simp only [Cursor.skipBlanks, skipBlanksFrom_stop ':' _ _ _ (by decide)]
  rw [next_cons ':' _ _ _ (by decide), readValue, quote_toList v, List.cons_append]
  simp only [Cursor.skipBlanks, skipBlanksFrom]
  rw [skipBlanksFrom_stop '"' _ _ _ (by decide)]
  simp only [next_cons '"' _ _ _ (by decide), hv]
  rfl

/-- The line of a string member in a pretty bundle, two levels deep. -/
def memberLine (m : String × String) : String :=
  indent 2 ++ quote m.1 ++ ": " ++ quote m.2

theorem memberLine_toList (m : String × String) :
    (memberLine m).toList = ' ' :: ' ' :: ' ' :: ' ' ::
      ((quote m.1).toList ++ ':' :: ' ' :: (quote m.2).toList) := by
  simp [memberLine, indent]

/-- Reading the members after the first: each is read back, in order, and the closing brace ends
the object. Two steps of fuel go to each member. -/
theorem readMembers_tail (depth : Nat) (tail : List Char) :
    ∀ (ms : List (String × String)) (acc : List (String × Json)) (fuel l col : Nat),
      ms.Pairwise (fun a b => a.1 < b.1) → (∀ a ∈ acc, ∀ m ∈ ms, a.1 < m.1) →
      2 * ms.length + 1 ≤ fuel →
      ∃ l' col', readMembers fuel depth
        ⟨ms.flatMap (fun m => ',' :: '\n' :: (memberLine m).toList) ++
          '\n' :: ' ' :: ' ' :: '}' :: tail, l, col⟩ false acc =
        .ok (.obj (acc ++ ms.map fun m => (m.1, .str m.2)), ⟨tail, l', col'⟩)
  | [], acc, fuel + 1, l, col, _, _, _ => by
    apply Exists.intro
    apply Exists.intro
    simp only [List.flatMap_nil, List.nil_append, readMembers, Cursor.skipBlanks, skipBlanksFrom]
    rw [skipBlanksFrom_stop '}' _ _ _ (by decide)]
    simp only [next_cons '}' _ _ _ (by decide), List.append_nil, List.map_nil]
    rfl
  | m :: ms, acc, fuel + 3, l, col, hs, hacc, hfuel => by
    obtain ⟨hm, hs⟩ := List.pairwise_cons.1 hs
    obtain ⟨col₁, hmember⟩ := memberAt_string fuel depth m.1 m.2
      (ms.flatMap (fun m => ',' :: '\n' :: (memberLine m).toList) ++
        '\n' :: ' ' :: ' ' :: '}' :: tail) (l + 1) 4 acc
    have hlast : insertMember m.1 (.str m.2) acc = acc ++ [(m.1, .str m.2)] :=
      insertMember_of_lt _ _ _ fun a ha => hacc a ha m (by simp)
    have hacc' : ∀ a ∈ acc ++ [(m.1, .str m.2)], ∀ b ∈ ms, a.1 < b.1 := by
      intro a ha b hb
      rcases List.mem_append.1 ha with ha | ha
      · exact hacc a ha b (by simp [hb])
      · rw [List.mem_singleton] at ha
        subst ha
        exact hm b hb
    obtain ⟨l', col', hrest⟩ := readMembers_tail depth tail ms (acc ++ [(m.1, .str m.2)])
      (fuel + 1) (l + 1) col₁ hs hacc' (by simp at hfuel; omega)
    refine ⟨l', col', ?_⟩
    rw [List.flatMap_cons, readMembers]
    simp only [Cursor.skipBlanks, List.cons_append, List.append_assoc]
    rw [skipBlanksFrom_stop ',' _ _ _ (by decide)]
    simp only [Bool.false_eq_true, if_false]
    rw [next_cons ',' _ _ _ (by decide), memberLine_toList]
    simp only [List.cons_append, List.append_assoc]
    rw [skipBlanksFrom_indent]
    rw [quote_toList m.1] at hmember ⊢
    simp only [List.cons_append] at hmember ⊢
    rw [hmember, hlast, hrest]
    simp
  | _ :: _, _, 0, _, _, _, _, h => by simp at h
  | _ :: _, _, 1, _, _, _, _, h => by simp at h
  | _ :: _, _, 2, _, _, _, _, h => by simp at h; omega
  | [], _, 0, _, _, _, _, h => by simp at h

/-- Reading an object of strings from its first member: four steps of fuel for the first member
and the closing brace, two for each further member. -/
theorem readMembers_first (depth : Nat) (tail : List Char) (m : String × String)
    (ms : List (String × String)) (fuel l col : Nat)
    (hs : (m :: ms).Pairwise (fun a b => a.1 < b.1)) (hfuel : 2 * ms.length + 4 ≤ fuel) :
    ∃ l' col', readMembers fuel depth
      ⟨'\n' :: ((memberLine m).toList ++
        (ms.flatMap (fun m => ',' :: '\n' :: (memberLine m).toList) ++
          '\n' :: ' ' :: ' ' :: '}' :: tail)), l, col⟩ true [] =
      .ok (.obj ((m :: ms).map fun m => (m.1, .str m.2)), ⟨tail, l', col'⟩) := by
  obtain ⟨f, rfl⟩ : ∃ f, fuel = f + 4 := ⟨fuel - 4, by omega⟩
  obtain ⟨hm, hs⟩ := List.pairwise_cons.1 hs
  obtain ⟨col₁, hmember⟩ := memberAt_string (f + 1) depth m.1 m.2
    (ms.flatMap (fun m => ',' :: '\n' :: (memberLine m).toList) ++
      '\n' :: ' ' :: ' ' :: '}' :: tail) (l + 1) 4 []
  obtain ⟨l', col', hrest⟩ := readMembers_tail depth tail ms [(m.1, .str m.2)] (f + 2) (l + 1)
    col₁ hs (by simpa using hm) (by omega)
  refine ⟨l', col', ?_⟩
  rw [readMembers, memberLine_toList]
  simp only [Cursor.skipBlanks, List.cons_append, List.append_assoc]
  rw [skipBlanksFrom_indent]
  rw [quote_toList m.1] at hmember ⊢
  simp only [List.cons_append, if_true] at hmember ⊢
  rw [hmember]
  exact hrest

/-! ## Pretty arrays -/

/-- Joining items puts the separator before every item after the first. -/
theorem joinWith_cons (sep x : String) (xs : List String) :
    joinWith sep (x :: xs) = x ++ String.join (xs.map (sep ++ ·)) := by
  induction xs generalizing x with
  | nil => simp [joinWith]
  | cons y ys ih =>
    rw [joinWith, ih]
    · simp [String.append_assoc]
    · simp

theorem prettyMembers_strings (ms : List (String × String)) :
    prettyMembers 2 (ms.map fun m => (m.1, .str m.2)) = ms.map memberLine := by
  induction ms with
  | nil => rfl
  | cons m ms ih =>
    simp only [List.map_cons, prettyMembers, ih, memberLine]
    simp [prettyAt, compact]

/-- The characters of a pretty array holding one non-empty object of strings. -/
theorem pretty_strings_toList (m : String × String) (ms : List (String × String)) :
    (pretty (.arr [.obj ((m :: ms).map fun m => (m.1, .str m.2))])).toList =
      '[' :: '\n' :: ' ' :: ' ' :: '{' :: '\n' :: ((memberLine m).toList ++
        (ms.flatMap (fun m => ',' :: '\n' :: (memberLine m).toList) ++
          '\n' :: ' ' :: ' ' :: '}' :: '\n' :: ']' :: [])) := by
  rw [pretty, prettyAt]
  · rw [prettyItems, prettyItems, prettyAt]
    · rw [prettyMembers_strings, List.map_cons]
      simp only [joinWith_cons]
      simp [indent, List.flatMap]
      congr 2
      funext m
      simp
    all_goals simp
  all_goals simp

/-- The first item of a pretty array is an object on a line of its own. -/
theorem readItems_open (fuel depth : Nat) (r : List Char) (l col : Nat) (acc : List Json) :
    readItems (fuel + 1) depth ⟨'\n' :: ' ' :: ' ' :: '{' :: r, l, col⟩ true acc =
      itemAt fuel depth ⟨'{' :: r, l + 1, 2⟩ acc := by
  rw [readItems]
  rfl

/-- Reading a pretty array that holds one object of strings. The reader needs two nesting levels
below the one it starts at. -/
theorem readValue_pretty_strings (depth fuel : Nat) (m : String × String)
    (ms : List (String × String)) (hs : (m :: ms).Pairwise (fun a b => a.1 < b.1))
    (hdepth : 3 ≤ depth) (hfuel : 2 * ms.length + 8 ≤ fuel) :
    ∃ l' col', readValue fuel depth
      ⟨(pretty (.arr [.obj ((m :: ms).map fun m => (m.1, .str m.2))])).toList, 1, 0⟩ =
      .ok (.arr [.obj ((m :: ms).map fun m => (m.1, .str m.2))], ⟨[], l', col'⟩) := by
  obtain ⟨f, rfl⟩ : ∃ f, fuel = f + 4 := ⟨fuel - 4, by omega⟩
  obtain ⟨d, rfl⟩ : ∃ d, depth = d + 3 := ⟨depth - 3, by omega⟩
  obtain ⟨l', col', hobj⟩ := readMembers_first (d + 1) ['\n', ']'] m ms f 2 3 hs (by omega)
  refine ⟨l' + 1, 1, ?_⟩
  rw [pretty_strings_toList, readValue]
  simp only [Cursor.skipBlanks, skipBlanksFrom_stop '[' _ _ _ (by decide)]
  simp only [show ¬ d + 3 ≤ 1 by omega, if_false, next_cons '[' _ _ _ (by decide)]
  obtain ⟨f, rfl⟩ : ∃ g, f = g + 4 := ⟨f - 4, by omega⟩
  rw [readItems_open, itemAt, readValue]
  simp only [Cursor.skipBlanks, skipBlanksFrom_stop '{' _ _ _ (by decide)]
  simp only [show ¬ d + 3 - 1 ≤ 1 by omega, if_false, next_cons '{' _ _ _ (by decide)]
  have hd : d + 3 - 1 - 1 = d + 1 := by omega
  have hpos : ∀ r, (⟨r, 1 + 1, 2 + '{'.utf8Size⟩ : Cursor) = ⟨r, 2, 3⟩ := fun _ => rfl
  rw [hd, hpos, hobj]
  simp only []
  rw [readItems]
  rfl

/-- Each item after a separator adds at least the separator's two characters. -/
theorem length_flatMap_separated {α : Type} (xs : List α) (f : α → List Char) :
    2 * xs.length ≤ (xs.flatMap (fun x => ',' :: '\n' :: f x)).length := by
  induction xs with
  | nil => simp
  | cons x xs ih =>
    rw [List.flatMap_cons, List.length_append, List.length_cons, List.length_cons,
      List.length_cons]
    omega

/-- A pretty array holding one non-empty object of strings, with keys in increasing order, parses
back to itself. -/
theorem parse_pretty_strings (m : String × String) (ms : List (String × String))
    (hs : (m :: ms).Pairwise (fun a b => a.1 < b.1)) :
    parse (pretty (.arr [.obj ((m :: ms).map fun m => (m.1, .str m.2))])) =
      .ok (.arr [.obj ((m :: ms).map fun m => (m.1, .str m.2))]) := by
  have hlen : 2 * ms.length + 12 ≤
      (pretty (.arr [.obj ((m :: ms).map fun m => (m.1, .str m.2))])).length := by
    rw [← String.length_toList, pretty_strings_toList]
    have hflat := length_flatMap_separated ms (fun m => (memberLine m).toList)
    simp only [List.length_cons, List.length_append]
    omega
  obtain ⟨l', col', h⟩ := readValue_pretty_strings 128
    (4 * (pretty (.arr [.obj ((m :: ms).map fun m => (m.1, .str m.2))])).length + 4) m ms hs
    (by decide) (by omega)
  rw [parse, Cursor.start, h]
  rfl

end WikiSync.Json
