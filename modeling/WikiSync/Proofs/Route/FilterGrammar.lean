import Mathlib
import WikiSync.Route.Filter
import WikiSync.Proofs.Document.TagLists

/-!
# The grammar of filter expressions

A filter expression parses exactly when its trimmed text is a sequence of runs, each written as
`Run.text` gives it and followed by blanks or by nothing (`Written`), and the parse gives those
runs back (`parse_eq_some_iff`). A title literal is `[[L]]` with no `]]` in `L` and no `]` at its
end: the literal ends at the first `]]`. A step run is `[` followed by one or more steps and `]`;
a step is an optional `!`, then an operator with no `[` and no `:` and not empty, optionally `:`
and a suffix with no `[`, then the parameter in brackets with no `]` in it. A step without `!`
cannot begin with `]`, which would close its run, or with `!`, which would negate it; after a
`!` the operator may begin with either.

Evaluation answers the document's title or nothing, and answers the title exactly when the text
is written so and one of its runs holds (`evaluate_iff_written`). A step whose operator the filter
knows holds under `!` exactly when it fails without, and a step whose operator it does not know
fails either way (`Step.holds?_negate`, `Step.isSome_holds?_iff`).
-/

namespace WikiSync.Filter

open Text

/-! ### Splitting at a character -/

theorem breakAt_cons (c x : Char) (xs : List Char) :
    breakAt c (x :: xs) =
      if x = c then some ([], xs) else (breakAt c xs).map fun p => (x :: p.1, p.2) := by
  unfold breakAt
  rw [List.findIdx?_cons]
  by_cases h : x = c
  · simp [h]
  · rcases xs.findIdx? (· == c) with _ | i <;> simp [h]

/-- Splitting at a character the text before it lacks gives that text and what follows. -/
theorem breakAt_append {c : Char} {a : List Char} (h : c ∉ a) (b : List Char) :
    breakAt c (a ++ c :: b) = some (a, b) := by
  induction a with
  | nil => simp [breakAt_cons]
  | cons x a ih =>
    have hx : x ≠ c := fun hx => h (hx ▸ List.mem_cons_self)
    rw [List.cons_append, breakAt_cons, if_neg hx, ih (fun ha => h (List.mem_cons_of_mem x ha))]
    rfl

theorem breakAt_eq_none {c : Char} {cs : List Char} (h : breakAt c cs = none) : c ∉ cs := by
  induction cs with
  | nil => simp
  | cons x xs ih =>
    rw [breakAt_cons] at h
    split at h
    · simp at h
    · rename_i hx
      have hxs : c ∉ xs := ih (by simpa using h)
      simp [Ne.symm hx, hxs]

theorem breakAt_of_not_mem {c : Char} {cs : List Char} (h : c ∉ cs) : breakAt c cs = none := by
  induction cs with
  | nil => rfl
  | cons x xs ih =>
    have hx : x ≠ c := fun hx => h (hx ▸ List.mem_cons_self)
    rw [breakAt_cons, if_neg hx, ih (fun hxs => h (List.mem_cons_of_mem x hxs))]
    rfl

/-- A split at a character is at its first occurrence. -/
theorem breakAt_eq_some {c : Char} {cs a b : List Char} (h : breakAt c cs = some (a, b)) :
    cs = a ++ c :: b ∧ c ∉ a := by
  induction cs generalizing a with
  | nil => simp [breakAt] at h
  | cons x xs ih =>
    rw [breakAt_cons] at h
    split at h
    · rename_i hx
      obtain ⟨rfl, rfl⟩ := Prod.mk.inj (Option.some.inj h)
      simp [hx]
    · rename_i hx
      obtain ⟨⟨a', b'⟩, hp, hab⟩ := Option.map_eq_some_iff.1 h
      obtain ⟨rfl, rfl⟩ := Prod.mk.inj hab
      obtain ⟨rfl, ha'⟩ := ih hp
      exact ⟨rfl, by simp [Ne.symm hx, ha']⟩

/-! ### Splitting at the first `]]` -/

/-- A text with no `]]` once a `]` follows it is cut at the `]]` after it. -/
theorem splitOnFirst_close {l : List Char} (hl : ¬[']', ']'] <:+: l ++ [']'])
    (r : List Char) : splitOnFirst [']', ']'] (l ++ ']' :: ']' :: r) = some (l, r) := by
  induction l with
  | nil => simp [splitOnFirst, startsWithChars]
  | cons c l ih =>
    -- `c` starts no `]]`: a `]` before another would put one in `c :: l` followed by `]`
    have hstart : startsWithChars (c :: (l ++ ']' :: ']' :: r)) [']', ']'] = false := by
      cases l with
      | nil =>
        have hc : c ≠ ']' := fun hc => hl ⟨[], [], by simp [hc]⟩
        simp [startsWithChars, hc]
      | cons d l =>
        by_cases hc : c = ']'
        · have hd : d ≠ ']' := fun hd => hl ⟨[], l ++ [']'], by simp [hc, hd]⟩
          simp [startsWithChars, hd]
        · simp [startsWithChars, hc]
    rw [List.cons_append, splitOnFirst, hstart, if_neg Bool.false_ne_true,
      ih (fun h => hl (List.infix_cons h))]
    rfl

/-- A cut at `]]` is at its first occurrence: no `]]` stands before it, nor straddles it. -/
theorem splitOnFirst_close_eq_some {cs l r : List Char}
    (h : splitOnFirst [']', ']'] cs = some (l, r)) :
    cs = l ++ ']' :: ']' :: r ∧ ¬[']', ']'] <:+: l ++ [']'] := by
  induction cs generalizing l with
  | nil => simp [splitOnFirst] at h
  | cons c cs ih =>
    rw [splitOnFirst] at h
    split at h
    · rename_i hstart
      obtain ⟨rfl, rfl⟩ := Prod.mk.inj (Option.some.inj h)
      cases cs with
      | nil => simp [startsWithChars] at hstart
      | cons d cs =>
        simp only [startsWithChars, Bool.and_eq_true, beq_iff_eq] at hstart
        obtain ⟨rfl, rfl, -⟩ := hstart
        refine ⟨rfl, ?_⟩
        intro hin
        simpa using hin.length_le
    · rename_i hstart
      obtain ⟨⟨l', r'⟩, hp, hlr⟩ := Option.map_eq_some_iff.1 h
      obtain ⟨rfl, rfl⟩ := Prod.mk.inj hlr
      obtain ⟨rfl, hl'⟩ := ih hp
      refine ⟨rfl, fun hin => ?_⟩
      rcases List.infix_cons_iff.1 hin with hpre | hin
      · apply hstart
        obtain ⟨t, ht⟩ := hpre
        cases l' with
        | nil =>
          simp only [List.nil_append, List.cons_append] at ht
          obtain ⟨rfl, -⟩ := List.cons_eq_cons.1 ht
          simp [startsWithChars]
        | cons d l' =>
          simp only [List.cons_append, List.cons.injEq] at ht
          obtain ⟨rfl, rfl, -⟩ := ht
          simp [startsWithChars]
      · exact hl' hin

/-! ### Steps and runs as written -/

/-- A step's name: its operator, then `:` and the suffix when it has one. -/
def Step.name (s : Step) : List Char :=
  s.operator.toList ++ (match s.suffix with
    | some x => ':' :: x.toList
    | none => [])

/-- A step's text after its `!`: its name, then the parameter in brackets. -/
def Step.body (s : Step) : List Char :=
  s.name ++ '[' :: s.param.toList ++ [']']

/-- A step as written: its body, after a `!` when negated. -/
def Step.text (s : Step) : List Char :=
  if s.negated then '!' :: s.body else s.body

/-- The parts of a step that its text delimits: a non-empty operator with no `[` and no `:`, a
suffix with no `[`, and a parameter with no `]`. -/
structure Step.Delimited (s : Step) : Prop where
  operator_ne_nil : s.operator.toList ≠ []
  open_not_mem_operator : '[' ∉ s.operator.toList
  colon_not_mem_operator : ':' ∉ s.operator.toList
  open_not_mem_suffix : ∀ x ∈ s.suffix, '[' ∉ x.toList
  close_not_mem_param : ']' ∉ s.param.toList

/-- Negation delimits nothing: the parts stay as they are. -/
theorem Step.Delimited.negate {s : Step} (hs : s.Delimited) (b : Bool) :
    ({ s with negated := b } : Step).Delimited :=
  ⟨hs.operator_ne_nil, hs.open_not_mem_operator, hs.colon_not_mem_operator,
    hs.open_not_mem_suffix, hs.close_not_mem_param⟩

/-- A step whose text reads back as itself: delimited, and when not negated not beginning with
`]`, which would close its run, or with `!`, which would negate it. -/
def Step.Readable (s : Step) : Prop :=
  s.Delimited ∧ (s.negated = false → ∀ c ∈ s.operator.toList.head?, c ≠ ']' ∧ c ≠ '!')

/-- A run as written: a title literal in double brackets, or its steps in brackets. -/
def Run.text : Run → List Char
  | .title l => '[' :: '[' :: l.toList ++ [']', ']']
  | .steps ss => '[' :: ss.flatMap Step.text ++ [']']

/-- A run whose text reads back as itself: a literal with no `]]` in it and no `]` at its end,
or one or more readable steps. -/
def Run.Readable : Run → Prop
  | .title l => ¬[']', ']'] <:+: l.toList ∧ l.toList.getLast? ≠ some ']'
  | .steps ss => ss ≠ [] ∧ ∀ s ∈ ss, s.Readable

/-- Text written as readable runs, each followed by blanks or by nothing. -/
inductive Written : List Run → List Char → Prop
  | nil : Written [] []
  | cons {r : Run} {rs : List Run} {gap rest : List Char} :
      r.Readable → (∀ c ∈ gap, isBlank c = true) → Written rs rest →
      Written (r :: rs) (r.text ++ gap ++ rest)

/-! ### Reading one step -/

/-- Reading one step once its `!` is taken off: the name up to the first `[`, the parameter up
to the next `]`, the operator up to the name's first `:`. -/
def readStep (negated : Bool) (after : List Char) : Option (Step × List Char) :=
  match breakAt '[' after with
  | none => none
  | some (name, afterOpen) =>
    match breakAt ']' afterOpen with
    | none => none
    | some (param, rest) =>
      let (op, suffix) := match breakAt ':' name with
        | some (o, s) => (o, some (String.ofList s))
        | none => (name, none)
      if op.isEmpty then none
      else some (⟨negated, String.ofList op, suffix, String.ofList param⟩, rest)

theorem parseSteps_bang (fuel : Nat) (r : List Char) (acc : List Step) :
    parseSteps (fuel + 1) ('!' :: r) acc =
      (readStep true r).bind fun p => parseSteps fuel p.2 (p.1 :: acc) := by
  rw [parseSteps.eq_3, readStep]
  rcases breakAt '[' r with _ | ⟨name, afterOpen⟩
  · rfl
  · dsimp only
    rcases breakAt ']' afterOpen with _ | ⟨param, rest⟩
    · rfl
    · dsimp only
      rcases breakAt ':' name with _ | ⟨o, s⟩
      · dsimp only; split <;> rfl
      · dsimp only; split <;> rfl

theorem parseSteps_plain {fuel : Nat} {cs : List Char} (acc : List Step)
    (hclose : ∀ r, cs ≠ ']' :: r) (hbang : ∀ r, cs ≠ '!' :: r) :
    parseSteps (fuel + 1) cs acc =
      (readStep false cs).bind fun p => parseSteps fuel p.2 (p.1 :: acc) := by
  rw [parseSteps.eq_4 _ _ _ (fun r h => hclose r h) (fun r h => hbang r h), readStep]
  rcases breakAt '[' cs with _ | ⟨name, afterOpen⟩
  · rfl
  · dsimp only
    rcases breakAt ']' afterOpen with _ | ⟨param, rest⟩
    · rfl
    · dsimp only
      rcases breakAt ':' name with _ | ⟨o, s⟩
      · dsimp only; split <;> rfl
      · dsimp only; split <;> rfl

theorem Step.Delimited.open_not_mem_name {s : Step} (hs : s.Delimited) : '[' ∉ s.name := by
  unfold Step.name
  rcases hx : s.suffix with _ | x
  · simpa using hs.open_not_mem_operator
  · simpa [hs.open_not_mem_operator] using hs.open_not_mem_suffix x hx

/-- A name is cut at its first `:` into the operator and the suffix. -/
theorem Step.breakAt_colon_name {s : Step} (hs : ':' ∉ s.operator.toList) :
    breakAt ':' s.name = s.suffix.map fun x => (s.operator.toList, x.toList) := by
  unfold Step.name
  rcases s.suffix with _ | x
  · simpa using breakAt_of_not_mem hs
  · exact breakAt_append hs x.toList

/-- A delimited step's body is read back as the step. -/
theorem readStep_body {s : Step} (hs : s.Delimited) (rest : List Char) :
    readStep s.negated (s.body ++ rest) = some (s, rest) := by
  have hsplit : s.body ++ rest = s.name ++ '[' :: (s.param.toList ++ ']' :: rest) := by
    simp [Step.body]
  have hempty : s.operator.toList.isEmpty = false := by simpa using hs.operator_ne_nil
  rw [hsplit, readStep, breakAt_append hs.open_not_mem_name]
  dsimp only
  rw [breakAt_append hs.close_not_mem_param]
  dsimp only
  rw [Step.breakAt_colon_name hs.colon_not_mem_operator]
  rcases hx : s.suffix with _ | x
  · have hname : s.name = s.operator.toList := by simp [Step.name, hx]
    simp only [Option.map_none, hname, String.ofList_toList, hempty, Bool.false_eq_true, if_false]
    rw [← hx]
  · simp only [Option.map_some, String.ofList_toList, hempty, Bool.false_eq_true, if_false]
    rw [← hx]

/-- What reading one step establishes: the step's body stands at the front, and its parts are
delimited. -/
theorem readStep_eq_some {negated : Bool} {after rest : List Char} {s : Step}
    (h : readStep negated after = some (s, rest)) :
    s.negated = negated ∧ s.Delimited ∧ after = s.body ++ rest := by
  unfold readStep at h
  rcases h1 : breakAt '[' after with _ | ⟨name, afterOpen⟩ <;> rw [h1] at h
  · simp at h
  obtain ⟨rfl, hname⟩ := breakAt_eq_some h1
  dsimp only at h
  rcases h2 : breakAt ']' afterOpen with _ | ⟨param, rest'⟩ <;> rw [h2] at h
  · simp at h
  obtain ⟨rfl, hparam⟩ := breakAt_eq_some h2
  dsimp only at h
  rcases h3 : breakAt ':' name with _ | ⟨o, x⟩ <;> rw [h3] at h <;> dsimp only at h
  · have hcolon := breakAt_eq_none h3
    split at h
    · simp at h
    rename_i hop
    obtain ⟨rfl, rfl⟩ := Prod.mk.inj (Option.some.inj h)
    refine ⟨rfl, ⟨by simpa using hop, by simpa using hname, by simpa using hcolon, by simp,
      by simpa using hparam⟩, ?_⟩
    simp [Step.body, Step.name]
  · obtain ⟨rfl, hcolon⟩ := breakAt_eq_some h3
    split at h
    · simp at h
    rename_i hop
    obtain ⟨rfl, rfl⟩ := Prod.mk.inj (Option.some.inj h)
    have hno : '[' ∉ o ∧ '[' ∉ x := by simpa using hname
    refine ⟨rfl, ⟨by simpa using hop, by simpa using hno.1, by simpa using hcolon,
      by simpa using hno.2, by simpa using hparam⟩, ?_⟩
    simp [Step.body, Step.name]

/-! ### Reading the steps of a run -/

/-- A step's body begins with its operator's first character. -/
theorem Step.head?_body_append {s : Step} (hs : s.operator.toList ≠ []) (more : List Char) :
    (s.body ++ more).head? = s.operator.toList.head? := by
  obtain ⟨c, cs, hc⟩ := List.exists_cons_of_ne_nil hs
  simp [Step.body, Step.name, hc]

/-- A readable step's text begins with neither bracket. -/
theorem Step.Readable.head_text {s : Step} (hs : s.Readable) (more : List Char) :
    ∃ c t, s.text ++ more = c :: t ∧ c ≠ ']' ∧ c ≠ '[' := by
  obtain ⟨c, cs, hc⟩ := List.exists_cons_of_ne_nil hs.1.operator_ne_nil
  have hopen : c ≠ '[' := fun h => hs.1.open_not_mem_operator (by simp [hc, h])
  cases hneg : s.negated with
  | true => exact ⟨'!', s.body ++ more, by simp [Step.text, hneg], by decide, by decide⟩
  | false =>
    have hhead : s.operator.toList.head? = some c := by simp [hc]
    obtain ⟨t, ht⟩ := List.head?_eq_some_iff.1
      ((Step.head?_body_append hs.1.operator_ne_nil more).trans hhead)
    exact ⟨c, t, by simpa [Step.text, hneg] using ht, (hs.2 hneg c (by simp [hc])).1, hopen⟩

/-- Reading one step off text that does not close the run: the text begins with a readable
step, and the steps after it are read on. -/
theorem parseSteps_succ_eq_some_iff {fuel : Nat} {cs : List Char} {acc : List Step}
    {out : List Step × List Char} (hclose : ∀ r, cs ≠ ']' :: r) :
    parseSteps (fuel + 1) cs acc = some out ↔
      ∃ s more, s.Readable ∧ cs = s.text ++ more ∧ parseSteps fuel more (s :: acc) = some out := by
  by_cases hbang : ∃ r, cs = '!' :: r
  · obtain ⟨r, rfl⟩ := hbang
    rw [parseSteps_bang, Option.bind_eq_some_iff]
    constructor
    · rintro ⟨⟨s, more⟩, hread, hnext⟩
      obtain ⟨hneg, hdel, rfl⟩ := readStep_eq_some hread
      exact ⟨s, more, ⟨hdel, fun h => absurd (hneg.symm.trans h) (by decide)⟩,
        by simp [Step.text, hneg], hnext⟩
    · rintro ⟨s, more, ⟨hdel, hplain⟩, htext, hnext⟩
      cases hneg : s.negated with
      | false =>
        have hhead := Step.head?_body_append hdel.operator_ne_nil more
        have hcs : '!' :: r = s.body ++ more := by simpa [Step.text, hneg] using htext
        rw [← hcs] at hhead
        exact absurd rfl (hplain hneg '!' (by simpa using hhead.symm)).2
      | true =>
        have hr : r = s.body ++ more := by simpa [Step.text, hneg] using htext
        refine ⟨(s, more), ?_, hnext⟩
        rw [hr, ← hneg]
        exact readStep_body hdel more
  · simp only [not_exists] at hbang
    rw [parseSteps_plain acc hclose hbang, Option.bind_eq_some_iff]
    constructor
    · rintro ⟨⟨s, more⟩, hread, hnext⟩
      obtain ⟨hneg, hdel, rfl⟩ := readStep_eq_some hread
      have hfirst : ∀ c ∈ s.operator.toList.head?, ∃ t, s.body ++ more = c :: t := fun c hc =>
        List.head?_eq_some_iff.1 ((Step.head?_body_append hdel.operator_ne_nil more).trans hc)
      refine ⟨s, more, ⟨hdel, fun _ c hc => ?_⟩, by simp [Step.text, hneg], hnext⟩
      obtain ⟨t, ht⟩ := hfirst c hc
      exact ⟨fun h => hclose t (h ▸ ht), fun h => hbang t (h ▸ ht)⟩
    · rintro ⟨s, more, ⟨hdel, -⟩, htext, hnext⟩
      cases hneg : s.negated with
      | true => exact absurd (by simpa [Step.text, hneg] using htext) (hbang _)
      | false =>
        have hcs : cs = s.body ++ more := by simpa [Step.text, hneg] using htext
        refine ⟨(s, more), ?_, hnext⟩
        rw [hcs, ← hneg]
        exact readStep_body hdel more

/-- Readable steps written one after another and closed by `]` are read back, with what follows
the `]`, when the fuel exceeds their number. -/
theorem parseSteps_texts {ss : List Step} (hss : ∀ s ∈ ss, s.Readable) (rest : List Char)
    {fuel : Nat} (hfuel : ss.length < fuel) (acc : List Step) :
    parseSteps fuel (ss.flatMap Step.text ++ ']' :: rest) acc = some (acc.reverse ++ ss, rest) := by
  induction ss generalizing fuel acc with
  | nil =>
    obtain ⟨fuel, rfl⟩ : ∃ k, fuel = k + 1 := ⟨fuel - 1, by simp at hfuel; omega⟩
    simp [parseSteps.eq_2]
  | cons s ss ih =>
    obtain ⟨fuel, rfl⟩ : ∃ k, fuel = k + 1 := ⟨fuel - 1, by simp at hfuel; omega⟩
    have hs := hss s List.mem_cons_self
    obtain ⟨c, t, ht, hc, -⟩ := hs.head_text (ss.flatMap Step.text ++ ']' :: rest)
    have hclose : ∀ r, (s :: ss).flatMap Step.text ++ ']' :: rest ≠ ']' :: r := by
      intro r hr
      simp only [List.flatMap_cons, List.append_assoc, ht] at hr
      exact hc (List.cons_eq_cons.1 hr).1
    rw [parseSteps_succ_eq_some_iff hclose]
    refine ⟨s, ss.flatMap Step.text ++ ']' :: rest, hs, by simp, ?_⟩
    rw [ih (fun s' hs' => hss s' (List.mem_cons_of_mem s hs')) (by simp at hfuel; omega)]
    simp

/-- Whatever reading steps gives back is readable steps, written one after another and closed
by `]` before what it leaves. -/
theorem parseSteps_sound {fuel : Nat} {cs rest : List Char} {acc out : List Step}
    (h : parseSteps fuel cs acc = some (out, rest)) :
    ∃ ss, out = acc.reverse ++ ss ∧ (∀ s ∈ ss, s.Readable) ∧
      cs = ss.flatMap Step.text ++ ']' :: rest := by
  induction fuel generalizing cs acc with
  | zero => simp [parseSteps.eq_1] at h
  | succ fuel ih =>
    by_cases hclose : ∃ r, cs = ']' :: r
    · obtain ⟨r, rfl⟩ := hclose
      rw [parseSteps.eq_2] at h
      obtain ⟨rfl, rfl⟩ := Prod.mk.inj (Option.some.inj h)
      exact ⟨[], by simp, by simp, by simp⟩
    · simp only [not_exists] at hclose
      obtain ⟨s, more, hs, rfl, hnext⟩ := (parseSteps_succ_eq_some_iff hclose).1 h
      obtain ⟨ss, rfl, hss, rfl⟩ := ih hnext
      refine ⟨s :: ss, by simp, ?_, by simp⟩
      intro s' hs'
      rcases List.mem_cons.1 hs' with rfl | hs'
      · exact hs
      · exact hss s' hs'

/-! ### Reading runs -/

/-- Blanks before a non-blank character, or before nothing, are skipped. -/
theorem dropWhile_blank_append {gap rest : List Char} (hgap : ∀ c ∈ gap, isBlank c = true)
    (hrest : ∀ c ∈ rest.head?, isBlank c = false) : (gap ++ rest).dropWhile isBlank = rest := by
  induction gap with
  | nil =>
    cases rest with
    | nil => rfl
    | cons c t => exact List.dropWhile_cons_of_neg (by simpa using hrest c rfl)
  | cons c gap ih =>
    rw [List.cons_append, List.dropWhile_cons_of_pos (hgap c List.mem_cons_self)]
    exact ih (fun d hd => hgap d (List.mem_cons_of_mem c hd))

theorem Step.text_ne_nil (s : Step) : s.text ≠ [] := by
  unfold Step.text Step.body
  split <;> simp

theorem length_le_flatMap_text (ss : List Step) : ss.length ≤ (ss.flatMap Step.text).length := by
  induction ss with
  | nil => simp
  | cons s ss ih =>
    have := List.length_pos_of_ne_nil s.text_ne_nil
    simp only [List.flatMap_cons, List.length_append, List.length_cons]
    omega

/-- Written text is empty or opens a run. -/
theorem Written.head {runs : List Run} {cs : List Char} (hw : Written runs cs) :
    ∀ c ∈ cs.head?, isBlank c = false := by
  cases hw with
  | nil => simp
  | @cons r _ _ _ _ _ _ => cases r <;> simp [Run.text, TagList.isBlank_bracket]

/-- Each run takes at least one character. -/
theorem Written.length_le {runs : List Run} {cs : List Char} (hw : Written runs cs) :
    runs.length ≤ cs.length := by
  induction hw with
  | nil => simp
  | @cons r _ _ _ _ _ _ ih =>
    have : 0 < r.text.length := by cases r <;> simp [Run.text]
    simp only [List.length_cons, List.length_append]
    omega

/-- A run's steps begin with no `[`: a step run is never taken for a title literal. -/
theorem flatMap_text_ne_open {ss : List Step} (hne : ss ≠ []) (hss : ∀ s ∈ ss, s.Readable)
    (more : List Char) : ∀ l, ss.flatMap Step.text ++ more ≠ '[' :: l := by
  obtain ⟨s, ss, rfl⟩ := List.exists_cons_of_ne_nil hne
  obtain ⟨c, t, ht, -, hc⟩ := (hss s List.mem_cons_self).head_text (ss.flatMap Step.text ++ more)
  intro l hl
  simp only [List.flatMap_cons, List.append_assoc, ht] at hl
  exact hc (List.cons_eq_cons.1 hl).1

/-- Written runs are read back, whatever was read before, when the fuel exceeds their number. -/
theorem parseRuns_written {runs : List Run} {cs : List Char} (hw : Written runs cs) {fuel : Nat}
    (hfuel : runs.length < fuel) (acc : List Run) :
    parseRuns fuel cs acc = some (acc.reverse ++ runs) := by
  induction hw generalizing fuel acc with
  | nil =>
    obtain ⟨fuel, rfl⟩ : ∃ k, fuel = k + 1 := ⟨fuel - 1, by omega⟩
    simp [parseRuns.eq_2]
  | @cons r rs gap rest hr hgap hrs ih =>
    obtain ⟨fuel, rfl⟩ : ∃ k, fuel = k + 1 := ⟨fuel - 1, by simp at hfuel; omega⟩
    have hnext : parseRuns fuel rest (r :: acc) = some (acc.reverse ++ r :: rs) := by
      rw [ih (by simp at hfuel; omega)]
      simp
    have hdrop : (gap ++ rest).dropWhile isBlank = rest := dropWhile_blank_append hgap hrs.head
    cases r with
    | title l =>
      have htext : (Run.title l).text ++ gap ++ rest =
          '[' :: '[' :: (l.toList ++ ']' :: ']' :: (gap ++ rest)) := by
        simp [Run.text]
      rw [htext, parseRuns.eq_3, splitOnFirst_close (TagList.no_close_of_append hr.1 hr.2)]
      dsimp only
      rw [hdrop, String.ofList_toList, hnext]
    | steps ss =>
      have htext : (Run.steps ss).text ++ gap ++ rest =
          '[' :: (ss.flatMap Step.text ++ ']' :: (gap ++ rest)) := by
        simp [Run.text]
      have hlen : ss.length < (ss.flatMap Step.text ++ ']' :: (gap ++ rest)).length + 1 := by
        have := length_le_flatMap_text ss
        rw [List.length_append]
        omega
      have hsteps := parseSteps_texts hr.2 (gap ++ rest) hlen []
      rw [htext, parseRuns.eq_4 _ _ _ (flatMap_text_ne_open hr.1 hr.2 _), hsteps]
      obtain ⟨s, ss, rfl⟩ := List.exists_cons_of_ne_nil hr.1
      dsimp only [List.reverse_nil, List.nil_append]
      rw [hdrop, hnext]

/-- A literal cut at the first `]]` is readable. -/
theorem readable_title_of_no_close {l : List Char} (hl : ¬[']', ']'] <:+: l ++ [']']) :
    (Run.title (String.ofList l)).Readable := by
  simp only [Run.Readable, String.toList_ofList]
  refine ⟨fun h => hl ?_, fun h => hl ?_⟩
  · simpa using h.trans (List.prefix_append l [']']).isInfix
  · obtain ⟨l', hl'⟩ := List.getLast?_eq_some_iff.1 (by simpa using h)
    exact ⟨l', [], by simp [hl']⟩

/-- A text as read: the blanks at its front, then the rest. -/
theorem written_cons_split {r : Run} {runs : List Run} {rest : List Char} (hr : r.Readable)
    (hw : Written runs (rest.dropWhile isBlank)) :
    Written (r :: runs) (r.text ++ rest) := by
  have hgap : ∀ c ∈ rest.takeWhile isBlank, isBlank c = true := fun c hc =>
    List.mem_takeWhile_imp hc
  have h := Written.cons hr hgap hw
  rwa [List.append_assoc, List.takeWhile_append_dropWhile] at h

/-- Whatever reading runs gives back is written runs. -/
theorem parseRuns_sound {fuel : Nat} {cs : List Char} {acc out : List Run}
    (h : parseRuns fuel cs acc = some out) : ∃ runs, out = acc.reverse ++ runs ∧ Written runs cs := by
  induction fuel generalizing cs acc with
  | zero => simp [parseRuns.eq_1] at h
  | succ fuel ih =>
    rcases cs with _ | ⟨c, cs⟩
    · rw [parseRuns.eq_2] at h
      exact ⟨[], by simpa using h.symm, .nil⟩
    by_cases hc : c = '['
    · subst hc
      by_cases hlit : ∃ literal, cs = '[' :: literal
      · obtain ⟨literal, rfl⟩ := hlit
        rw [parseRuns.eq_3] at h
        rcases hs : splitOnFirst [']', ']'] literal with _ | ⟨l, rest⟩ <;> rw [hs] at h
        · simp at h
        obtain ⟨rfl, hl⟩ := splitOnFirst_close_eq_some hs
        obtain ⟨runs, hout, hw⟩ := ih h
        refine ⟨.title (String.ofList l) :: runs, by simp [hout], ?_⟩
        have hw' := written_cons_split (readable_title_of_no_close hl) hw
        simpa [Run.text] using hw'
      · simp only [not_exists] at hlit
        rw [parseRuns.eq_4 _ _ _ hlit] at h
        rcases hs : parseSteps (cs.length + 1) cs [] with _ | ⟨steps, rest⟩ <;> rw [hs] at h
        · simp at h
        obtain ⟨ss, hss, hread, rfl⟩ := parseSteps_sound hs
        simp only [List.reverse_nil, List.nil_append] at hss
        subst hss
        rcases steps with _ | ⟨s, ss⟩
        · simp at h
        obtain ⟨runs, hout, hw⟩ := ih h
        refine ⟨.steps (s :: ss) :: runs, by simp [hout], ?_⟩
        have hrun : (Run.steps (s :: ss)).Readable := ⟨List.cons_ne_nil s ss, hread⟩
        have hw' := written_cons_split hrun hw
        simpa [Run.text] using hw'
    · rw [parseRuns.eq_5 _ _ _ _ (fun _ h _ => hc h) hc] at h
      simp at h

/-- An expression parses exactly when its trimmed text is written as runs, and the parse gives
those runs. -/
theorem parse_eq_some_iff (e : String) (runs : List Run) :
    parse e = some runs ↔ Written runs (trim e).toList := by
  unfold parse
  constructor
  · intro h
    obtain ⟨runs', rfl, hw⟩ := parseRuns_sound h
    simpa using hw
  · intro hw
    rw [parseRuns_written hw (Nat.lt_succ_of_le hw.length_le) []]
    simp

/-! ### Evaluation -/

/-- The operators a step may name; `field` needs a field name after `:`. -/
def Step.Known (s : Step) : Prop :=
  s.operator ∈ ["tag", "title", "prefix", "suffix", "has"] ∨
    (s.operator = "field" ∧ s.suffix.isSome)

/-- A step answers exactly when the filter knows its operator. -/
theorem Step.isSome_holds?_iff (s : Step) (d : Document) : (s.holds? d).isSome ↔ s.Known := by
  unfold Step.holds? Step.Known
  split <;> simp_all

/-- Negating a step flips its answer. -/
theorem Step.holds?_negate (s : Step) (d : Document) :
    ({ s with negated := !s.negated } : Step).holds? d = (s.holds? d).map (!·) := by
  unfold Step.holds?
  dsimp only
  rw [Option.map_map]
  congr 1
  funext b
  cases b <;> cases s.negated <;> rfl

theorem Run.holds_steps (ss : List Step) (d : Document) :
    (Run.steps ss).holds d = true ↔ ∀ s ∈ ss, s.holds? d = some true := by
  simp only [Run.holds, List.all_eq_true]
  refine forall₂_congr fun s _ => ?_
  cases s.holds? d <;> simp

/-- Text that begins and ends with a bracket is its own trim. -/
theorem trim_bracketed (cs : List Char) :
    trim (String.ofList ('[' :: cs ++ [']'])) = String.ofList ('[' :: cs ++ [']']) := by
  have hopen : isBlank '[' = false := TagList.isBlank_bracket
  have hclose : isBlank ']' = false := by decide
  simp [trim, trimStart, trimEnd, hopen, hclose]

/-- One readable run, written alone, is evaluated by whether it holds. -/
theorem evaluate_run {r : Run} (hr : r.Readable) (d : Document) :
    evaluate (String.ofList r.text) d = if r.holds d then [d.title] else [] := by
  have hbracketed : ∃ cs, r.text = '[' :: cs ++ [']'] := by
    cases r with
    | title l => exact ⟨'[' :: l.toList ++ [']'], by simp [Run.text]⟩
    | steps ss => exact ⟨ss.flatMap Step.text, by simp [Run.text]⟩
  have hw : Written [r] (trim (String.ofList r.text)).toList := by
    obtain ⟨cs, hcs⟩ := hbracketed
    rw [hcs, trim_bracketed, String.toList_ofList, ← hcs]
    have hone : Written [r] (r.text ++ [] ++ []) := Written.cons hr (by simp) Written.nil
    simpa using hone
  rw [evaluate, (parse_eq_some_iff _ _).2 hw]
  simp

/-- A filter expression answers the document's title or nothing. It answers the title exactly
when its trimmed text is written as readable runs, each followed by blanks or by nothing, and one
of them holds; text written otherwise answers nothing. A readable step whose operator the filter
knows holds under `!` exactly when it fails without, and one whose operator it does not know
fails either way. -/
theorem evaluate_iff_written (e : String) (d : Document) :
    (evaluate e d = [] ∨ evaluate e d = [d.title]) ∧
    (evaluate e d ≠ [] ↔
      ∃ runs, Written runs (trim e).toList ∧ ∃ r ∈ runs, r.holds d = true) ∧
    ((¬∃ runs, Written runs (trim e).toList) → evaluate e d = []) ∧
    ∀ s : Step, s.Readable → s.negated = false →
      let negatedText := String.ofList (Run.steps [{ s with negated := true }]).text
      let plainText := String.ofList (Run.steps [s]).text
      (s.Known → (evaluate negatedText d ≠ [] ↔ evaluate plainText d = [])) ∧
      (¬s.Known → evaluate negatedText d = [] ∧ evaluate plainText d = []) := by
  have hparsed : evaluate e d ≠ [] ↔
      ∃ runs, Written runs (trim e).toList ∧ ∃ r ∈ runs, r.holds d = true := by
    unfold evaluate
    rcases hp : parse e with _ | runs
    · simp only [ne_eq, not_true_eq_false, false_iff, not_exists, not_and]
      intro runs hw
      simp [(parse_eq_some_iff e runs).2 hw] at hp
    · have hw := (parse_eq_some_iff e runs).1 hp
      constructor
      · intro hne
        refine ⟨runs, hw, ?_⟩
        simpa using (show runs.any (·.holds d) = true by by_contra h; simp_all)
      · rintro ⟨runs', hw', r, hr, hholds⟩
        have hsame : runs' = runs := by
          simpa [hp] using ((parse_eq_some_iff e runs').2 hw').symm
        subst hsame
        have hany : runs'.any (·.holds d) = true := List.any_eq_true.2 ⟨r, hr, hholds⟩
        simp [hany]
  refine ⟨?_, hparsed, fun hnone => ?_, fun s hs hplain => ?_⟩
  · unfold evaluate
    split
    · split <;> simp
    · simp
  · by_contra hne
    obtain ⟨runs, hw, -⟩ := hparsed.1 hne
    exact hnone ⟨runs, hw⟩
  · have hneg : ({ s with negated := true } : Step).Readable := ⟨hs.1.negate true, by simp⟩
    have hrun : ∀ t : Step, t.Readable → (Run.steps [t]).Readable := fun t ht =>
      ⟨List.cons_ne_nil t [], by simpa using ht⟩
    have hflip : ({ s with negated := true } : Step).holds? d = (s.holds? d).map (!·) := by
      simpa [hplain] using Step.holds?_negate s d
    dsimp only
    rw [evaluate_run (hrun _ hneg), evaluate_run (hrun s hs)]
    simp only [Run.holds_steps, List.mem_singleton, forall_eq, hflip]
    constructor
    · intro hknown
      obtain ⟨b, hb⟩ := Option.isSome_iff_exists.1 ((Step.isSome_holds?_iff s d).2 hknown)
      cases b <;> simp [hb]
    · intro hunknown
      have hnone : s.holds? d = none :=
        Option.not_isSome_iff_eq_none.1 (fun h => hunknown ((Step.isSome_holds?_iff s d).1 h))
      simp [hnone]

/-- A literal is cut at its first `]]`, so one ending in `]` never reads back: `[[a]]]` is `[[`,
then `a]`, which holds no `]]`, then `]]`, yet it matches nothing, not even a document titled
`a]`. -/
theorem literal_ending_in_bracket_matches_nothing :
    "[[a]]]" = "[[" ++ "a]" ++ "]]" ∧ ¬[']', ']'] <:+: "a]".toList ∧
      (Document.new "a]").title = "a]" ∧ evaluate "[[a]]]" (Document.new "a]") = [] := by
  decide

end WikiSync.Filter
