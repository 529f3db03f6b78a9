import WikiSync.Proofs.Path.Keyed

/-!
# The text after a prefix

A path's text splits at `/` into pieces; its components are those of its head (the root `/`, or
a leading `.`) followed by what the remaining pieces name, blank pieces (empty, or `.`) naming
nothing (`components_eq_head_append`). `textAfter` keeps the pieces of a path after its first
`k` named ones, drops the blank pieces at both ends and joins the rest with `/`; the text it
gives names exactly the components after the first `k` (`components_textAfter`). Hence the part
of a path after a prefix, as `stripPrefix?` cuts it, names what follows the prefix's
components (`components_stripPrefix`): a path is its prefix joined with what follows, whatever
spelling either is written in.
-/

namespace WikiSync.Path

/-- The pieces between separators of a text given as characters, blank ones included. -/
def slashPieces (cs : List Char) : List String :=
  (cs.splitOn '/').map String.ofList

/-- The component a piece stands for when it names something. -/
def nameOf (n : String) : Component :=
  if n == ".." then .parent else .normal n

/-- The components named by a list of pieces; blank pieces name nothing. -/
def names (ps : List String) : List Component :=
  (ps.filter fun s => !isBlankPiece s).map nameOf

/-- The components of a path's head: its root, or the `.` that starts it. -/
def headComponents (p : String) : List Component :=
  if p.startsWith "/" then [.root] else if p == "." || p.startsWith "./" then [.current] else []

/-- Pieces without the blank pieces that end them, as `textAfter` trims its pieces. -/
def trimBlank (ps : List String) : List String :=
  (ps.reverse.dropWhile isBlankPiece).reverse

theorem bodyPieces_eq (p : String) : bodyPieces p = slashPieces (p.toList.drop (headLength p)) :=
  rfl

@[simp] theorem isBlankPiece_empty : isBlankPiece "" = true := rfl

@[simp] theorem isBlankPiece_dot : isBlankPiece "." = true := rfl

theorem isBlankPiece_ofList (cs : List Char) :
    isBlankPiece (String.ofList cs) = true ↔ cs = [] ∨ cs = ['.'] := by
  have h1 : String.ofList cs = "" ↔ cs = [] := by
    rw [← String.toList_inj]; simp
  have h2 : String.ofList cs = "." ↔ cs = ['.'] := by
    rw [← String.toList_inj]; simp
  simp [isBlankPiece, String.isEmpty_iff, h1, h2]

/-! ### Pieces between separators -/

theorem splitOn_slash_cons (cs : List Char) :
    ('/' :: cs).splitOn '/' = [] :: cs.splitOn '/' := by
  simp [List.splitOn, List.splitOnP_cons_eq_if_modifyHead]

theorem splitOn_cons_of_ne {c : Char} (hc : c ≠ '/') (cs : List Char) :
    (c :: cs).splitOn '/' = (cs.splitOn '/').modifyHead (c :: ·) := by
  simp [List.splitOn, List.splitOnP_cons_eq_if_modifyHead, hc]

/-- No piece between separators holds a separator. -/
theorem not_mem_of_mem_splitOn (cs : List Char) : ∀ l ∈ cs.splitOn '/', '/' ∉ l := by
  induction cs with
  | nil => simp
  | cons c cs ih =>
    by_cases hc : c = '/'
    · subst hc
      rw [splitOn_slash_cons]
      simpa using ih
    · rw [splitOn_cons_of_ne hc]
      cases hs : cs.splitOn '/' with
      | nil => simp [List.splitOn, List.splitOnP_ne_nil] at hs
      | cons first rest =>
        rw [hs] at ih
        intro l hl
        simp only [List.modifyHead_cons, List.mem_cons] at hl
        rcases hl with rfl | hl
        · simpa [Ne.symm hc] using ih first (by simp)
        · exact ih l (List.mem_cons_of_mem _ hl)

/-- The first piece between separators runs up to the first separator. -/
theorem head?_splitOn (cs : List Char) :
    (cs.splitOn '/').head? = some (cs.takeWhile (· != '/')) := by
  induction cs with
  | nil => rfl
  | cons c cs ih =>
    by_cases hc : c = '/'
    · subst hc
      rw [splitOn_slash_cons]
      rfl
    · rw [splitOn_cons_of_ne hc, List.head?_modifyHead, ih]
      simp [hc]

theorem slashPieces_slash (cs : List Char) : slashPieces ('/' :: cs) = "" :: slashPieces cs := by
  simp [slashPieces, splitOn_slash_cons]

theorem slashPieces_nil : slashPieces [] = [""] := by
  simp [slashPieces]

/-! ### Named pieces -/

@[simp] theorem names_nil : names [] = [] := rfl

theorem names_cons_blank {s : String} (h : isBlankPiece s = true) (ps : List String) :
    names (s :: ps) = names ps := by
  simp [names, h]

theorem names_cons_named {s : String} (h : isBlankPiece s = false) (ps : List String) :
    names (s :: ps) = nameOf s :: names ps := by
  simp [names, h]

theorem names_reverse (ps : List String) : names ps.reverse = (names ps).reverse := by
  simp [names, List.filter_reverse]

theorem names_dropWhile (ps : List String) : names (ps.dropWhile isBlankPiece) = names ps := by
  induction ps with
  | nil => rfl
  | cons s ps ih =>
    rw [List.dropWhile_cons]
    cases h : isBlankPiece s
    · rfl
    · rw [if_pos rfl, ih, names_cons_blank h]

/-- Dropping blank pieces at the end keeps the names. -/
theorem names_trimBlank (ps : List String) : names (trimBlank ps) = names ps := by
  rw [trimBlank, names_reverse, names_dropWhile, names_reverse, List.reverse_reverse]

/-- Skipping `k` named pieces drops the first `k` names. -/
theorem names_dropNamed (ps : List String) (k : Nat) :
    names (dropNamed ps k) = (names ps).drop k := by
  induction ps generalizing k with
  | nil => cases k <;> rfl
  | cons s ps ih =>
    cases k with
    | zero => rfl
    | succ k =>
      cases h : isBlankPiece s
      · rw [dropNamed, if_neg (by simp [h]), ih, names_cons_named h, List.drop_succ_cons]
      · rw [dropNamed, if_pos h, ih, names_cons_blank h]

theorem dropNamed_suffix (ps : List String) (k : Nat) : dropNamed ps k <:+ ps := by
  induction ps generalizing k with
  | nil => cases k <;> simp [dropNamed]
  | cons s ps ih =>
    cases k with
    | zero => exact List.suffix_refl _
    | succ k =>
      rw [dropNamed]
      split
      · exact (ih (k + 1)).trans (List.suffix_cons s ps)
      · exact (ih k).trans (List.suffix_cons s ps)

/-! ### The head of a path -/

/-- A path has a head when its text starts with `/`, is `.`, or starts with `./`. -/
theorem headLength_eq (p : String) :
    headLength p =
      if ['/'] <+: p.toList ∨ p.toList = ['.'] ∨ ['.', '/'] <+: p.toList then 1 else 0 := by
  have hdot : (p == ".") = true ↔ p.toList = ['.'] := by
    rw [beq_iff_eq, ← String.toList_inj]; rfl
  have hslash : "/".toList = ['/'] := rfl
  have hdotSlash : "./".toList = ['.', '/'] := rfl
  simp only [headLength, Bool.or_eq_true, String.startsWith_string_iff, hdot, hslash, hdotSlash,
    or_assoc]

theorem headLength_eq_one_iff (p : String) :
    headLength p = 1 ↔ ['/'] <+: p.toList ∨ p.toList = ['.'] ∨ ['.', '/'] <+: p.toList := by
  rw [headLength_eq]
  split <;> simp_all

theorem headComponents_eq (p : String) :
    headComponents p = if ['/'] <+: p.toList then [.root]
      else if p.toList = ['.'] ∨ ['.', '/'] <+: p.toList then [.current] else [] := by
  have hdot : (p == ".") = true ↔ p.toList = ['.'] := by
    rw [beq_iff_eq, ← String.toList_inj]; rfl
  simp only [headComponents, Bool.or_eq_true, String.startsWith_string_iff, hdot]
  rfl

/-- The head is one component long exactly when `headLength` counts one character for it. -/
theorem headComponents_length (p : String) : (headComponents p).length = headLength p := by
  rw [headComponents_eq, headLength_eq]
  by_cases h₁ : ['/'] <+: p.toList <;> by_cases h₂ : p.toList = ['.'] ∨ ['.', '/'] <+: p.toList <;>
    simp [h₁, h₂]

theorem slashPieces_cons_slash {c : Char} (hc : c ≠ '/') (cs : List Char) :
    slashPieces (c :: '/' :: cs) = String.ofList [c] :: slashPieces cs := by
  simp [slashPieces, splitOn_cons_of_ne hc, splitOn_slash_cons]

/-- The pieces after a path's head name what all its pieces name: the head piece is blank. -/
theorem names_slashPieces_drop_head (p : String) :
    names (slashPieces (p.toList.drop (headLength p))) = names (slashPieces p.toList) := by
  rw [headLength_eq]
  generalize p.toList = cs
  rcases cs with _ | ⟨c, cs⟩
  · rfl
  by_cases hc : c = '/'
  · subst hc
    have hhead : ['/'] <+: '/' :: cs := by simp
    rw [if_pos (Or.inl hhead), List.drop_one, List.tail_cons, slashPieces_slash,
      names_cons_blank isBlankPiece_empty]
  by_cases hdot : c = '.'
  · subst hdot
    rcases cs with _ | ⟨d, cs⟩
    · rfl
    by_cases hd : d = '/'
    · subst hd
      have hhead : ['.', '/'] <+: '.' :: '/' :: cs := by simp
      rw [if_pos (Or.inr (Or.inr hhead)), List.drop_one, List.tail_cons, slashPieces_slash,
        slashPieces_cons_slash hc, names_cons_blank isBlankPiece_empty,
        names_cons_blank isBlankPiece_dot]
    · have hhead : ¬ (['/'] <+: '.' :: d :: cs ∨ '.' :: d :: cs = ['.'] ∨
          ['.', '/'] <+: '.' :: d :: cs) := by simp [Ne.symm hd]
      rw [if_neg hhead, List.drop_zero]
  · have hhead : ¬ (['/'] <+: c :: cs ∨ c :: cs = ['.'] ∨ ['.', '/'] <+: c :: cs) := by
      simp [Ne.symm hc, Ne.symm hdot, hdot]
    rw [if_neg hhead, List.drop_zero]

/-- A path's components: those of its head, then what the pieces of its body name. -/
theorem components_eq_head_append (p : String) :
    components p = headComponents p ++ names (bodyPieces p) := by
  have hnames : ((pieces p).filter (· ≠ ".")).map
      (fun n => if n == ".." then Component.parent else .normal n) =
      names (slashPieces p.toList) := by
    simp only [pieces, names, List.filter_filter]
    congr 1
    apply List.filter_congr
    intro s _
    by_cases h₁ : s = "" <;> by_cases h₂ : s = "." <;> simp_all [isBlankPiece, String.isEmpty_iff]
  rw [bodyPieces_eq, names_slashPieces_drop_head, ← hnames, components, headComponents]
  cases p.startsWith "/" <;> cases (p == "." || p.startsWith "./") <;> rfl

/-! ### Joining pieces again -/

theorem not_mem_of_mem_slashPieces (cs : List Char) : ∀ q ∈ slashPieces cs, '/' ∉ q.toList := by
  intro q hq
  obtain ⟨l, hl, rfl⟩ := List.mem_map.mp hq
  rw [String.toList_ofList]
  exact not_mem_of_mem_splitOn cs l hl

theorem not_mem_of_mem_bodyPieces (p : String) : ∀ q ∈ bodyPieces p, '/' ∉ q.toList :=
  not_mem_of_mem_slashPieces _

/-- Pieces without separators, joined with `/`, split back into themselves. -/
theorem slashPieces_intercalate {qs : List String} (hq : ∀ q ∈ qs, '/' ∉ q.toList)
    (hne : qs ≠ []) : slashPieces ("/".intercalate qs).toList = qs := by
  have hsplit : ("/".intercalate qs).toList.splitOn '/' = qs.map String.toList := by
    rw [String.toList_intercalate]
    exact List.splitOn_intercalate '/' (by simpa using hq) (by simpa using hne)
  rw [slashPieces, hsplit, List.map_map]
  simp [Function.comp_def]

theorem names_slashPieces_intercalate {qs : List String} (hq : ∀ q ∈ qs, '/' ∉ q.toList) :
    names (slashPieces ("/".intercalate qs).toList) = names qs := by
  rcases qs with _ | ⟨q, qs⟩
  · rfl
  · rw [slashPieces_intercalate hq (List.cons_ne_nil q qs)]

/-- A text that starts with a named piece has no head. -/
theorem headLength_eq_zero {s q : String} {rest : List Char} (hs : s.toList = q.toList ++ rest)
    (hq : isBlankPiece q = false) (hslash : '/' ∉ q.toList) : headLength s = 0 := by
  have hblank : ¬ (q.toList = [] ∨ q.toList = ['.']) := by
    rw [← isBlankPiece_ofList, String.ofList_toList, hq]
    decide
  rw [headLength_eq, hs, if_neg]
  rcases hcs : q.toList with _ | ⟨a, as⟩
  · simp [hcs] at hblank
  rw [hcs] at hblank hslash
  have ha : a ≠ '/' := fun h => hslash (h ▸ List.mem_cons_self)
  rcases as with _ | ⟨b, bs⟩
  · have ha' : a ≠ '.' := fun h => hblank (Or.inr (h ▸ rfl))
    simp [Ne.symm ha, Ne.symm ha', ha']
  · have hb : b ≠ '/' := fun h => hslash (h ▸ List.mem_cons_of_mem _ List.mem_cons_self)
    simp [Ne.symm ha, Ne.symm hb]

theorem headLength_intercalate {qs : List String} (hq : ∀ q ∈ qs, '/' ∉ q.toList)
    (hfirst : ∀ q ∈ qs.head?, isBlankPiece q = false) : headLength ("/".intercalate qs) = 0 := by
  rcases qs with _ | ⟨q, qs⟩
  · rfl
  have hs : ∃ rest, ("/".intercalate (q :: qs)).toList = q.toList ++ rest := by
    rw [String.toList_intercalate]
    rcases qs with _ | ⟨q', qs⟩
    · exact ⟨[], by simp⟩
    · exact ⟨_, by rw [List.map_cons, List.map_cons, List.intercalate_cons_cons, List.append_assoc]⟩
  obtain ⟨rest, hs⟩ := hs
  exact headLength_eq_zero hs (hfirst q rfl) (hq q List.mem_cons_self)

/-- A text with no head has the components its pieces name. -/
theorem components_of_headLength_eq_zero {s : String} (h : headLength s = 0) :
    components s = names (slashPieces s.toList) := by
  have hhead : headComponents s = [] :=
    List.eq_nil_of_length_eq_zero (by rw [headComponents_length, h])
  rw [components_eq_head_append, hhead, bodyPieces_eq, h, List.drop_zero, List.nil_append]

/-- Pieces without separators, the first of them named, joined with `/`: a path whose
components are what the pieces name. -/
theorem components_intercalate {qs : List String} (hq : ∀ q ∈ qs, '/' ∉ q.toList)
    (hfirst : ∀ q ∈ qs.head?, isBlankPiece q = false) :
    components ("/".intercalate qs) = names qs := by
  rw [components_of_headLength_eq_zero (headLength_intercalate hq hfirst),
    names_slashPieces_intercalate hq]

/-! ### The text after the first components -/

theorem trimBlank_prefixOf (ps : List String) : trimBlank ps <+: ps := by
  rw [trimBlank, ← List.reverse_suffix, List.reverse_reverse]
  exact List.dropWhile_suffix _

theorem head?_of_prefixOf {l₁ l₂ : List String} (h : l₁ <+: l₂) : ∀ a ∈ l₁.head?, a ∈ l₂.head? := by
  obtain ⟨t, rfl⟩ := h
  intro a ha
  cases l₁ with
  | nil => simp at ha
  | cons b l => simpa using ha

theorem head?_dropWhile_blank (ps : List String) :
    ∀ q ∈ (ps.dropWhile isBlankPiece).head?, isBlankPiece q = false := by
  induction ps with
  | nil => simp
  | cons s ps ih =>
    rw [List.dropWhile_cons]
    cases h : isBlankPiece s
    · intro q hq
      simp only [Bool.false_eq_true, if_false, List.head?_cons, Option.mem_def,
        Option.some.injEq] at hq
      rw [← hq, h]
    · rw [if_pos rfl]
      exact ih

theorem headLength_le_one (p : String) : headLength p ≤ 1 := by
  rw [headLength]
  split <;> omega

/-- With no components to skip, `textAfter` keeps the head and trims the body. -/
theorem textAfter_zero (p : String) :
    textAfter p 0 = String.ofList (p.toList.take (headLength p)) ++
      "/".intercalate (trimBlank (bodyPieces p)) :=
  rfl

/-- Past the head, `textAfter` skips the named pieces standing for the other components. -/
theorem textAfter_of_ne_zero (p : String) {k : Nat} (hk : k ≠ 0) :
    textAfter p k = "/".intercalate
      (trimBlank ((dropNamed (bodyPieces p) (k - headLength p)).dropWhile isBlankPiece)) := by
  have hskip : (if headLength p == 1 then k - 1 else k) = k - headLength p := by
    have := headLength_le_one p
    split
    · simp_all
    · simp_all
      omega
  simp only [textAfter, trimBlank, beq_iff_eq, hk, if_false]
  rw [← hskip]
  simp

/-- Pieces from a list of pieces without separators, blank ones dropped at either end and the
rest joined with `/`: a path whose components are what the pieces name. -/
theorem components_intercalate_trimBlank {ps rest : List String}
    (hps : ∀ q ∈ ps, '/' ∉ q.toList) (hrest : rest <:+ ps) :
    components ("/".intercalate (trimBlank (rest.dropWhile isBlankPiece))) = names rest := by
  have hpre := trimBlank_prefixOf (rest.dropWhile isBlankPiece)
  have hq : ∀ q ∈ trimBlank (rest.dropWhile isBlankPiece), '/' ∉ q.toList := fun q hq =>
    hps q (hrest.subset ((List.dropWhile_suffix _).subset (hpre.subset hq)))
  have hfirst : ∀ q ∈ (trimBlank (rest.dropWhile isBlankPiece)).head?,
      isBlankPiece q = false := fun q hq =>
    head?_dropWhile_blank rest q (head?_of_prefixOf hpre q hq)
  rw [components_intercalate hq hfirst, names_trimBlank, names_dropWhile]

/-- After at least one component, the text after the first `k` components of a path names the
rest of them. -/
theorem components_textAfter_of_ne_zero (p : String) {k : Nat} (hk : k ≠ 0) :
    components (textAfter p k) = (components p).drop k := by
  have hdrop : (headComponents p).drop k = [] :=
    List.drop_eq_nil_of_le (by rw [headComponents_length]; have := headLength_le_one p; omega)
  rw [textAfter_of_ne_zero p hk,
    components_intercalate_trimBlank (not_mem_of_mem_bodyPieces p) (dropNamed_suffix _ _),
    names_dropNamed, components_eq_head_append, List.drop_append, hdrop, List.nil_append,
    headComponents_length]

/-- The body of a path with no head, when it is not empty, starts with a named piece. -/
theorem head?_bodyPieces_of_headLength_eq_zero {p : String} (h : headLength p = 0)
    (hp : p.toList ≠ []) : ∀ q ∈ (bodyPieces p).head?, isBlankPiece q = false := by
  intro q hq
  rw [bodyPieces_eq, h, List.drop_zero, slashPieces, List.head?_map, head?_splitOn,
    Option.map_some, Option.mem_def, Option.some.injEq] at hq
  subst hq
  have hcond : ¬ (['/'] <+: p.toList ∨ p.toList = ['.'] ∨ ['.', '/'] <+: p.toList) := by
    rw [← headLength_eq_one_iff, h]
    decide
  rcases hcs : p.toList with _ | ⟨c, cs⟩
  · exact absurd hcs hp
  rw [hcs] at hcond
  have hc : c ≠ '/' := fun hc => hcond (Or.inl (by simp [hc]))
  rw [Bool.eq_false_iff, ne_eq, isBlankPiece_ofList]
  rintro (hnil | hdot)
  · simp [hc] at hnil
  · simp only [List.takeWhile_cons, bne_iff_ne, ne_eq, hc, not_false_eq_true, if_true,
      List.cons.injEq] at hdot
    obtain ⟨rfl, hrest⟩ := hdot
    rcases cs with _ | ⟨d, cs⟩
    · exact hcond (Or.inr (Or.inl rfl))
    · by_cases hd : d = '/'
      · exact hcond (Or.inr (Or.inr (by simp [hd])))
      · simp [hd] at hrest

/-- Trimming the body of a path with no head keeps its components. -/
theorem components_textAfter_zero_of_headLength_eq_zero {p : String} (h : headLength p = 0) :
    components (textAfter p 0) = components p := by
  have hbody : trimBlank (bodyPieces p) = trimBlank ((bodyPieces p).dropWhile isBlankPiece) := by
    by_cases hp : p.toList = []
    · rw [bodyPieces_eq, h, List.drop_zero, hp, slashPieces_nil]
      rfl
    · have hfirst := head?_bodyPieces_of_headLength_eq_zero h hp
      rcases hps : bodyPieces p with _ | ⟨q, ps⟩
      · rfl
      · rw [hps] at hfirst
        rw [List.dropWhile_cons, if_neg (by simp [hfirst q rfl])]
  have hhead : headComponents p = [] :=
    List.eq_nil_of_length_eq_zero (by rw [headComponents_length, h])
  rw [textAfter_zero, h, List.take_zero, String.ofList_nil, String.empty_append, hbody,
    components_intercalate_trimBlank (not_mem_of_mem_bodyPieces p) (List.suffix_refl _),
    components_eq_head_append p, hhead, List.nil_append]

theorem toList_intercalate_blank_cons (t : List String) :
    ("/".intercalate ("" :: t)).toList = [] ∨ ['/'] <+: ("/".intercalate ("" :: t)).toList := by
  rcases t with _ | ⟨q, t⟩
  · left
    rfl
  · right
    rw [String.toList_intercalate, List.map_cons, List.map_cons, List.intercalate_cons_cons]
    simp

/-- The trimmed body after a `.` head is empty or starts with a separator. -/
theorem intercalate_trimBlank_after_dot {cs : List Char} (hcs : cs = [] ∨ ['/'] <+: cs) :
    ("/".intercalate (trimBlank (slashPieces cs))).toList = [] ∨
      ['/'] <+: ("/".intercalate (trimBlank (slashPieces cs))).toList := by
  rcases hcs with rfl | ⟨cs, rfl⟩
  · left
    rfl
  · rw [List.singleton_append, slashPieces_slash]
    rcases List.prefix_cons_iff.mp (trimBlank_prefixOf ("" :: slashPieces cs)) with h | ⟨t, h, _⟩
    · left
      rw [h]
      rfl
    · rw [h]
      exact toList_intercalate_blank_cons t

/-- Trimming the body of a path with a head keeps its components. -/
theorem components_textAfter_zero_of_headLength_eq_one {p : String} (h : headLength p = 1) :
    components (textAfter p 0) = components p := by
  have hcond := (headLength_eq_one_iff p).mp h
  obtain ⟨c, cs, hcs⟩ : ∃ c cs, p.toList = c :: cs := by
    rcases hp : p.toList with _ | ⟨c, cs⟩
    · simp [hp] at hcond
    · exact ⟨c, cs, rfl⟩
  have hbody : bodyPieces p = slashPieces cs := by
    rw [bodyPieces_eq, h, hcs, List.drop_one, List.tail_cons]
  have hr : (textAfter p 0).toList =
      c :: ("/".intercalate (trimBlank (slashPieces cs))).toList := by
    rw [textAfter_zero, h, String.toList_append, hcs, hbody]
    simp
  have hhead : headComponents (textAfter p 0) = headComponents p := by
    rw [headComponents_eq, headComponents_eq, hr, hcs]
    rw [hcs] at hcond
    by_cases hc : c = '/'
    · simp [hc]
    · have hdot : c = '.' ∧ (cs = [] ∨ ['/'] <+: cs) := by
        simp only [List.cons_prefix_cons, List.cons.injEq, List.nil_prefix, and_true] at hcond
        rcases hcond with hslash | ⟨hdot, hnil⟩ | ⟨hdot, hslash⟩
        · exact absurd hslash.symm hc
        · exact ⟨hdot, Or.inl hnil⟩
        · exact ⟨hdot.symm, Or.inr hslash⟩
      obtain ⟨rfl, hcs'⟩ := hdot
      rcases intercalate_trimBlank_after_dot hcs' with hx | hx <;>
        rcases hcs' with hy | hy <;> simp_all
  have hlen : headLength (textAfter p 0) = 1 := by
    rw [← headComponents_length, hhead, headComponents_length, h]
  have hq : ∀ q ∈ trimBlank (slashPieces cs), '/' ∉ q.toList := fun q hq =>
    not_mem_of_mem_slashPieces cs q ((trimBlank_prefixOf _).subset hq)
  rw [components_eq_head_append, components_eq_head_append p, hhead, bodyPieces_eq, hlen, hr,
    List.drop_one, List.tail_cons, names_slashPieces_intercalate hq, names_trimBlank, hbody]

/-- The text after the first `k` components of a path names the rest of them. -/
theorem components_textAfter (p : String) (k : Nat) :
    components (textAfter p k) = (components p).drop k := by
  by_cases hk : k = 0
  · subst hk
    rw [List.drop_zero]
    rcases Nat.le_one_iff_eq_zero_or_eq_one.mp (headLength_le_one p) with h | h
    · exact components_textAfter_zero_of_headLength_eq_zero h
    · exact components_textAfter_zero_of_headLength_eq_one h
  · exact components_textAfter_of_ne_zero p hk

/-- The part of a path after a prefix names the components that follow the prefix's. -/
theorem components_stripPrefix {p base rest : String} (h : stripPrefix? p base = some rest) :
    components p = components base ++ components rest := by
  dsimp only [stripPrefix?] at h
  split at h
  · rename_i hpre
    obtain ⟨t, ht⟩ := List.isPrefixOf_iff_prefix.mp hpre
    cases h
    rw [components_textAfter, ← ht, List.drop_left]
  · cases h

/-- A path has a part after a prefix exactly when the prefix's components begin it. -/
theorem isSome_stripPrefix (p base : String) :
    (stripPrefix? p base).isSome = startsWith p base := by
  dsimp only [stripPrefix?, startsWith]
  cases h : (components base).isPrefixOf (components p) <;> simp

end WikiSync.Path
