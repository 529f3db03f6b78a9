import Mathlib
import WikiSync.Proofs.Route.Stem

/-!
# The least free path for a title

A free path for a title under a root is searched among the candidates `stem.ext`, `stem_1.ext`,
`stem_2.ext`, … joined to the root, asking of each in turn whether it is taken. The candidates
are pairwise different paths (`eq_of_same_candidate`): the stem is safe, so it begins the first
component of each candidate and holds no separator, and the text between the stem and the dot
tells the candidates apart. Taken paths that lie in a finite set `T` therefore take at most
`|T|` candidates (`card_taken_le`), and a search allowed `|T|` questions or more ends at the
first candidate not taken, having asked about it and the ones before it only
(`generate_least_free`).

The questions are seen through `search`, the same search with `taken` answering in a monad:
with plain answers it is the search the router runs (`firstFree_eq_search`), and with answers
that write each question down it lists the candidates asked about (`search_recorded`).
-/

namespace WikiSync

namespace Path

/-- Joining a name that begins with neither a separator nor a dot appends what its pieces
name. -/
theorem components_join_relative {root name : String} {c : Char} {cs : List Char}
    (hname : name.toList = c :: cs) (hslash : c ≠ '/') (hdot : c ≠ '.') :
    components (join root name) = components root ++ names (slashPieces name.toList) := by
  have hhead : headComponents name = [] := by
    rw [headComponents_eq, hname]
    simp [Ne.symm hslash, Ne.symm hdot, hdot]
  have habs : isAbsolute name = false := by
    rw [isAbsolute, String.startsWith_string_eq_false_iff, show "/".toList = ['/'] from rfl, hname]
    simp [Ne.symm hslash]
  rw [join, habs]
  simp only [Bool.false_eq_true, if_false, Bool.or_eq_true]
  split
  · rename_i hroot
    rcases hroot with hempty | hend
    · rw [String.isEmpty_iff.mp hempty, String.empty_append, components_eq_head_names, hhead]
      rfl
    · obtain ⟨A, hA⟩ : ∃ A, root.toList = A ++ ['/'] := by
        simp only [← String.endsWith_toSlice, String.Slice.endsWith_string_iff,
          String.copy_toSlice] at hend
        obtain ⟨A, hA⟩ := hend
        exact ⟨A, hA.symm⟩
      have hne : root.toList ≠ [] := by simp [hA]
      have hdot' : root.toList = ['.'] → name.toList.head? = some '/' := by
        intro h
        rw [hA] at h
        simpa using congrArg List.getLast? h
      rw [components_eq_head_names, components_eq_head_names, headComponents_append hne hdot',
        String.toList_append, hA, List.append_assoc, List.singleton_append,
        slashPieces_append_slash, slashPieces_append_slash, names_append, names_append,
        slashPieces_nil, names_cons_blank isBlankPiece_empty, names_nil, List.append_nil,
        List.append_assoc]
  · rename_i hroot
    have hne : root.toList ≠ [] := by
      intro h
      exact hroot (.inl (String.isEmpty_iff.mpr (String.toList_inj.mp (by simpa using h))))
    have hdot' : root.toList = ['.'] → ("/" ++ name).toList.head? = some '/' := fun _ => by
      simp
    rw [String.append_assoc, components_eq_head_names, components_eq_head_names,
      headComponents_append hne hdot', String.toList_append, String.toList_append]
    rw [show "/".toList = ['/'] from rfl, List.singleton_append, slashPieces_append_slash,
      names_append, List.append_assoc]

/-- What the pieces of a text name begins with its first piece, when that piece is a name. -/
theorem head?_names_slashPieces {cs first : List Char} (hfirst : cs.takeWhile (· != '/') = first)
    (hblank : isBlankPiece (String.ofList first) = false) (hpar : String.ofList first ≠ "..") :
    (names (slashPieces cs)).head? = some (.normal (String.ofList first)) := by
  obtain ⟨rest, hsplit⟩ : ∃ rest, cs.splitOn '/' = first :: rest := by
    have h := head?_splitOn cs
    rw [hfirst] at h
    cases hs : cs.splitOn '/' with
    | nil => simp [hs] at h
    | cons x rest => exact ⟨rest, by simpa [hs] using h⟩
  rw [slashPieces, hsplit, List.map_cons, names_cons_named hblank, nameOf, if_neg (by simpa using hpar)]
  rfl

end Path

namespace FileName

/-! ### Candidates are pairwise different paths -/

/-- The characters a candidate puts between the stem and the dot: none for the first, `_n` for
the `n`-th. -/
def suffixChars (n : Nat) : List Char :=
  if n = 0 then [] else '_' :: (Nat.repr n).toList

theorem suffixChars_plain (n : Nat) : '.' ∉ suffixChars n ∧ '/' ∉ suffixChars n := by
  unfold suffixChars
  split
  · simp
  · have hdigit : ∀ c ∈ (Nat.repr n).toList, c.isDigit = true := by
      intro c hc
      have hc' : c ∈ Nat.toDigits 10 n := by simpa [Nat.repr] using hc
      exact Nat.isDigit_of_mem_toDigits (by decide) (by decide) hc'
    refine ⟨fun h => ?_, fun h => ?_⟩
    · rcases List.mem_cons.mp h with h | h
      · cases h
      · exact absurd (hdigit _ h) (by decide)
    · rcases List.mem_cons.mp h with h | h
      · cases h
      · exact absurd (hdigit _ h) (by decide)

theorem suffixChars_injective {i j : Nat} (h : suffixChars i = suffixChars j) : i = j := by
  unfold suffixChars at h
  split at h <;> split at h
  · omega
  · cases h
  · cases h
  · exact Nat.repr_inj.mp (String.toList_inj.mp (List.cons_eq_cons.mp h).2)

/-- A candidate is the root joined with the stem, its suffix, a dot and the extension. -/
theorem candidate_eq (root stem ext : String) (n : Nat) :
    candidate root stem ext n =
      Path.join root (String.ofList (stem.toList ++ suffixChars n ++ '.' :: ext.toList)) := by
  unfold candidate suffixChars
  by_cases h : n = 0
  · subst h
    simp only [beq_self_eq_true, if_true]
    congr 1
    rw [← String.toList_inj]
    simp
  · rw [if_neg (by simpa using h), if_neg h]
    congr 1
    rw [← String.toList_inj]
    simp

variable {root stem ext : String}

/-- The first component a candidate adds to the root: the stem, the suffix, the dot, and the
extension up to its first separator. -/
theorem components_candidate_head (root ext : String) (h : SafeStem stem) (n : Nat) :
    ∃ rest, Path.components (candidate root stem ext n) = Path.components root ++
      .normal (String.ofList (stem.toList ++ suffixChars n ++
        '.' :: ext.toList.takeWhile (· != '/'))) :: rest := by
  obtain ⟨c, cs, hcs⟩ := List.exists_cons_of_ne_nil h.nonempty
  have hstem : '/' ∉ stem.toList := fun hm => (h.allowed '/' hm).1 (by decide)
  have hdot : c ≠ '.' := by
    have hc := h.first c (by simp [hcs])
    rintro rfl
    exact absurd hc (by decide)
  have hslash : c ≠ '/' := by
    rintro rfl
    exact hstem (by simp [hcs])
  set name := stem.toList ++ suffixChars n ++ '.' :: ext.toList with hname
  set first := stem.toList ++ suffixChars n ++ '.' :: ext.toList.takeWhile (· != '/') with hfirst
  have htake : name.takeWhile (· != '/') = first := by
    have hpos : ∀ a ∈ stem.toList ++ suffixChars n ++ ['.'], (a != '/') = true := by
      intro a ha
      simp only [List.mem_append, List.mem_singleton] at ha
      rcases ha with (ha | ha) | rfl
      · exact bne_iff_ne.mpr fun heq => hstem (heq ▸ ha)
      · exact bne_iff_ne.mpr fun heq => (suffixChars_plain n).2 (heq ▸ ha)
      · decide
    have h : (stem.toList ++ suffixChars n ++ ['.'] ++ ext.toList).takeWhile (· != '/') =
        stem.toList ++ suffixChars n ++ ['.'] ++ ext.toList.takeWhile (· != '/') :=
      List.takeWhile_append_of_pos hpos
    simpa [hname, hfirst] using h
  have hfirst_cons : first = c :: (cs ++ suffixChars n ++ '.' :: ext.toList.takeWhile (· != '/')) := by
    simp [hfirst, hcs]
  have hblank : Path.isBlankPiece (String.ofList first) = false := by
    cases hb : Path.isBlankPiece (String.ofList first) with
    | false => rfl
    | true =>
      rw [Path.isBlankPiece_ofList, hfirst_cons] at hb
      rcases hb with hb | hb <;> simp at hb
  have hpar : String.ofList first ≠ ".." := by
    intro heq
    have h := congrArg String.toList heq
    rw [String.toList_ofList, hfirst_cons] at h
    exact hdot (List.cons_eq_cons.mp h).1
  have hjoin : Path.components (Path.join root (String.ofList name)) =
      Path.components root ++ Path.names (Path.slashPieces (String.ofList name).toList) :=
    @Path.components_join_relative root (String.ofList name) c
      (cs ++ suffixChars n ++ '.' :: ext.toList) (by simp [hname, hcs]) hslash hdot
  have hhead : (Path.names (Path.slashPieces name)).head? = some (.normal (String.ofList first)) :=
    Path.head?_names_slashPieces htake hblank hpar
  obtain ⟨rest, hrest⟩ : ∃ rest, Path.names (Path.slashPieces name) =
      .normal (String.ofList first) :: rest := by
    cases hn : Path.names (Path.slashPieces name) with
    | nil => simp [hn] at hhead
    | cons x rest => exact ⟨rest, by simpa [hn] using hhead⟩
  refine ⟨rest, ?_⟩
  rw [candidate_eq, hjoin, String.toList_ofList, hrest]

/-- The candidates for a safe stem are pairwise different paths. -/
theorem eq_of_same_candidate (h : SafeStem stem) {i j : Nat}
    (hsame : Path.same (candidate root stem ext i) (candidate root stem ext j) = true) : i = j := by
  obtain ⟨resti, hi⟩ := components_candidate_head root ext h i
  obtain ⟨restj, hj⟩ := components_candidate_head root ext h j
  rw [Path.same_eq, decide_eq_true_eq, hi, hj] at hsame
  have hnames := (List.cons_eq_cons.mp (List.append_cancel_left hsame)).1
  have htext := congrArg String.toList (Component.normal.inj hnames)
  simp only [String.toList_ofList, List.append_assoc, List.append_cancel_left_eq] at htext
  have hdots := congrArg (List.takeWhile (· != '.')) htext
  have hpos : ∀ k, ∀ a ∈ suffixChars k, (a != '.') = true := fun k a ha =>
    bne_iff_ne.mpr fun heq => (suffixChars_plain k).1 (heq ▸ ha)
  rw [List.takeWhile_append_of_pos (hpos i), List.takeWhile_append_of_pos (hpos j)] at hdots
  simp only [List.takeWhile_cons, bne_self_eq_false, Bool.false_eq_true, if_false,
    List.append_nil] at hdots
  exact suffixChars_injective hdots

/-! ### The search, with its questions written down -/

/-- The search for a free candidate, with `taken` answering in a monad: the candidates from the
`n`-th on are asked about in turn, at most `bound` of them, and the first not taken is the
answer; when all `bound` are taken, the next candidate is the answer without a question. -/
def search {m : Type → Type} [Monad m] (root stem ext : String) (taken : String → m Bool) :
    Nat → Nat → m String
  | 0, n => pure (candidate root stem ext n)
  | bound + 1, n => do
    if ← taken (candidate root stem ext n) then search root stem ext taken bound (n + 1)
    else pure (candidate root stem ext n)

/-- Answer whether a path is taken, writing the question down. -/
def recordQuestion (taken : String → Bool) (p : String) : StateM (List String) Bool :=
  modifyGet fun questions => (taken p, questions ++ [p])

/-- The candidates the search for a free one asks about, in order. -/
def asked (root stem ext : String) (taken : String → Bool) (bound n : Nat) : List String :=
  ((search root stem ext (recordQuestion taken) bound n).run []).2

/-- Writing the questions down changes no answer: the search answers as the router's does. -/
theorem search_recorded_answer (taken : String → Bool) (bound n : Nat) (questions : List String) :
    ((search root stem ext (recordQuestion taken) bound n).run questions).1 =
      firstFree root stem ext taken bound n := by
  induction bound generalizing n questions with
  | zero => rfl
  | succ bound ih =>
    rw [firstFree]
    cases ht : taken (candidate root stem ext n) with
    | true =>
      simp only [search, recordQuestion, StateT.run_bind, StateT.run_modifyGet, pure_bind, ht,
        if_true]
      exact ih (n + 1) _
    | false =>
      simp only [search, recordQuestion, StateT.run_bind, StateT.run_modifyGet, pure_bind, ht,
        Bool.false_eq_true, if_false, StateT.run_pure]
      rfl

/-- Asked about candidates from the `n`-th on, when the `k`-th is the first not taken and at most
`bound` questions may be asked, the search asks about the `n`-th up to the `k`-th in order, as
many of them as it may. -/
theorem search_recorded (taken : String → Bool) {n k : Nat} (hnk : n ≤ k)
    (hbefore : ∀ j, n ≤ j → j < k → taken (candidate root stem ext j) = true)
    (hfree : taken (candidate root stem ext k) = false) (bound : Nat) (hbound : k - n ≤ bound)
    (questions : List String) :
    (search root stem ext (recordQuestion taken) bound n).run questions =
      (candidate root stem ext k,
        questions ++ ((List.range' n (k - n + 1)).map (candidate root stem ext)).take bound) := by
  induction bound generalizing n questions with
  | zero =>
    have hk : k = n := by omega
    subst hk
    simp only [search, StateT.run_pure, List.take_zero, List.append_nil]
    rfl
  | succ bound ih =>
    rcases Nat.eq_or_lt_of_le hnk with rfl | hlt
    · simp only [search, recordQuestion, StateT.run_bind, StateT.run_modifyGet, pure_bind, hfree,
        Bool.false_eq_true, if_false, StateT.run_pure, Nat.sub_self, Nat.zero_add, List.range'_one,
        List.map_singleton, List.take_succ_cons, List.take_nil]
      rfl
    · have ht := hbefore n le_rfl hlt
      have hrange : List.range' n (k - n + 1) = n :: List.range' (n + 1) (k - (n + 1) + 1) := by
        rw [show k - n + 1 = (k - (n + 1) + 1) + 1 by omega, List.range'_succ]
      simp only [search, recordQuestion, StateT.run_bind, StateT.run_modifyGet, pure_bind, ht,
        if_true]
      rw [ih hlt (fun j hj hjk => hbefore j (by omega) hjk) (by omega), hrange, List.map_cons,
        List.take_succ_cons, List.append_assoc, List.singleton_append]

/-! ### The least free candidate -/

/-- Candidates taken only by paths of a finite set `T` are at most `|T|` among the first `k`:
each is the same path as a member of `T`, and no two of them are the same path. -/
theorem card_taken_le (h : SafeStem stem) {taken : String → Bool} {T : Finset String}
    (hT : ∀ p, taken p = true → ∃ t ∈ T, Path.same p t = true) {k : Nat}
    (hk : ∀ j < k, taken (candidate root stem ext j) = true) : k ≤ T.card := by
  let key := fun j => Path.components (candidate root stem ext j)
  have hmaps : Set.MapsTo key (Finset.range k : Set Nat) (T.image Path.components : Set _) := by
    intro j hj
    obtain ⟨t, ht, hsame⟩ := hT _ (hk j (Finset.mem_range.mp hj))
    rw [Path.same_eq, decide_eq_true_eq] at hsame
    exact Finset.mem_image.mpr ⟨t, ht, hsame.symm⟩
  have hinj : Set.InjOn key (Finset.range k : Set Nat) := fun i _ j _ hij =>
    eq_of_same_candidate h (by rw [Path.same_eq, decide_eq_true_eq]; exact hij)
  calc k = (Finset.range k).card := (Finset.card_range k).symm
    _ ≤ (T.image Path.components).card := Finset.card_le_card_of_injOn key hmaps hinj
    _ ≤ T.card := Finset.card_image_le

/-- Among the first `|T| + 1` candidates one is free; the first free one comes after taken ones
only. -/
theorem exists_least_free (h : SafeStem stem) {taken : String → Bool} {T : Finset String}
    (hT : ∀ p, taken p = true → ∃ t ∈ T, Path.same p t = true) :
    ∃ k ≤ T.card, taken (candidate root stem ext k) = false ∧
      ∀ j < k, taken (candidate root stem ext j) = true := by
  have hex : ∃ k, taken (candidate root stem ext k) = false := by
    by_contra hall
    simp only [not_exists, Bool.not_eq_false] at hall
    have hle : T.card + 1 ≤ T.card := card_taken_le h hT fun j _ => hall j
    omega
  have hbefore : ∀ j < Nat.find hex, taken (candidate root stem ext j) = true := fun j hj => by
    simpa using Nat.find_min hex hj
  exact ⟨Nat.find hex, card_taken_le h hT hbefore, Nat.find_spec hex, hbefore⟩

/-- Path generation ends at the first candidate not taken, when the paths taken lie in a finite
set `T` and the search may ask `|T|` questions or more. The candidates are pairwise different
paths; the answer is the `k`-th with `k ≤ |T|`, not taken, after taken ones only; the search asks
about those candidates and the answer only, in order, so at most `|T| + 1` questions; and the
suffixes it writes stay below `2 ^ 32` while `|T|` does. -/
theorem generate_least_free (root title ext : String) (taken : String → Bool) (T : Finset String)
    (hT : ∀ p, taken p = true → ∃ t ∈ T, Path.same p t = true) (bound : Nat)
    (hbound : T.card ≤ bound) :
    (∀ i j, Path.same (candidate root (sanitize title) ext i)
        (candidate root (sanitize title) ext j) = true → i = j) ∧
    ∃ k ≤ T.card,
      generate root title ext taken bound = candidate root (sanitize title) ext k ∧
      taken (candidate root (sanitize title) ext k) = false ∧
      (∀ j < k, taken (candidate root (sanitize title) ext j) = true) ∧
      asked root (sanitize title) ext taken bound 0 =
        ((List.range (k + 1)).map (candidate root (sanitize title) ext)).take bound ∧
      (asked root (sanitize title) ext taken bound 0).length ≤ T.card + 1 ∧
      (T.card < 2 ^ 32 → k < 2 ^ 32) := by
  have hsafe := sanitize_safe title
  obtain ⟨k, hkT, hfree, hbefore⟩ : ∃ k ≤ T.card,
      taken (candidate root (sanitize title) ext k) = false ∧
        ∀ j < k, taken (candidate root (sanitize title) ext j) = true :=
    exists_least_free hsafe hT
  have hrun := search_recorded taken (Nat.zero_le k) (fun j _ hj => hbefore j hj) hfree bound
    (by omega) []
  rw [List.nil_append, Nat.sub_zero, ← List.range_eq_range'] at hrun
  have hasked : asked root (sanitize title) ext taken bound 0 =
      ((List.range (k + 1)).map (candidate root (sanitize title) ext)).take bound := by
    rw [asked, hrun]
  have hanswer : generate root title ext taken bound = candidate root (sanitize title) ext k := by
    rw [generate, ← search_recorded_answer taken bound 0 [], hrun]
  refine ⟨fun i j => eq_of_same_candidate hsafe, k, hkT, hanswer, hfree, hbefore, hasked, ?_,
    fun hT32 => lt_of_le_of_lt hkT hT32⟩
  rw [hasked, List.length_take, List.length_map, List.length_range]
  omega

/-- With `Entry.tid` and `Entry_1.tid` taken under `/r`, the search for a free path for `Entry`
allowed two questions ends at the first free candidate. -/
theorem generate_entry_taken_twice :
    let taken := fun p => ["/r/Entry.tid", "/r/Entry_1.tid"].any (Path.same p)
    let T : Finset String := {"/r/Entry.tid", "/r/Entry_1.tid"}
    let cand := candidate "/r" (sanitize "Entry") "tid"
    (∀ p, taken p = true → ∃ t ∈ T, Path.same p t = true) ∧ T.card ≤ 2 ∧
      (∀ i j, Path.same (cand i) (cand j) = true → i = j) ∧
      ∃ k ≤ T.card,
        generate "/r" "Entry" "tid" taken 2 = cand k ∧ taken (cand k) = false ∧
        (∀ j < k, taken (cand j) = true) ∧
        asked "/r" (sanitize "Entry") "tid" taken 2 0 = ((List.range (k + 1)).map cand).take 2 ∧
        (asked "/r" (sanitize "Entry") "tid" taken 2 0).length ≤ T.card + 1 ∧
        (T.card < 2 ^ 32 → k < 2 ^ 32) := by
  intro taken T cand
  have hT : ∀ p, taken p = true → ∃ t ∈ T, Path.same p t = true := by
    intro p hp
    obtain ⟨t, ht, hs⟩ := List.any_eq_true.mp hp
    exact ⟨t, by simpa [T] using ht, hs⟩
  have hcard : T.card ≤ 2 := Finset.card_le_two
  exact ⟨hT, hcard, generate_least_free "/r" "Entry" "tid" taken T hT 2 hcard⟩

end FileName

end WikiSync
