import WikiSync.Proofs.Route.Reuse
import WikiSync.Proofs.Sync.Touched

/-!
# Where the router puts a document

Asked for the backing path of a document (`Router.targetPath`), the router answers in one of three
ways. It keeps the current file when the file's folder lies under the root of the document's route
and the file has the wanted extension; otherwise it gives the path it remembers for the title,
when that path still lies under the root, has the extension and is free; otherwise it forgets that
path, generates a free one from the title's stem, `root/stem.ext` or `root/stem_k.ext`, and
remembers it.

`Router.targetPath_places` states all of this at once, for any router, document, current
record and plain extension, when only finitely many paths are taken and the search may try at
least as many candidates as there are taken paths: the answer lies under the root and has the
extension; it is the current file whenever that file fits; otherwise it is free, and it is the
remembered path or a candidate; and asking again with the same arguments gives the same answer
and leaves the router as the first answer left it.

Two facts carry it. A file's folder names all of the file's components but the last
(`Path.components_parent?`), so a file whose folder lies under the root lies under it too.
The candidates are pairwise different (`FileName.candidate_injective`), so when fewer paths are
taken than the candidates tried, one of them is free (`FileName.generate_free`).
-/

namespace WikiSync

namespace Path

/-- A path written as its head followed by pieces that begin its body, the last of them naming
something, has the head's components followed by what the pieces name. -/
theorem components_head_intercalate {p : String} {qs : List String} (hpre : qs <+: bodyPieces p)
    (hlast : ∀ q ∈ qs.getLast?, isBlankPiece q = false) :
    components (String.ofList (p.toList.take (headLength p)) ++ "/".intercalate qs) =
      headComponents p ++ names qs := by
  have hq : ∀ q ∈ qs, '/' ∉ q.toList := fun q hq =>
    not_mem_of_mem_bodyPieces p q (hpre.subset hq)
  rcases Nat.le_one_iff_eq_zero_or_eq_one.mp (headLength_le_one p) with h | h
  · have hhead : headComponents p = [] :=
      List.eq_nil_of_length_eq_zero (by rw [headComponents_length, h])
    rw [h, List.take_zero, hhead, List.nil_append]
    rcases qs with _ | ⟨q, qs⟩
    · rfl
    · have hp : p.toList ≠ [] := by
        intro hp
        have hbody : bodyPieces p = [""] := by rw [bodyPieces_eq, hp, List.drop_nil, slashPieces_nil]
        rw [hbody] at hpre
        obtain ⟨t, ht⟩ := hpre
        obtain ⟨rfl, rfl, -⟩ : q = "" ∧ qs = [] ∧ t = [] := by simpa using ht
        simp at hlast
      have hfirst := head?_bodyPieces_of_headLength_eq_zero h hp
      rw [String.ofList_nil, String.empty_append]
      refine components_intercalate hq fun q' hq' => hfirst q' ?_
      exact head?_of_prefixOf hpre q' hq'
  · have hcond := (headLength_eq_one_iff p).mp h
    obtain ⟨c, cs, hcs⟩ : ∃ c cs, p.toList = c :: cs := by
      rcases hp : p.toList with _ | ⟨c, cs⟩
      · simp [hp] at hcond
      · exact ⟨c, cs, rfl⟩
    have hbody : bodyPieces p = slashPieces cs := by
      rw [bodyPieces_eq, h, hcs, List.drop_one, List.tail_cons]
    rw [hbody] at hpre
    generalize ht : String.ofList (p.toList.take (headLength p)) ++ "/".intercalate qs = t
    have hr : t.toList = c :: ("/".intercalate qs).toList := by
      rw [← ht, String.toList_append, h, hcs]
      simp
    have hsep : c = '.' → ("/".intercalate qs).toList = [] ∨
        ['/'] <+: ("/".intercalate qs).toList := by
      rintro rfl
      rw [hcs] at hcond
      have hcs' : cs = [] ∨ ['/'] <+: cs := by
        simp only [List.cons_prefix_cons, List.cons.injEq, List.nil_prefix, and_true] at hcond
        rcases hcond with hslash | ⟨-, hnil⟩ | ⟨-, hslash⟩
        · cases hslash
        · exact .inl hnil
        · exact .inr hslash
      rcases hcs' with rfl | ⟨cs, rfl⟩
      · rw [slashPieces_nil] at hpre
        rcases List.prefix_cons_iff.mp hpre with rfl | ⟨t', rfl, hrest⟩
        · exact .inl rfl
        · simp [List.prefix_nil.mp hrest] at hlast
      · rw [List.singleton_append, slashPieces_slash] at hpre
        rcases List.prefix_cons_iff.mp hpre with rfl | ⟨t', rfl, -⟩
        · exact .inl rfl
        · exact toList_intercalate_blank_cons t'
    have hhead : headComponents t = headComponents p := by
      rw [headComponents_eq, headComponents_eq, hr, hcs]
      rw [hcs] at hcond
      by_cases hc : c = '/'
      · simp [hc]
      · have hdot : c = '.' := by
          simp only [List.cons_prefix_cons, List.cons.injEq, List.nil_prefix, and_true] at hcond
          rcases hcond with hslash | ⟨hdot, -⟩ | ⟨hdot, -⟩
          · exact absurd hslash.symm hc
          · exact hdot
          · exact hdot.symm
        subst hdot
        rcases hsep rfl with hx | hx <;> rcases (hcond : _) with hy | hy | hy <;> simp_all
    have hlen : headLength t = 1 := by
      rw [← headComponents_length, hhead, headComponents_length, h]
    rw [components_eq_head_append, hhead, bodyPieces_eq, hlen, hr, List.drop_one, List.tail_cons,
      names_slashPieces_intercalate hq]

/-- A file's folder names all of the file's components but the last. -/
theorem components_parent? {p q : String} (h : parent? p = some q) :
    ∃ c, components p = components q ++ [c] := by
  unfold parent? at h
  split at h
  · cases h
  · cases h
  · rename_i c _ hlast
    dsimp only at h
    split at h
    · rename_i hblank
      cases h
      have hnames : names (bodyPieces p) = [] := by
        rw [← List.reverse_eq_nil_iff, ← names_reverse, ← names_dropWhile, hblank, names_nil]
      have hcomp : components p = headComponents p := by
        rw [components_eq_head_append, hnames, List.append_nil]
      refine ⟨c, ?_⟩
      have hshort : (components p).length ≤ 1 := by
        rw [hcomp, headComponents_length]
        exact headLength_le_one p
      rcases hcp : components p with _ | ⟨c₀, _ | ⟨c₁, cs⟩⟩
      · simp [hcp] at hlast
      · simp only [hcp, List.getLast?_singleton, Option.some.injEq] at hlast
        rw [hlast]
        rfl
      · simp [hcp] at hshort
    · rename_i x before hsplit
      cases h
      have hx : isBlankPiece x = false := head?_dropWhile_blank _ x (by rw [hsplit]; rfl)
      have hsuffix : before.dropWhile isBlankPiece <:+ (bodyPieces p).reverse :=
        (List.dropWhile_suffix _).trans
          ((List.suffix_cons x before).trans (hsplit ▸ List.dropWhile_suffix _))
      have hpre : (before.dropWhile isBlankPiece).reverse <+: bodyPieces p := by
        rw [← List.reverse_reverse (bodyPieces p), List.reverse_prefix]
        exact hsuffix
      have hend : ∀ q ∈ (before.dropWhile isBlankPiece).reverse.getLast?,
          isBlankPiece q = false := by
        rw [List.getLast?_reverse]
        exact head?_dropWhile_blank before
      have hbody : names (bodyPieces p) =
          names (before.dropWhile isBlankPiece).reverse ++ [nameOf x] := by
        rw [← List.reverse_reverse (bodyPieces p), names_reverse, ← names_dropWhile, hsplit,
          names_cons_named hx, names_reverse, names_dropWhile, List.reverse_cons]
      refine ⟨nameOf x, ?_⟩
      rw [components_head_intercalate hpre hend, components_eq_head_append, hbody,
        List.append_assoc]

/-- A file whose folder lies under a path lies under it too. -/
theorem startsWith_of_parent? {p dir base : String} (h : parent? p = some dir)
    (hdir : startsWith dir base = true) : startsWith p base = true := by
  obtain ⟨c, hc⟩ := components_parent? h
  rw [startsWith, List.isPrefixOf_iff_prefix] at hdir ⊢
  rw [hc]
  exact hdir.trans (List.prefix_append _ _)

end Path

namespace FileName

/-! ### Candidates are pairwise different -/

/-- Decimal numerals of different numbers differ: reading the digits back gives the number. -/
theorem repr_injective {m n : Nat} (h : Nat.repr m = Nat.repr n) : m = n := by
  have hdigits : Nat.toDigits 10 m = Nat.toDigits 10 n := by
    rw [← Nat.toList_repr, ← Nat.toList_repr, h]
  have hvalue := congrArg (fun ds => Nat.ofDigitChars 10 ds 0) hdigits
  simpa only [Nat.ofDigitChars_ten_toDigits] using hvalue

variable {ext : String}

/-- A candidate names one more component under its root: the stem, its suffix and the
extension. -/
theorem components_candidate (root : String) {stem : String} (hstem : stem.toList ≠ [])
    (hs : '/' ∉ stem.toList) (hext : ext.toList ≠ []) (he : '/' ∉ ext.toList) (n : Nat) :
    Path.components (candidate root stem ext n) = Path.components root ++
      [.normal ((if n = 0 then stem else stem ++ "_" ++ Nat.repr n) ++ "." ++ ext)] := by
  have hdigits : '/' ∉ Nat.toDigits 10 n := fun h =>
    absurd (Nat.isDigit_of_mem_toDigits (by decide) (by decide) h) (by decide)
  have hname : ∀ s : String, s.toList ≠ [] → '/' ∉ s.toList →
      Path.components (Path.join root (s ++ "." ++ ext)) =
        Path.components root ++ [.normal (s ++ "." ++ ext)] := by
    intro s hsne hss
    obtain ⟨hslash, hblank, hpar⟩ := Path.dotName_plain hsne hext hss he
    exact Path.components_join hslash hblank hpar
  unfold candidate
  by_cases hn : n = 0
  · rw [if_pos (by simp [hn]), if_pos hn]
    exact hname stem hstem hs
  · rw [if_neg (by simp [hn]), if_neg hn]
    exact hname _ (by simp [hstem]) (by simp [hs, hdigits])

/-- Different candidates for one stem are different paths. -/
theorem candidate_injective (root : String) {stem : String} (hstem : stem.toList ≠ [])
    (hs : '/' ∉ stem.toList) (hext : ext.toList ≠ []) (he : '/' ∉ ext.toList) :
    Function.Injective (candidate root stem ext) := by
  intro m n h
  have hnames := congrArg Path.components h
  rw [components_candidate root hstem hs hext he, components_candidate root hstem hs hext he,
    List.append_cancel_left_eq, List.singleton_inj, Component.normal.injEq] at hnames
  have hunder : "_".length = 1 := rfl
  by_cases hm : m = 0 <;> by_cases hn : n = 0
  · rw [hm, hn]
  · simp only [hm, hn, if_true, if_false] at hnames
    have hlen := congrArg String.length hnames
    simp only [String.length_append, hunder] at hlen
    omega
  · simp only [hm, hn, if_true, if_false] at hnames
    have hlen := congrArg String.length hnames
    simp only [String.length_append, hunder] at hlen
    omega
  · simp only [hm, hn, if_false] at hnames
    have hchars := congrArg String.toList hnames
    simp only [String.toList_append, List.append_assoc, List.append_cancel_left_eq,
      List.append_cancel_right_eq] at hchars
    exact repr_injective (String.toList_inj.mp hchars)

/-- When no more than `bound` paths are taken, the search finds a free one: the `bound + 1`
candidates it may try are pairwise different, so they cannot all be taken. -/
theorem generate_free (root title : String) {taken : String → Bool} {bound : Nat}
    {S : Finset String} (hext : ext.toList ≠ []) (he : '/' ∉ ext.toList)
    (hS : ∀ p, taken p = true → p ∈ S) (hcard : S.card ≤ bound) :
    taken (generate root title ext taken bound) = false := by
  rcases generate_spec root title ext taken bound with hfree | ⟨hall, heq⟩
  · exact hfree
  · rw [Bool.eq_false_iff]
    intro htaken
    obtain ⟨hne, hs⟩ := sanitize_plain title
    have hmaps : Set.MapsTo (candidate root (sanitize title) ext) (Finset.range (bound + 1)) S := by
      intro n hn
      rw [Finset.coe_range, Set.mem_Iio] at hn
      rcases Nat.lt_succ_iff_lt_or_eq.mp hn with hlt | rfl
      · exact hS _ (hall n hlt)
      · exact hS _ (heq ▸ htaken)
    have hle := Finset.card_le_card_of_injOn _ hmaps
      ((candidate_injective root hne hs hext he).injOn)
    rw [Finset.card_range] at hle
    omega

end FileName

namespace Router

/-! ### The three answers -/

variable (r : Router) (d : Document) (ext : String) (taken : String → Bool) (bound : Nat)

/-- The current file is kept when its folder lies under the root and it has the extension. -/
theorem targetPath_keep {c : FileRecord} {dir : String} (hdir : Path.parent? c.absolutePath = some dir)
    (hunder : Path.startsWith dir (r.resolve d).rootDirectory = true)
    (hext : Path.extension? c.absolutePath = some ext) :
    r.targetPath d (some c) ext taken bound = (r, c.absolutePath) := by
  unfold targetPath
  simp [hdir, hunder, hasExtension, hext]

/-- A current file that is not kept plays no part: the answer is the one for no current file. -/
theorem targetPath_of_not_kept {cur : Option FileRecord}
    (hnot : ∀ c dir, cur = some c → Path.parent? c.absolutePath = some dir →
      Path.startsWith dir (r.resolve d).rootDirectory = true →
        Path.extension? c.absolutePath ≠ some ext) :
    r.targetPath d cur ext taken bound = r.targetPath d none ext taken bound := by
  cases cur with
  | none => rfl
  | some c =>
    unfold targetPath
    dsimp only
    cases hdir : Path.parent? c.absolutePath with
    | none => simp
    | some dir =>
      cases hunder : Path.startsWith dir (r.resolve d).rootDirectory with
      | false => simp [hunder]
      | true => simp [hunder, hasExtension, hnot c dir rfl hdir hunder]

/-- The remembered path is given back, router unchanged, while it lies under the root, has the
extension and is free. -/
theorem targetPath_cached {p : String}
    (hcache : (r.lastGenerated.find? (·.1 == d.title)).map (·.2) = some p)
    (hunder : Path.startsWith p (r.resolve d).rootDirectory = true)
    (hhas : hasExtension p ext = true) (hfree : taken p = false) :
    r.targetPath d none ext taken bound = (r, p) := by
  unfold targetPath
  dsimp only
  rw [hcache]
  dsimp only
  rw [if_pos (by simp [hunder, hhas, hfree])]

/-- With no current file to keep, the answer is free when at most `bound` paths are taken, and it
is the remembered path or a candidate for the title's stem. -/
theorem targetPath_none_free {S : Finset String} (hext : ext.toList ≠ []) (he : '/' ∉ ext.toList)
    (hS : ∀ p, taken p = true → p ∈ S) (hcard : S.card ≤ bound) :
    taken (r.targetPath d none ext taken bound).2 = false ∧
      ((r.lastGenerated.find? (·.1 == d.title)).map (·.2) =
          some (r.targetPath d none ext taken bound).2 ∨
        ∃ k, (r.targetPath d none ext taken bound).2 =
          FileName.candidate (r.resolve d).rootDirectory (FileName.sanitize d.title) ext k) := by
  have hgen := FileName.generate_free (r.resolve d).rootDirectory d.title hext he hS hcard
  obtain ⟨k, hk⟩ := FileName.firstFree_candidate (r.resolve d).rootDirectory
    (FileName.sanitize d.title) ext taken bound 0
  unfold targetPath
  dsimp only
  split
  · rename_i p hcache
    split
    · rename_i hfits
      simp only [Bool.and_eq_true, Bool.not_eq_true'] at hfits
      exact ⟨hfits.2, .inl hcache⟩
    · exact ⟨hgen, .inr ⟨k, hk⟩⟩
  · exact ⟨hgen, .inr ⟨k, hk⟩⟩

/-- With no current file, a free answer is given again, by the router the first answer left. -/
theorem targetPath_none_again (hext : ext.toList ≠ []) (he : '/' ∉ ext.toList)
    (hdot : '.' ∉ ext.toList) (hfree : taken (r.targetPath d none ext taken bound).2 = false) :
    (r.targetPath d none ext taken bound).1.targetPath d none ext taken bound =
      r.targetPath d none ext taken bound := by
  rcases targetPath_cases r d none taken bound hext he hdot with ⟨c₀, hc, -⟩ | ⟨hcache, hunder, hhas⟩
  · cases hc
  · rw [← targetPath_resolve r d none ext taken bound d] at hunder
    rw [targetPath_cached _ d ext taken bound hcache hunder hhas hfree]

end Router

/-- What the router's answer to a request for a backing path satisfies: it lies under the root of
the document's route and has the extension; it is the current file whenever that file's folder
lies under the root and the file has the extension; otherwise it is free, and it is the path
remembered for the title or a candidate for the title's stem; and asking again with the same
arguments, of the router the answer left, gives the same answer and router. -/
structure Router.Places (r : Router) (d : Document) (cur : Option FileRecord) (ext : String)
    (taken : String → Bool) (bound : Nat) : Prop where
  under_root :
    Path.startsWith (r.targetPath d cur ext taken bound).2 (r.resolve d).rootDirectory = true
  extension : Path.extension? (r.targetPath d cur ext taken bound).2 = some ext
  keeps_current : ∀ c dir, cur = some c → Path.parent? c.absolutePath = some dir →
    Path.startsWith dir (r.resolve d).rootDirectory = true →
      Path.extension? c.absolutePath = some ext →
        (r.targetPath d cur ext taken bound).2 = c.absolutePath
  free_otherwise : (∀ c dir, cur = some c → Path.parent? c.absolutePath = some dir →
      Path.startsWith dir (r.resolve d).rootDirectory = true →
        Path.extension? c.absolutePath ≠ some ext) →
    taken (r.targetPath d cur ext taken bound).2 = false ∧
      ((r.lastGenerated.find? (·.1 == d.title)).map (·.2) =
          some (r.targetPath d cur ext taken bound).2 ∨
        ∃ k, (r.targetPath d cur ext taken bound).2 =
          FileName.candidate (r.resolve d).rootDirectory (FileName.sanitize d.title) ext k)
  again : (r.targetPath d cur ext taken bound).1.targetPath d cur ext taken bound =
    r.targetPath d cur ext taken bound

namespace Router

/-- The router places every document as `Router.Places` says, for any router, document and
current record, a plain extension, and finitely many taken paths, no more than the candidates the
search may try. -/
theorem targetPath_places (r : Router) (d : Document) (cur : Option FileRecord) {ext : String}
    (taken : String → Bool) (bound : Nat) (S : Finset String) (hext : ext.toList ≠ [])
    (he : '/' ∉ ext.toList) (hdot : '.' ∉ ext.toList) (hS : ∀ p, taken p = true → p ∈ S)
    (hcard : S.card ≤ bound) : r.Places d cur ext taken bound := by
  by_cases hkeep : ∃ c dir, cur = some c ∧ Path.parent? c.absolutePath = some dir ∧
      Path.startsWith dir (r.resolve d).rootDirectory = true ∧
        Path.extension? c.absolutePath = some ext
  · obtain ⟨c, dir, rfl, hdir, hunder, hce⟩ := hkeep
    have hres := targetPath_keep r d ext taken bound hdir hunder hce
    refine ⟨?_, ?_, ?_, fun hnot => absurd hce (hnot c dir rfl hdir hunder), ?_⟩
    · rw [hres]
      exact Path.startsWith_of_parent? hdir hunder
    · rw [hres]
      exact hce
    · rintro c' dir' hc' - - -
      cases hc'
      rw [hres]
    · rw [hres]
      exact hres
  · simp only [not_exists, not_and] at hkeep
    have hnone := targetPath_of_not_kept r d ext taken bound hkeep
    obtain ⟨hfree, hfrom⟩ := targetPath_none_free r d ext taken bound hext he hS hcard
    obtain ⟨hunder, hhas⟩ := (targetPath_cases r d none taken bound hext he hdot).resolve_left
      (fun ⟨_, hc, _⟩ => by cases hc) |>.2
    refine ⟨?_, ?_, fun c dir hc hdir hunder' hce => absurd hce (hkeep c dir hc hdir hunder'),
      fun _ => hnone ▸ ⟨hfree, hfrom⟩, ?_⟩
    · rw [hnone]
      exact hunder
    · rw [hnone]
      simpa [hasExtension] using hhas
    · have hkeep' : ∀ c dir, cur = some c → Path.parent? c.absolutePath = some dir →
          Path.startsWith dir
            ((r.targetPath d none ext taken bound).1.resolve d).rootDirectory = true →
          Path.extension? c.absolutePath ≠ some ext := by
        rw [targetPath_resolve]
        exact hkeep
      rw [hnone, targetPath_of_not_kept _ d ext taken bound hkeep']
      exact targetPath_none_again r d ext taken bound hext he hdot hfree

/-- A note placed under the default root while its first candidate is taken. -/
theorem targetPath_places_note :
    ("tid".toList ≠ [] ∧ '/' ∉ "tid".toList ∧ '.' ∉ "tid".toList ∧
      (∀ p, (p == "/w/T.tid") = true → p ∈ ({"/w/T.tid"} : Finset String)) ∧
        ({"/w/T.tid"} : Finset String).card ≤ 1) ∧
    Router.Places { defaultRoot := "/w" } (Document.new "T") none "tid" (· == "/w/T.tid") 1 := by
  have hplain : "tid".toList ≠ [] ∧ '/' ∉ "tid".toList ∧ '.' ∉ "tid".toList := by decide
  have hS : ∀ p, (p == "/w/T.tid") = true → p ∈ ({"/w/T.tid"} : Finset String) := by
    intro p hp
    simpa using hp
  have hcard : ({"/w/T.tid"} : Finset String).card ≤ 1 := by simp
  exact ⟨⟨hplain.1, hplain.2.1, hplain.2.2, hS, hcard⟩,
    targetPath_places _ _ none _ 1 _ hplain.1 hplain.2.1 hplain.2.2 hS hcard⟩

end Router

end WikiSync
