import WikiSync.Proofs.Path.Strip
import WikiSync.Route.Basic

/-!
# A router gives a placed document its path again

A save asks the router for the path of a document's primary file (`Router.targetPath`). The
router keeps the current file while its folder lies under the root of the document's route and it
has the wanted extension; otherwise it gives the path it remembers for the title, while that path
lies under the root, has the extension and is free; otherwise it generates a free path and
remembers it.

Whatever the router answers, it answers again: asked once more for a document of the same title
and the same route root, whose current file is at that path, with the path free, it gives the
same path and remembers nothing new (`Router.targetPath_again`). For a generated path this rests
on the test it is read back with: a candidate is a stem and an extension joined to the root, so it
lies under the root and has the extension (`FileName.candidate_fits`), since a stem is never
empty and holds no separator (`FileName.sanitize_plain`) and documents are written with plain
extensions (`encode_extension_plain`). Joining a plain name to a path appends one component
(`Path.components_join`).
-/

namespace WikiSync.Path

/-! ### Joining a name to a path -/

theorem components_eq_head_names (p : String) :
    components p = headComponents p ++ names (slashPieces p.toList) := by
  rw [components_eq_head_append, bodyPieces_eq, names_slashPieces_drop_head]

theorem names_append (ps qs : List String) : names (ps ++ qs) = names ps ++ names qs := by
  simp [names]

theorem slashPieces_append_slash (xs ys : List Char) :
    slashPieces (xs ++ '/' :: ys) = slashPieces xs ++ slashPieces ys := by
  simp [slashPieces, List.splitOn_append_cons_self]

/-- A name without separators, neither blank nor `..`, names itself. -/
theorem names_slashPieces_name {name : String} (hslash : '/' ∉ name.toList)
    (hblank : isBlankPiece name = false) (hpar : name ≠ "..") :
    names (slashPieces name.toList) = [.normal name] := by
  rw [slashPieces, List.splitOn_eq_singleton hslash, List.map_singleton, String.ofList_toList,
    names_cons_named hblank, names_nil, nameOf]
  simp [hpar]

/-- Text after a nonempty path keeps its head, unless the path is `.` and the text does not
start a new piece. -/
theorem headComponents_append {p q : String} (hp : p.toList ≠ [])
    (hdot : p.toList = ['.'] → q.toList.head? = some '/') :
    headComponents (p ++ q) = headComponents p := by
  rw [headComponents_eq, headComponents_eq, String.toList_append]
  rcases hcs : p.toList with _ | ⟨c, _ | ⟨c₂, cs⟩⟩
  · exact absurd hcs hp
  · rw [hcs] at hdot
    by_cases hc : c = '.'
    · subst hc
      rcases hq : q.toList with _ | ⟨x, q'⟩
      · simp [hq] at hdot
      · have hx : x = '/' := by simpa [hq] using hdot
        simp [hx]
    · simp [hc, Ne.symm hc]
  · simp

theorem isAbsolute_eq_false {name : String} (hslash : '/' ∉ name.toList) :
    isAbsolute name = false := by
  rw [isAbsolute, String.startsWith_string_eq_false_iff]
  intro hpre
  exact hslash (hpre.subset (by simp))

/-- Joining a plain name to a path appends the name's component. -/
theorem components_join {root name : String} (hslash : '/' ∉ name.toList)
    (hblank : isBlankPiece name = false) (hpar : name ≠ "..") :
    components (join root name) = components root ++ [.normal name] := by
  have hname := names_slashPieces_name hslash hblank hpar
  have hnil : name.toList ≠ [] := fun h => by
    have hb := (isBlankPiece_ofList name.toList).mpr (.inl h)
    rw [String.ofList_toList, hblank] at hb
    cases hb
  have hhead : headComponents name = [] := by
    rw [headComponents_eq]
    have hdot : name.toList ≠ ['.'] := fun h => by
      have hb := (isBlankPiece_ofList name.toList).mpr (.inr h)
      rw [String.ofList_toList, hblank] at hb
      cases hb
    have hpre : ∀ cs : List Char, '/' ∈ cs → ¬ cs <+: name.toList :=
      fun cs hc hpre => hslash (hpre.subset hc)
    simp [hpre, hdot]
  rw [join, isAbsolute_eq_false hslash]
  simp only [Bool.false_eq_true, if_false, Bool.or_eq_true]
  split
  · rename_i hroot
    rcases hroot with hempty | hend
    · rw [String.isEmpty_iff.mp hempty, String.empty_append, components_eq_head_names, hhead,
        hname]
      rfl
    · obtain ⟨A, hA⟩ : ∃ A, root.toList = A ++ ['/'] := by
        simp only [← String.endsWith_toSlice, String.Slice.endsWith_string_iff,
          String.copy_toSlice] at hend
        obtain ⟨A, hA⟩ := hend
        exact ⟨A, hA.symm⟩
      have hne : root.toList ≠ [] := by simp [hA]
      have hdot : root.toList = ['.'] → name.toList.head? = some '/' := by
        intro h
        rw [hA] at h
        simpa using congrArg List.getLast? h
      rw [components_eq_head_names, components_eq_head_names, headComponents_append hne hdot,
        String.toList_append, hA, List.append_assoc, List.singleton_append,
        slashPieces_append_slash, slashPieces_append_slash, names_append, names_append, hname,
        slashPieces_nil, names_cons_blank isBlankPiece_empty, names_nil, List.append_nil,
        List.append_assoc]
  · rename_i hroot
    have hne : root.toList ≠ [] := by
      intro h
      exact hroot (.inl (String.isEmpty_iff.mpr (String.toList_inj.mp (by simpa using h))))
    have hdot : root.toList = ['.'] → ("/" ++ name).toList.head? = some '/' := fun _ => by
      simp
    rw [String.append_assoc, components_eq_head_names, components_eq_head_names,
      headComponents_append hne hdot, String.toList_append, String.toList_append]
    rw [show "/".toList = ['/'] from rfl, List.singleton_append, slashPieces_append_slash,
      names_append, hname, List.append_assoc]

/-- A name split at its last dot, when the part after the dot holds no dot. -/
theorem splitName_dot {stem ext : String} (hstem : stem ≠ "") (hext : '.' ∉ ext.toList)
    (hpar : stem ++ "." ++ ext ≠ "..") : splitName (stem ++ "." ++ ext) = (stem, some ext) := by
  have hS : stem.toList ≠ [] := fun h => hstem (String.toList_inj.mp (by simpa using h))
  have hcs : (stem ++ "." ++ ext).toList = stem.toList ++ '.' :: ext.toList := by simp
  have hfind : (stem ++ "." ++ ext).toList.reverse.findIdx? (· == '.') =
      some ext.toList.length := by
    have hrev : (stem ++ "." ++ ext).toList.reverse =
        ext.toList.reverse ++ '.' :: stem.toList.reverse := by
      rw [hcs]
      simp
    have hnone : ext.toList.reverse.findIdx? (· == '.') = none :=
      List.findIdx?_eq_none_iff.mpr fun c hc => by
        rw [List.mem_reverse] at hc
        exact beq_eq_false_iff_ne.mpr fun h => hext (h ▸ hc)
    rw [hrev, List.findIdx?_append, hnone]
    simp [List.findIdx?_cons]
  have hdot : (stem ++ "." ++ ext).toList.length - 1 - ext.toList.length = stem.toList.length := by
    rw [hcs]
    simp only [List.length_append, List.length_cons]
    omega
  have hpos : stem.toList.length ≠ 0 := fun h => hS (List.eq_nil_of_length_eq_zero h)
  rw [splitName, if_neg (by simpa using hpar)]
  dsimp only
  rw [hfind]
  dsimp only
  have hdrop : (stem.toList ++ '.' :: ext.toList).drop (stem.toList.length + 1) = ext.toList := by
    rw [← List.singleton_append, ← List.append_assoc]
    exact List.drop_left' (by simp)
  rw [hdot, if_neg (by rw [beq_iff_eq]; exact hpos), hcs, List.take_left, hdrop,
    String.ofList_toList, String.ofList_toList]

/-- A name made of a stem and an extension, neither empty nor holding a separator, is a plain
name: it holds no separator, is not blank and is not `..`. -/
theorem dotName_plain {stem ext : String} (hstem : stem.toList ≠ []) (hext : ext.toList ≠ [])
    (hs : '/' ∉ stem.toList) (he : '/' ∉ ext.toList) :
    '/' ∉ (stem ++ "." ++ ext).toList ∧ isBlankPiece (stem ++ "." ++ ext) = false ∧
      stem ++ "." ++ ext ≠ ".." := by
  have hcs : (stem ++ "." ++ ext).toList = stem.toList ++ '.' :: ext.toList := by simp
  have hlen : 3 ≤ (stem ++ "." ++ ext).toList.length := by
    rw [hcs, List.length_append, List.length_cons]
    have h₁ := List.length_pos_iff.mpr hstem
    have h₂ := List.length_pos_iff.mpr hext
    omega
  refine ⟨by simp [hcs, hs, he], ?_, fun h => by simp [h] at hlen⟩
  cases hb : isBlankPiece (stem ++ "." ++ ext) with
  | false => rfl
  | true =>
    rw [← String.ofList_toList (s := stem ++ "." ++ ext), isBlankPiece_ofList] at hb
    rcases hb with hb | hb <;> simp [hb] at hlen

/-- The extension of a stem and an extension joined to any path. -/
theorem extension?_join_dot (root : String) {stem ext : String} (hstem : stem.toList ≠ [])
    (hext : ext.toList ≠ []) (hs : '/' ∉ stem.toList) (he : '/' ∉ ext.toList)
    (hdot : '.' ∉ ext.toList) : extension? (join root (stem ++ "." ++ ext)) = some ext := by
  obtain ⟨hslash, hblank, hpar⟩ := dotName_plain hstem hext hs he
  have hne : stem ≠ "" := fun h => hstem (by simp [h])
  rw [extension?, fileName?, components_join hslash hblank hpar, List.getLast?_append]
  simp [splitName_dot hne hdot hpar]

/-- A path joined with a plain name lies under the path. -/
theorem startsWith_join (root : String) {name : String} (hslash : '/' ∉ name.toList)
    (hblank : isBlankPiece name = false) (hpar : name ≠ "..") :
    startsWith (join root name) root = true := by
  rw [startsWith, components_join hslash hblank hpar]
  exact List.isPrefixOf_iff_prefix.mpr (List.prefix_append _ _)

end WikiSync.Path

namespace WikiSync.FileName

/-! ### Generated paths -/

/-- A stem is never empty and never holds a separator. -/
theorem sanitize_plain (title : String) :
    (sanitize title).toList ≠ [] ∧ '/' ∉ (sanitize title).toList := by
  unfold sanitize
  dsimp only
  generalize hcs₀ : (title.toList.map fun c =>
    if forbidden.contains c || Text.isControl c then '_' else c).take maxStemChars = cs₀
  have h₀ : '/' ∉ cs₀ := by
    rw [← hcs₀]
    intro h
    obtain ⟨c, -, hc⟩ := List.mem_map.mp (List.mem_of_mem_take h)
    split at hc
    · cases hc
    · rename_i hkeep
      subst hc
      exact hkeep (by decide)
  generalize hcs : ((cs₀.dropWhile trimmed).reverse.dropWhile trimmed).reverse = cs
  have hslash : '/' ∉ cs := by
    rw [← hcs, List.mem_reverse]
    intro h
    have h₁ := (List.dropWhile_suffix trimmed).subset h
    rw [List.mem_reverse] at h₁
    exact h₀ ((List.dropWhile_suffix trimmed).subset h₁)
  split
  · decide
  · rename_i hne
    have hne' : cs ≠ [] := fun h => hne (by simp [h])
    split
    · simp [hslash]
    · simp [hne', hslash]

/-- The search for a free path answers one of the candidates. -/
theorem firstFree_candidate (root stem ext : String) (taken : String → Bool) (fuel n : Nat) :
    ∃ m, firstFree root stem ext taken fuel n = candidate root stem ext m := by
  induction fuel generalizing n with
  | zero => exact ⟨n, rfl⟩
  | succ fuel ih =>
    rw [firstFree]
    split
    · exact ih (n + 1)
    · exact ⟨n, rfl⟩

variable {ext : String}

/-- Every candidate for a stem lies under its root and has the extension asked for, when the
extension is a plain one. -/
theorem candidate_fits (root : String) {stem : String} (hstem : stem.toList ≠ [])
    (hs : '/' ∉ stem.toList) (hext : ext.toList ≠ []) (he : '/' ∉ ext.toList)
    (hdot : '.' ∉ ext.toList) (n : Nat) :
    Path.startsWith (candidate root stem ext n) root = true ∧
      Router.hasExtension (candidate root stem ext n) ext = true := by
  have hfits : ∀ s : String, s.toList ≠ [] → '/' ∉ s.toList →
      Path.startsWith (Path.join root (s ++ "." ++ ext)) root = true ∧
        Router.hasExtension (Path.join root (s ++ "." ++ ext)) ext = true := by
    intro s hsne hss
    obtain ⟨hslash, hblank, hpar⟩ := Path.dotName_plain hsne hext hss he
    refine ⟨Path.startsWith_join root hslash hblank hpar, ?_⟩
    rw [Router.hasExtension, Path.extension?_join_dot root hsne hext hss he hdot]
    simp
  unfold candidate
  split
  · exact hfits stem hstem hs
  · have hdigits : '/' ∉ Nat.toDigits 10 n := fun h =>
      absurd (Nat.isDigit_of_mem_toDigits (by decide) (by decide) h) (by decide)
    exact hfits _ (by simp [hstem]) (by simp [hs, hdigits])

/-- A generated path lies under its root and has the extension asked for. -/
theorem generate_fits (root title : String) (taken : String → Bool) (bound : Nat)
    (hext : ext.toList ≠ []) (he : '/' ∉ ext.toList) (hdot : '.' ∉ ext.toList) :
    Path.startsWith (generate root title ext taken bound) root = true ∧
      Router.hasExtension (generate root title ext taken bound) ext = true := by
  obtain ⟨m, hm⟩ := firstFree_candidate root (sanitize title) ext taken bound 0
  obtain ⟨hne, hs⟩ := sanitize_plain title
  rw [generate, hm]
  exact candidate_fits root hne hs hext he hdot m

end WikiSync.FileName

namespace WikiSync

/-- A document is written with a plain extension: not empty, with no dot and no separator. -/
theorem encode_extension_plain (d : Document) :
    (encode d).extension.toList ≠ [] ∧ '.' ∉ (encode d).extension.toList ∧
      '/' ∉ (encode d).extension.toList := by
  have hplain : ∀ e ∈ "json" :: "tid" :: rawTypes.map (·.2),
      e.toList ≠ [] ∧ '.' ∉ e.toList ∧ '/' ∉ e.toList := by
    decide
  apply hplain
  unfold encode
  dsimp only
  split
  · exact List.mem_cons_self
  · split
    · exact List.mem_cons_of_mem _ List.mem_cons_self
    · split
      · rename_i ext hext
        unfold extensionForType at hext
        obtain ⟨e, he, rfl⟩ := Option.map_eq_some_iff.mp hext
        exact List.mem_cons_of_mem _ (List.mem_cons_of_mem _
          (List.mem_map_of_mem (List.mem_of_find?_eq_some he)))
      · exact List.mem_cons_self

namespace Router

/-! ### Asking the router again -/

/-- The router a search for a target leaves resolves every document as before: only the paths it
remembers change. -/
theorem targetPath_resolve (r : Router) (d : Document) (current : Option FileRecord)
    (ext : String) (taken : String → Bool) (bound : Nat) (d' : Document) :
    (r.targetPath d current ext taken bound).1.resolve d' = r.resolve d' := by
  unfold targetPath
  dsimp only
  split
  · rfl
  · split
    · split <;> rfl
    · rfl

/-- The target depends on the document only through its title and the root of its route, and on
the current record only through its path. -/
theorem targetPath_congr (r : Router) {d d₂ : Document} {c c₂ : FileRecord}
    (hroot : (r.resolve d₂).rootDirectory = (r.resolve d).rootDirectory)
    (htitle : d₂.title = d.title) (hpath : c₂.absolutePath = c.absolutePath) (ext : String)
    (taken : String → Bool) (bound : Nat) :
    r.targetPath d₂ (some c₂) ext taken bound = r.targetPath d (some c) ext taken bound := by
  simp only [targetPath, hroot, htitle, hpath]

/-- A path the router remembers for the title, still under the root, with the extension and free,
is the target for a document whose current file is there. -/
theorem targetPath_remembered (r : Router) (d : Document) {c : FileRecord} {ext p : String}
    {taken : String → Bool} (bound : Nat)
    (hcache : (r.lastGenerated.find? (·.1 == d.title)).map (·.2) = some p)
    (hfits : Path.startsWith p (r.resolve d).rootDirectory = true ∧ hasExtension p ext = true)
    (hc : c.absolutePath = p) (hfree : taken p = false) :
    r.targetPath d (some c) ext taken bound = (r, p) := by
  unfold targetPath
  dsimp only
  split
  · rename_i q hkeep
    simp only [Option.ite_none_right_eq_some, Option.some.injEq] at hkeep
    rw [← hkeep.2, hc]
  · rw [hcache]
    dsimp only
    rw [if_pos (by simp [hfits, hfree])]

/-- A title remembered last, after no other path for it, is remembered at that path. -/
theorem remembered_append {l : List (String × String)} {t p : String}
    (h : l.find? (·.1 == t) = none) : ((l ++ [(t, p)]).find? (·.1 == t)).map (·.2) = some p := by
  rw [List.find?_append, h]
  simp

theorem forget_find? (r : Router) (t : String) :
    (r.forget t).lastGenerated.find? (·.1 == t) = none :=
  List.find?_eq_none.mpr fun e he => by simpa using (List.mem_filter.mp he).2

/-- Where a target comes from: the current file, which the same test keeps whatever is taken and
however far the search may go; or a path that the router now remembers for the title, which lies
under the root and has the extension. -/
theorem targetPath_cases (r : Router) (d : Document) (cur : Option FileRecord) {ext : String}
    (taken : String → Bool) (bound : Nat) (hext : ext.toList ≠ []) (he : '/' ∉ ext.toList)
    (hdot : '.' ∉ ext.toList) :
    (∃ c₀, cur = some c₀ ∧ r.targetPath d cur ext taken bound = (r, c₀.absolutePath) ∧
      ∀ (c : FileRecord) (taken' : String → Bool) (bound' : Nat),
        c.absolutePath = c₀.absolutePath →
          r.targetPath d (some c) ext taken' bound' = (r, c₀.absolutePath)) ∨
    ((((r.targetPath d cur ext taken bound).1.lastGenerated.find? (·.1 == d.title)).map (·.2) =
        some (r.targetPath d cur ext taken bound).2) ∧
      Path.startsWith (r.targetPath d cur ext taken bound).2 (r.resolve d).rootDirectory = true ∧
      hasExtension (r.targetPath d cur ext taken bound).2 ext = true) := by
  unfold targetPath
  dsimp only
  split
  · rename_i p hkeep
    cases cur with
    | none => cases hkeep
    | some c₀ =>
      left
      simp only [Option.ite_none_right_eq_some, Option.some.injEq] at hkeep
      obtain ⟨htest, hp⟩ := hkeep
      refine ⟨c₀, rfl, by rw [hp], fun c taken' bound' hc => ?_⟩
      rw [hc, if_pos htest]
  · right
    have hgen := FileName.generate_fits (r.resolve d).rootDirectory d.title taken bound hext he hdot
    split
    · rename_i p hcache
      split
      · rename_i hfits
        simp only [Bool.and_eq_true, Bool.not_eq_true'] at hfits
        exact ⟨hcache, hfits.1.1, hfits.1.2⟩
      · exact ⟨remembered_append (forget_find? r d.title), hgen⟩
    · rename_i hcache
      exact ⟨remembered_append (Option.map_eq_none_iff.mp hcache), hgen⟩

/-- Asked again for a document it has just placed, with the same title and route root, whose
current file is at the placed path, and with that path free, the router gives the same path and
remembers nothing new. -/
theorem targetPath_again (r : Router) {d d₂ : Document} (cur : Option FileRecord) {ext : String}
    (taken taken₂ : String → Bool) (bound bound₂ : Nat) {c : FileRecord}
    (hext : ext.toList ≠ []) (he : '/' ∉ ext.toList) (hdot : '.' ∉ ext.toList)
    (hroot : (r.resolve d₂).rootDirectory = (r.resolve d).rootDirectory)
    (htitle : d₂.title = d.title) (hc : c.absolutePath = (r.targetPath d cur ext taken bound).2)
    (hfree : taken₂ (r.targetPath d cur ext taken bound).2 = false) :
    (r.targetPath d cur ext taken bound).1.targetPath d₂ (some c) ext taken₂ bound₂ =
      r.targetPath d cur ext taken bound := by
  have hroot₁ : ((r.targetPath d cur ext taken bound).1.resolve d₂).rootDirectory =
      ((r.targetPath d cur ext taken bound).1.resolve d).rootDirectory := by
    rw [targetPath_resolve, targetPath_resolve, hroot]
  rw [targetPath_congr _ hroot₁ htitle rfl]
  rcases targetPath_cases r d cur taken bound hext he hdot with
    ⟨c₀, rfl, hres, hagain⟩ | ⟨hcache, hunder, hhas⟩
  · rw [hres] at hc ⊢
    exact hagain c taken₂ bound₂ hc
  · rw [← targetPath_resolve r d cur ext taken bound d] at hunder
    exact targetPath_remembered _ d bound₂ hcache ⟨hunder, hhas⟩ hc hfree

end Router

end WikiSync
