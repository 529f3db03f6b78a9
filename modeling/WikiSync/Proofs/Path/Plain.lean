import WikiSync.Proofs.Route.Reuse
import WikiSync.Disk.Basic

/-!
# Plainly written paths

A place of the disk is written as a path by its text, `/` and its names joined with `/`
(`Place.text`). When the place has at least one name and every name is neither empty, `.` nor
`..` and holds no separator (`Place.Plain`), the text is a plain path: read back, it starts at
the root and steps through exactly those names (`Place.ofText_text`), its components are the
root and the names (`Place.components_text`), and two such paths are the same path exactly when
they are the same text.

The text keeps its shape under what the library does with a file's path. Its parent is the text
of the place above (`Place.parent?_text`), a name joined to that parent gives the text back
(`Place.join_text`), the sidecar's path is the text of the place beside it whose last name
carries `.meta` (`Place.sidecarPath_text`), and the file a sidecar describes is the place it was
made from (`Place.primaryForSidecar_sidecarPath`). A file whose extension is not `meta` is
described by no sidecar (`Place.primaryForSidecar_text`).
-/

namespace WikiSync

/-- A name that a plain path may step through: not empty, not `.` or `..`, and without a
separator. -/
structure Path.PlainName (n : String) : Prop where
  ne_empty : n ≠ ""
  ne_dot : n ≠ "."
  ne_dotdot : n ≠ ".."
  no_slash : '/' ∉ n.toList

/-- A place written as a plain path: at least one name, each a plain name. -/
structure Place.Plain (pl : Place) : Prop where
  ne_nil : pl ≠ []
  names : ∀ n ∈ pl, Path.PlainName n

namespace Path

theorem PlainName.isBlankPiece {n : String} (h : PlainName n) : isBlankPiece n = false := by
  simp [Path.isBlankPiece, h.ne_empty, h.ne_dot]

theorem PlainName.nameOf {n : String} (h : PlainName n) : nameOf n = .normal n := by
  simp [Path.nameOf, h.ne_dotdot]

/-- A name with `.meta` after it is still a plain name. -/
theorem PlainName.meta {n : String} (h : PlainName n) : PlainName (n ++ sidecarSuffix) := by
  have hsuffix : sidecarSuffix.toList = ['.', 'm', 'e', 't', 'a'] := rfl
  have hlen : 5 ≤ (n ++ sidecarSuffix).toList.length := by simp [hsuffix]
  refine ⟨fun he => ?_, fun he => ?_, fun he => ?_, ?_⟩ <;> try (rw [he] at hlen; simp at hlen)
  rw [String.toList_append, hsuffix]
  simp [h.no_slash]

/-- Plain names step through themselves. -/
theorem names_of_plain {ns : List String} (h : ∀ n ∈ ns, PlainName n) :
    names ns = ns.map .normal := by
  induction ns with
  | nil => rfl
  | cons n ns ih =>
    have hn := h n List.mem_cons_self
    rw [names_cons_named hn.isBlankPiece, hn.nameOf, ih fun m hm => h m (List.mem_cons_of_mem n hm),
      List.map_cons]

end Path

namespace Place

open WikiSync.Path

variable {pl D : Place} {n : String}

theorem Plain.no_slash (h : pl.Plain) : ∀ m ∈ pl, '/' ∉ m.toList :=
  fun m hm => (h.names m hm).no_slash

/-- The places above the last name of a plain place are plain names too. -/
theorem Plain.init (h : (D ++ [n]).Plain) : (∀ m ∈ D, PlainName m) ∧ PlainName n :=
  ⟨fun m hm => h.names m (List.mem_append_left _ hm),
    h.names n (List.mem_append_right _ List.mem_cons_self)⟩

theorem text_toList (pl : Place) : pl.text.toList = '/' :: ("/".intercalate pl).toList := by
  simp [Place.text]

/-- The pieces of a plain place's text: the blank before the first separator, then its names. -/
theorem slashPieces_text (h : pl.Plain) : slashPieces pl.text.toList = "" :: pl := by
  rw [text_toList, slashPieces_slash, slashPieces_intercalate h.no_slash h.ne_nil]

theorem startsWith_text (pl : Place) : pl.text.startsWith "/" = true :=
  String.startsWith_string_iff.mpr (by simp [text_toList])

/-- A plain place's text does not end in a separator: its last name does not. -/
theorem endsWith_text (h : pl.Plain) : pl.text.endsWith "/" = false := by
  rw [Bool.eq_false_iff]
  intro hend
  simp only [← String.endsWith_toSlice, String.Slice.endsWith_string_iff,
    String.copy_toSlice] at hend
  obtain ⟨t, ht⟩ := hend
  have hpieces := slashPieces_text h
  rw [← ht, show "/".toList = ['/'] from rfl, slashPieces_append_slash, slashPieces_nil] at hpieces
  have hlast := congrArg List.getLast? hpieces
  rw [List.getLast?_append, List.getLast?_singleton, Option.some_or,
    List.getLast?_cons] at hlast
  obtain ⟨D, m, rfl⟩ := (List.eq_nil_or_concat pl).resolve_left h.ne_nil
  rw [List.concat_eq_append, List.getLast?_append, List.getLast?_singleton, Option.some_or,
    Option.getD_some] at hlast
  exact (h.names m (by simp)).ne_empty (Option.some_inj.mp hlast).symm

/-- A plain place's text reads as the root, then its names, with no separator after them. -/
theorem ofText_text (h : pl.Plain) : Pathname.ofText pl.text = ⟨true, pl.map .name, false⟩ := by
  have hpieces : ((pl.text.toList.splitOn '/').map String.ofList).filter (· != "") = pl := by
    rw [← slashPieces, slashPieces_text h, List.filter_cons_of_neg (by simp),
      List.filter_eq_self.mpr fun m hm => by simpa using (h.names m hm).ne_empty]
  simp only [Pathname.ofText, hpieces, startsWith_text, endsWith_text h, Bool.false_and,
    Pathname.mk.injEq, true_and, and_true]
  refine List.map_congr_left fun m hm => ?_
  have hn := h.names m hm
  simp [hn.ne_dot, hn.ne_dotdot]

/-- A plain place's text has the root and the place's names as components. -/
theorem components_text (h : pl.Plain) : components pl.text = .root :: pl.map .normal := by
  have hhead : headComponents pl.text = [.root] := by
    simp [headComponents, startsWith_text]
  rw [components_eq_head_names, hhead, slashPieces_text h, names_cons_blank isBlankPiece_empty,
    names_of_plain h.names]
  rfl

/-- Two plain places' texts are the same path exactly when the places are equal. -/
theorem same_text {pl pl' : Place} (h : pl.Plain) (h' : pl'.Plain) :
    same pl.text pl'.text = true ↔ pl = pl' := by
  rw [same_eq, decide_eq_true_iff, components_text h, components_text h', List.cons.injEq]
  exact ⟨fun he => List.map_injective_iff.mpr (fun _ _ e => Component.normal.inj e) he.2,
    fun he => ⟨rfl, by rw [he]⟩⟩

/-- Joining names with a separator: the names before the last, a separator, the last. -/
theorem intercalate_concat {D : List String} (hD : D ≠ []) (n : String) :
    "/".intercalate (D ++ [n]) = "/".intercalate D ++ "/" ++ n := by
  induction D with
  | nil => exact absurd rfl hD
  | cons a D ih =>
    rcases D with _ | ⟨b, D⟩
    · simp [String.intercalate_cons_cons]
    · rw [List.cons_append, List.cons_append, String.intercalate_cons_cons, ← List.cons_append,
        ih (List.cons_ne_nil _ _), String.intercalate_cons_cons]
      simp [String.append_assoc]

/-- The text of a place with a last name: the text above it, a separator, then the name. -/
theorem text_concat (D : Place) (n : String) :
    (D ++ [n]).text = (if D = [] then "" else D.text) ++ "/" ++ n := by
  by_cases hD : D = []
  · subst hD
    simp [Place.text]
  · rw [Place.text, intercalate_concat hD, if_neg hD, Place.text]
    simp [String.append_assoc]

/-- A plain name joined to the text of a place is the text of the place one name deeper. -/
theorem join_text (hD : ∀ m ∈ D, PlainName m) (hn : PlainName n) :
    join D.text n = (D ++ [n]).text := by
  rw [join, isAbsolute_eq_false hn.no_slash, text_concat]
  by_cases hnil : D = []
  · subst hnil
    have hroot : "/".endsWith "/" = true := by
      simp only [← String.endsWith_toSlice, String.Slice.endsWith_string_iff, String.copy_toSlice]
      exact ⟨[], rfl⟩
    simp [Place.text, hroot]
  · have hplain : D.Plain := ⟨hnil, hD⟩
    have hne : D.text.isEmpty = false := by
      rw [Bool.eq_false_iff, ne_eq, String.isEmpty_iff]
      intro he
      simpa [he] using text_toList D
    simp [hnil, hne, endsWith_text hplain]

/-- The sidecar of a plain place's file is the file beside it whose name carries `.meta`. -/
theorem sidecarPath_text (D : Place) (n : String) :
    sidecarPath (D ++ [n]).text = (D ++ [n ++ sidecarSuffix]).text := by
  rw [sidecarPath, text_concat, text_concat, String.append_assoc]

theorem Plain.sidecar (h : (D ++ [n]).Plain) : (D ++ [n ++ sidecarSuffix]).Plain :=
  ⟨by simp, fun m hm => by
    rcases List.mem_append.mp hm with hm | hm
    · exact h.init.1 m hm
    · rw [List.mem_singleton.mp hm]
      exact h.init.2.meta⟩

/-- The last component of a plain place's text is its last name. -/
theorem getLast?_components_text (h : (D ++ [n]).Plain) :
    (components (D ++ [n]).text).getLast? = some (.normal n) := by
  rw [components_text h, List.map_append, ← List.cons_append, List.getLast?_append]
  simp

/-- The file name of a plain place's text is its last name. -/
theorem fileName?_text (h : (D ++ [n]).Plain) : fileName? (D ++ [n]).text = some n := by
  rw [fileName?, getLast?_components_text h]

theorem extension?_text (h : (D ++ [n]).Plain) :
    extension? (D ++ [n]).text = (splitName n).2 := by
  rw [extension?, fileName?_text h]
  rfl

/-- The parent of a plain place's text is the text of the place above. -/
theorem parent?_text (h : (D ++ [n]).Plain) : parent? (D ++ [n]).text = some D.text := by
  have hlast := getLast?_components_text h
  have hhead : headLength (D ++ [n]).text = 1 := by
    simp [headLength, startsWith_text]
  have hbody : bodyPieces (D ++ [n]).text = D ++ [n] := by
    rw [bodyPieces_eq, hhead, text_toList, List.drop_one, List.tail_cons,
      slashPieces_intercalate h.no_slash h.ne_nil]
  have hblank : ∀ m ∈ D.reverse, isBlankPiece m = false :=
    fun m hm => (h.init.1 m (List.mem_reverse.mp hm)).isBlankPiece
  have hkeep : D.reverse.dropWhile isBlankPiece = D.reverse := by
    rcases hD : D.reverse with _ | ⟨a, rest⟩
    · rfl
    · rw [List.dropWhile_cons_of_neg (by simp [hblank a (hD ▸ List.mem_cons_self)])]
  rw [parent?, hlast]
  simp only [hhead, hbody, List.reverse_append, List.reverse_singleton, List.singleton_append,
    List.dropWhile_cons_of_neg (by simp [h.init.2.isBlankPiece] : ¬ isBlankPiece n = true), hkeep,
    List.reverse_reverse, text_toList, List.take_one, List.head?_cons, Option.toList_some]
  rfl

/-- A name ending in `.meta` is a stem before it, when the name is a sidecar's. -/
theorem endsWith_sidecarSuffix {m : String} (h : m.endsWith sidecarSuffix = true) :
    ∃ t : List Char, m.toList = t ++ sidecarSuffix.toList := by
  simp only [← String.endsWith_toSlice, String.Slice.endsWith_string_iff,
    String.copy_toSlice] at h
  obtain ⟨t, ht⟩ := h
  exact ⟨t, ht.symm⟩

/-- The stem of a sidecar's name, as the library cuts it: the name without `.meta`. -/
theorem stem_sidecar (t : List Char) :
    String.ofList ((String.ofList (t ++ sidecarSuffix.toList)).toList.take
      ((String.ofList (t ++ sidecarSuffix.toList)).length - sidecarSuffix.length)) =
      String.ofList t := by
  have hlen : sidecarSuffix.length = sidecarSuffix.toList.length := String.length_toList.symm
  rw [String.toList_ofList, ← String.length_toList, String.toList_ofList, hlen,
    List.length_append, Nat.add_sub_cancel, List.take_left]

/-- The file a plain place's sidecar describes is the place's own file. -/
theorem primaryForSidecar_sidecarPath (h : (D ++ [n]).Plain) :
    primaryForSidecar (sidecarPath (D ++ [n]).text) = some (D ++ [n]).text := by
  have h' := h.sidecar
  have hends : (n ++ sidecarSuffix).endsWith sidecarSuffix = true := by
    simp only [← String.endsWith_toSlice, String.Slice.endsWith_string_iff, String.copy_toSlice]
    exact ⟨n.toList, by simp⟩
  have hstem := stem_sidecar n.toList
  rw [String.ofList_toList, ← String.toList_append, String.ofList_toList] at hstem
  rw [sidecarPath_text, primaryForSidecar, fileName?_text h']
  simp only [hends, if_true, hstem, String.isEmpty_iff, h.init.2.ne_empty, if_false]
  rw [withFileName, fileName?_text h', parent?_text h', Option.getD_some, join_text h.init.1 h.init.2]

/-- A file whose extension is not `meta` is described by no sidecar. -/
theorem primaryForSidecar_text (h : (D ++ [n]).Plain) (hext : (splitName n).2 ≠ some "meta") :
    primaryForSidecar (D ++ [n]).text = none := by
  rw [primaryForSidecar, fileName?_text h]
  dsimp only
  split
  · rename_i hends
    obtain ⟨t, ht⟩ := endsWith_sidecarSuffix hends
    have hn : n = String.ofList (t ++ sidecarSuffix.toList) := by rw [← ht, String.ofList_toList]
    have hstem := stem_sidecar t
    rw [← hn] at hstem
    rw [hstem]
    split
    · rfl
    · rename_i hne
      have hs : String.ofList t ≠ "" := by simpa [String.isEmpty_iff] using hne
      have hsplit : n = String.ofList t ++ "." ++ "meta" := by
        apply String.toList_inj.mp
        rw [ht]
        simp [sidecarSuffix]
      exact absurd (by rw [hsplit, splitName_dot hs (by decide) (hsplit ▸ h.init.2.ne_dotdot)])
        hext
  · rfl

end Place

/-- The text of a relative name joined to a path: the path's text, a separator unless the path is
empty or already ends in one, then the name's text. -/
theorem Path.join_toList {root name : String} (h : Path.isAbsolute name = false) :
    (Path.join root name).toList =
      (if root.isEmpty || root.endsWith "/" then root.toList else root.toList ++ ['/']) ++
        name.toList := by
  rw [Path.join, h]
  simp only [Bool.false_eq_true, if_false]
  split
  · exact String.toList_append
  · rw [String.toList_append, String.toList_append]
    rfl

/-- A plain name joined to a path is read as the path's steps and then the name, with no
separator after it. -/
theorem Pathname.ofText_join {root name : String} (hn : Path.PlainName name) :
    (Pathname.ofText (Path.join root name)).steps = (Pathname.ofText root).steps ++ [.name name] ∧
      (Pathname.ofText (Path.join root name)).dirOnly = false := by
  have hsplit : ∀ xs : List Char, (xs ++ '/' :: name.toList).splitOn '/' =
      xs.splitOn '/' ++ [name.toList] := by
    intro xs
    rw [List.splitOn_append_cons_self, List.splitOn_eq_singleton hn.no_slash]
  have hne : name.toList ≠ [] := fun h => hn.ne_empty (String.toList_inj.mp (by simpa using h))
  have hpieces : (((Path.join root name).toList.splitOn '/').map String.ofList).filter (· != "") =
      ((root.toList.splitOn '/').map String.ofList).filter (· != "") ++ [name] := by
    rw [Path.join_toList (Path.isAbsolute_eq_false hn.no_slash)]
    split
    · rename_i hroot
      rcases Bool.or_eq_true _ _ ▸ hroot with hempty | hend
      · rw [String.isEmpty_iff.mp hempty]
        simp [List.splitOn_eq_singleton hn.no_slash, hn.ne_empty]
      · obtain ⟨A, hA⟩ : ∃ A, root.toList = A ++ ['/'] := by
          simp only [← String.endsWith_toSlice, String.Slice.endsWith_string_iff,
            String.copy_toSlice] at hend
          obtain ⟨A, hA⟩ := hend
          exact ⟨A, hA.symm⟩
        rw [hA, List.append_assoc, List.singleton_append, hsplit,
          show A ++ ['/'] = A ++ '/' :: [] from rfl, List.splitOn_append_cons_self]
        simp [hn.ne_empty]
    · rw [List.append_assoc, List.singleton_append, hsplit]
      simp [hn.ne_empty]
  have hend : (Path.join root name).endsWith "/" = false := by
    rw [Bool.eq_false_iff]
    intro hend
    simp only [← String.endsWith_toSlice, String.Slice.endsWith_string_iff,
      String.copy_toSlice] at hend
    obtain ⟨t, ht⟩ := hend
    obtain ⟨pre, hpre⟩ : ∃ pre, (Path.join root name).toList = pre ++ name.toList :=
      ⟨_, Path.join_toList (Path.isAbsolute_eq_false hn.no_slash)⟩
    have hlast := congrArg List.getLast? (ht.trans hpre)
    rw [List.getLast?_append, List.getLast?_append] at hlast
    obtain ⟨c, hc⟩ := List.getLast?_isSome.mpr hne |> Option.isSome_iff_exists.mp
    rw [hc] at hlast
    simp only [show "/".toList = ['/'] from rfl, List.getLast?_singleton, Option.some_or] at hlast
    exact hn.no_slash (Option.some_inj.mp hlast ▸ List.mem_of_getLast? hc)
  refine ⟨?_, by simp [Pathname.ofText, hend]⟩
  simp only [Pathname.ofText, hpieces, List.map_append, List.map_singleton]
  simp [hn.ne_dot, hn.ne_dotdot]

end WikiSync
