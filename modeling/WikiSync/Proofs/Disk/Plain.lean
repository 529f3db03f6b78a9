import WikiSync.Proofs.Path.Plain
import WikiSync.Proofs.Disk.Removal
import WikiSync.Proofs.Sync.Stable
import WikiSync.Proofs.Text.Utf8

/-!
# Walking plainly written paths

On a disk that holds no symbolic link (`Disk.NoLinks`), the text of a plain place `D ++ [n]`
is walked name by name: the walk gets through exactly when every directory down to `D` exists
(`Disk.DirsTo`) and the text and its names are short enough (`Place.Fits`), and it then ends at
the entry `n` of `D` (`locate_text`, `locate_text_eq_ok`). Everything that reads a file through
such a path follows: what `stat` answers is what the place holds (`stat_text_of_lookup`,
`stat_text_eq_ok`), a regular file is one that is there (`isFile_text_iff`), and its text is the
text its bytes encode (`readText_text`). The text of a directory place is walked the same way,
down to the root (`stat_dirText_eq_ok`).
-/

namespace WikiSync

namespace Disk

/-- A disk holds no symbolic link: no place looks up as one. -/
def NoLinks (d : Disk) : Prop := ∀ pl t, d.lookup pl ≠ some (.link t)

/-- The directories down to a place exist: the place, and every place above it, is a
directory. -/
def DirsTo (d : Disk) (pl : Place) : Prop := ∀ k ≤ pl.length, d.lookup (pl.take k) = some .dir

end Disk

/-- A place the system takes as a path: its text and each of its names are short enough. -/
def Place.Fits (pl : Place) : Prop :=
  pl.text.utf8ByteSize ≤ Disk.pathMax ∧ ∀ n ∈ pl, n.utf8ByteSize ≤ Disk.nameMax

namespace Disk

variable {d : Disk}

/-! ### Walking through names -/

/-- Through directories that exist, a walk of names that fit ends at its last name. -/
theorem approach_names (cur : Place) (ns : List String) (m : String) {fuel : Nat} (links : Nat)
    (dirOnly : Bool) (hfuel : ns.length < fuel) (hfit : ∀ x ∈ ns ++ [m], x.utf8ByteSize ≤ nameMax)
    (hdirs : ∀ k ≤ ns.length, d.lookup (cur ++ ns.take k) = some .dir) :
    d.approach fuel links cur ((ns ++ [m]).map .name) dirOnly =
      .ok (.entry (cur ++ ns) m dirOnly, links) := by
  induction ns generalizing cur fuel with
  | nil =>
    obtain ⟨f, rfl⟩ : ∃ f, fuel = f + 1 := ⟨fuel - 1, by simp at hfuel; omega⟩
    simpa using approach_last (Nat.not_lt.mpr (hfit m (by simp)))
  | cons a ns ih =>
    obtain ⟨f, rfl⟩ : ∃ f, fuel = f + 1 := ⟨fuel - 1, by simp at hfuel; omega⟩
    have hdir : d.lookup (cur ++ [a]) = some .dir := by simpa using hdirs 1 (by simp)
    rw [List.cons_append, List.map_cons,
      approach_dir (Nat.not_lt.mpr (hfit a (by simp))) (by simp) hdir,
      ih (cur ++ [a]) (by simp at hfuel; omega) (fun x hx => hfit x (List.mem_cons_of_mem a hx))
        (fun k hk => by simpa using hdirs (k + 1) (by simp; omega))]
    simp

/-- On a disk without links, a walk of names that gets through ends at its last name, every name
fits, and every place it entered is a directory. -/
theorem approach_names_eq_ok (hnl : d.NoLinks) {cur : Place} {ns : List String} {m : String}
    {fuel links : Nat} {dirOnly : Bool} {r : Final × Nat}
    (h : d.approach fuel links cur ((ns ++ [m]).map .name) dirOnly = .ok r) :
    r = (.entry (cur ++ ns) m dirOnly, links) ∧ (∀ x ∈ ns ++ [m], x.utf8ByteSize ≤ nameMax) ∧
      ∀ k ≤ ns.length, 0 < k → d.lookup (cur ++ ns.take k) = some .dir := by
  induction ns generalizing cur fuel with
  | nil =>
    cases fuel with
    | zero => simp [approach] at h
    | succ f =>
      simp only [List.nil_append, List.map_cons, List.map_nil] at h
      rw [approach] at h
      split at h
      · cases h
      · cases h
        refine ⟨by simp, by simpa using Nat.le_of_not_lt ‹_›, fun k hk hk' => by simp at hk; omega⟩
  | cons a ns ih =>
    cases fuel with
    | zero => simp [approach] at h
    | succ f =>
      rw [List.cons_append, List.map_cons, approach] at h
      · split at h
        · cases h
        · rename_i hshort
          cases hl : d.lookup (cur ++ [a]) with
          | none => simp [hl] at h
          | some x =>
            cases x with
            | file bs t => simp [hl] at h
            | link t => exact absurd hl (hnl _ t)
            | dir =>
              simp only [hl] at h
              obtain ⟨hr, hfit, hdirs⟩ := ih h
              refine ⟨by simpa using hr, fun x hx => ?_, fun k hk hk' => ?_⟩
              · rcases List.mem_cons.mp hx with rfl | hx
                · exact Nat.le_of_not_lt hshort
                · exact hfit x hx
              · obtain ⟨j, rfl⟩ : ∃ j, k = j + 1 := ⟨k - 1, by omega⟩
                rcases j with _ | j
                · simpa using hl
                · simpa using hdirs (j + 1) (by simp at hk; omega) (by omega)
      · simp

/-! ### What a plain path leads to -/

variable {D : Place} {n : String}

theorem text_isEmpty (pl : Place) : pl.text.isEmpty = false := by
  rw [Bool.eq_false_iff, ne_eq, String.isEmpty_iff]
  intro he
  simpa [he] using Place.text_toList pl

/-- Every walk of a plain path has fuel for each of its names. -/
theorem length_lt_walkFuel (d : Disk) (h : (D ++ [n]).Plain) :
    D.length < d.walkFuel (Pathname.ofText (D ++ [n]).text) := by
  simp [walkFuel, Place.ofText_text h]
  omega

/-- Through directories that exist, a plain path that fits is walked to its last name. -/
theorem locate_text (h : (D ++ [n]).Plain) (hfit : (D ++ [n]).Fits) (hdirs : d.DirsTo D) :
    d.locate (D ++ [n]).text = .ok (.entry D n false, 0) := by
  unfold locate
  rw [if_neg (Nat.not_lt.mpr hfit.1)]
  dsimp only
  have hfuel := length_lt_walkFuel d h
  rw [if_neg (by simp [text_isEmpty]), Place.ofText_text h]
  rw [Place.ofText_text h] at hfuel
  simpa using approach_names [] D n 0 false hfuel hfit.2 (fun k hk => by simpa using hdirs k hk)

/-- On a disk without links, a plain path that is walked at all is walked to its last name: it
fits, and the directories down to its last name exist. -/
theorem locate_text_eq_ok (hnl : d.NoLinks) (h : (D ++ [n]).Plain) {r : Final × Nat}
    (hr : d.locate (D ++ [n]).text = .ok r) :
    r = (.entry D n false, 0) ∧ (D ++ [n]).Fits ∧ d.DirsTo D := by
  unfold locate at hr
  split at hr
  · cases hr
  · rename_i hlen
    dsimp only at hr
    rw [if_neg (by simp [text_isEmpty]), Place.ofText_text h] at hr
    obtain ⟨rfl, hfit, hdirs⟩ := approach_names_eq_ok hnl hr
    refine ⟨by simp, ⟨Nat.le_of_not_lt hlen, hfit⟩, fun k hk => ?_⟩
    rcases Nat.eq_zero_or_pos k with rfl | hk'
    · simp [lookup]
    · simpa using hdirs k hk hk'

/-- Through directories that exist, a plain path that fits reaches its last name, whether or
not links are followed: no place holds one. -/
theorem reach_text (hnl : d.NoLinks) (h : (D ++ [n]).Plain) (hfit : (D ++ [n]).Fits)
    (hdirs : d.DirsTo D) (follow : Bool) : d.reach (D ++ [n]).text follow = .ok (.entry D n false) := by
  unfold reach
  rw [locate_text h hfit hdirs]
  simp [linkLimit, settle_of_lookup (fun t => hnl (D ++ [n]) t), bind, Except.bind, pure, Except.pure]

/-- What a plain path leads to is what its place holds. -/
theorem stat_text_of_lookup (hnl : d.NoLinks) (h : (D ++ [n]).Plain) (hfit : (D ++ [n]).Fits)
    (hdirs : d.DirsTo D) {x : Node} (hx : d.lookup (D ++ [n]) = some x) (follow : Bool) :
    d.stat (D ++ [n]).text follow = .ok (D ++ [n], x) := by
  apply stat_of_found (reach_text hnl h hfit hdirs follow)
  cases x <;> simp [found, Final.place, hx]

/-- What a plain path leads to on a disk without links, it leads to through directories that
exist, at its place. -/
theorem stat_text_eq_ok (hnl : d.NoLinks) (h : (D ++ [n]).Plain) {follow : Bool}
    {x : Place × Node} (hx : d.stat (D ++ [n]).text follow = .ok x) :
    (D ++ [n]).Fits ∧ d.DirsTo D ∧ x.1 = D ++ [n] ∧ d.lookup (D ++ [n]) = some x.2 := by
  obtain ⟨f, hf, hfound⟩ := stat_eq_ok hx
  have hloc : ∃ r, d.locate (D ++ [n]).text = .ok r := by
    cases hl : d.locate (D ++ [n]).text with
    | error e => simp [reach, hl, bind, Except.bind] at hf
    | ok r => exact ⟨r, rfl⟩
  obtain ⟨r, hl⟩ := hloc
  obtain ⟨-, hfit, hdirs⟩ := locate_text_eq_ok hnl h hl
  rw [reach_text hnl h hfit hdirs] at hf
  cases hf
  refine ⟨hfit, hdirs, ?_⟩
  unfold found at hfound
  cases hlk : d.lookup (D ++ [n]) with
  | none => simp [Final.place, hlk] at hfound
  | some y => cases y <;> simp [Final.place, hlk] at hfound <;> simp [← hfound]

/-- On a disk without links, a plain path leads to a regular file exactly when the directories
down to it exist, it fits, and its place holds a file. -/
theorem isFile_text_iff (hnl : d.NoLinks) (h : (D ++ [n]).Plain) :
    d.isFile (D ++ [n]).text = true ↔
      (D ++ [n]).Fits ∧ d.DirsTo D ∧ ∃ bs t, d.lookup (D ++ [n]) = some (.file bs t) := by
  constructor
  · intro hf
    unfold isFile at hf
    split at hf
    · rename_i pl bs t hs
      obtain ⟨hfit, hdirs, -, hl⟩ := stat_text_eq_ok hnl h hs
      exact ⟨hfit, hdirs, bs, t, hl⟩
    · cases hf
  · rintro ⟨hfit, hdirs, bs, t, hl⟩
    simp [isFile, stat_text_of_lookup hnl h hfit hdirs hl]

/-- A plain path whose place holds the bytes of a text reads as that text. -/
theorem readText_text (hnl : d.NoLinks) (h : (D ++ [n]).Plain) (hfit : (D ++ [n]).Fits)
    (hdirs : d.DirsTo D) {s : String} {t : Nat}
    (hx : d.lookup (D ++ [n]) = some (.file (Utf8.encode s) t)) :
    d.readText (D ++ [n]).text = .ok s := by
  simp [readText, read, stat_text_of_lookup hnl h hfit hdirs hx, Utf8.decode?_encode, bind,
    Except.bind, pure, Except.pure]

/-- The root's text reads as the root itself. -/
theorem ofText_root : Pathname.ofText (Place.text []) = ⟨true, [], false⟩ := by
  have hpieces : Path.slashPieces (Place.text []).toList = ["", ""] := by
    rw [Place.text_toList, Path.slashPieces_slash]
    rfl
  rw [Pathname.ofText, ← Path.slashPieces, hpieces, Place.startsWith_text]
  simp

/-- The root's text leads to the root directory. -/
theorem stat_root (d : Disk) (follow : Bool) : d.stat (Place.text []) follow = .ok ([], .dir) := by
  have hsize : ¬ (Place.text []).utf8ByteSize > pathMax := by decide
  simp [stat, reach, locate, hsize, text_isEmpty, ofText_root, walkFuel, approach, settle, found,
    Final.place, lookup, bind, Except.bind, pure, Except.pure]
  rfl

/-- What the text of a place of plain names leads to, when it is a directory, is that place, and
the directories down to it exist. -/
theorem stat_dirText_eq_ok (hnl : d.NoLinks) (hD : ∀ m ∈ D, Path.PlainName m) {follow : Bool}
    {pl : Place} (h : d.stat D.text follow = .ok (pl, .dir)) : pl = D ∧ d.DirsTo D := by
  rcases D.eq_nil_or_concat' with rfl | ⟨E, m, rfl⟩
  · rw [stat_root] at h
    cases h
    exact ⟨rfl, fun k hk => by simp [lookup]⟩
  · obtain ⟨-, hdirs, hpl, hl⟩ := stat_text_eq_ok hnl ⟨by simp, hD⟩ h
    refine ⟨hpl, fun k hk => ?_⟩
    by_cases hk' : k ≤ E.length
    · rw [List.take_append_of_le_length hk']
      exact hdirs k hk'
    · have hk'' : k = E.length + 1 := by simp at hk; omega
      subst hk''
      rw [List.take_of_length_le (by simp)]
      exact hl

end Disk

end WikiSync
