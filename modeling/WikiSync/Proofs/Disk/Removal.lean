import WikiSync.Disk.Basic

/-!
# Removing files from a disk

Removing a file drops a place and everything below it. What is left holds nothing the disk did
not hold before: each place answers as it did or holds nothing, and no link target got longer
(`Disk.Sub`). A walk only ever looks places up, so a walk that gets through the smaller disk
takes the same way through the larger one, given as much fuel (`approach_of_sub`,
`settle_of_sub`), and what a path leads to on the smaller disk it led to before
(`stat_of_sub`). A path that led nowhere therefore still leads nowhere after any removal
(`pathExists_of_sub`).

A removal that succeeds leaves nothing at its path (`removeFile_absent`), and a removal that
fails because nothing is there tells the truth: the path led nowhere (`removeFile_missing`).
-/

namespace WikiSync

/-- A run of steps that may fail succeeds only when its first step does. -/
theorem exceptBind_eq_ok {ε α β : Type} {x : Except ε α} {f : α → Except ε β} {b : β}
    (h : x >>= f = .ok b) : ∃ a, x = .ok a ∧ f a = .ok b := by
  cases x with
  | error _ => cases h
  | ok a => exact ⟨a, rfl, h⟩

namespace Disk

/-- A disk holds nothing another does not: each place it fills, the other fills alike, and
none of its link targets is longer than the other's longest. -/
structure Sub (d' d : Disk) : Prop where
  /-- Every place filled is filled alike in the other disk. -/
  lookup : ∀ {pl n}, d'.lookup pl = some n → d.lookup pl = some n
  /-- Link targets are no longer. -/
  longest : d'.longestTarget ≤ d.longestTarget

theorem Sub.refl (d : Disk) : d.Sub d := ⟨id, Nat.le_refl _⟩

theorem Sub.trans {d₁ d₂ d₃ : Disk} (h₁ : d₁.Sub d₂) (h₂ : d₂.Sub d₃) : d₁.Sub d₃ :=
  ⟨fun h => h₂.lookup (h₁.lookup h), Nat.le_trans h₁.longest h₂.longest⟩

/-! ### Dropping a tree -/

/-- After a tree is dropped, the places in it hold nothing (the root apart, which is always a
directory) and every other place holds what it held. -/
theorem lookup_eraseTree (d : Disk) (pl q : Place) :
    (d.eraseTree pl).lookup q = if !q.isEmpty && Place.within q pl then none else d.lookup q := by
  unfold lookup eraseTree
  by_cases hq : q.isEmpty = true
  · simp [hq]
  · simp only [hq, Bool.false_eq_true, if_false, Bool.not_false, Bool.true_and, List.find?_filter]
    split
    · rename_i hin
      rw [List.find?_eq_none.mpr]
      · rfl
      · intro e _ he
        simp only [decide_eq_true_eq, Bool.not_eq_eq_eq_not, Bool.not_true, beq_iff_eq] at he
        exact absurd (he.2 ▸ hin) (by simp [he.1])
    · rename_i hout
      congr 2
      funext e
      by_cases he : e.1 = q
      · simp [he, hout]
      · simp [he]

theorem lookup_eraseTree_self (d : Disk) {pl : Place} (hpl : pl ≠ []) :
    (d.eraseTree pl).lookup pl = none := by
  rw [lookup_eraseTree, if_pos]
  simp [hpl, Place.within]

/-- The step of `longestTarget` over one place. -/
private theorem longestTarget_step_mono {m m' : Nat} (hm : m ≤ m') (e : Place × Node) :
    (match e.2 with
      | .link t => max m (Pathname.ofText t).steps.length
      | _ => m) ≤
    (match e.2 with
      | .link t => max m' (Pathname.ofText t).steps.length
      | _ => m') := by
  split
  · exact Nat.max_le.mpr ⟨Nat.le_trans hm (Nat.le_max_left _ _), Nat.le_max_right _ _⟩
  · exact hm

/-- Folding the longest target from a larger start gives a larger answer. -/
private theorem foldl_longest_mono (l : List (Place × Node)) {m m' : Nat} (hm : m ≤ m') :
    l.foldl (fun m e => match e.2 with
        | .link t => max m (Pathname.ofText t).steps.length
        | _ => m) m ≤
      l.foldl (fun m e => match e.2 with
        | .link t => max m (Pathname.ofText t).steps.length
        | _ => m) m' := by
  induction l generalizing m m' with
  | nil => exact hm
  | cons e l ih => exact ih (longestTarget_step_mono hm e)

/-- The longest target over some of the places is no longer than over all of them. -/
private theorem foldl_longest_filter (l : List (Place × Node)) (keep : Place × Node → Bool)
    (m : Nat) :
    (l.filter keep).foldl (fun m e => match e.2 with
        | .link t => max m (Pathname.ofText t).steps.length
        | _ => m) m ≤
      l.foldl (fun m e => match e.2 with
        | .link t => max m (Pathname.ofText t).steps.length
        | _ => m) m := by
  induction l generalizing m with
  | nil => exact Nat.le_refl _
  | cons e l ih =>
    rw [List.filter_cons]
    split
    · exact ih _
    · refine Nat.le_trans (ih m) (foldl_longest_mono l ?_)
      dsimp only
      split
      · exact Nat.le_max_left _ _
      · exact Nat.le_refl _

theorem eraseTree_sub (d : Disk) (pl : Place) : (d.eraseTree pl).Sub d where
  lookup {q n} h := by
    rw [lookup_eraseTree] at h
    split at h
    · cases h
    · exact h
  longest := foldl_longest_filter d.nodes _ 0

/-! ### Walks through a smaller disk -/

variable {d d' : Disk}

/-- A walk that gets through the smaller disk gets through the larger one to the same end, given
as much fuel: every place it looked up is there alike. -/
theorem approach_of_sub (hsub : d'.Sub d) {fuel links : Nat} {cur : Place} {steps : List Step}
    {dirOnly : Bool} {r : Final × Nat} (h : d'.approach fuel links cur steps dirOnly = .ok r)
    {fuel' : Nat} (hfuel : fuel ≤ fuel') : d.approach fuel' links cur steps dirOnly = .ok r := by
  induction fuel, links, cur, steps, dirOnly using approach.induct d' generalizing fuel' with
  | case1 => simp [approach] at h
  | case2 n links cur x | case3 n links cur x | case4 n links cur x =>
    obtain ⟨g, rfl⟩ : ∃ g, fuel' = g + 1 := ⟨fuel' - 1, by omega⟩
    rw [approach] at h ⊢
    exact h
  | case5 n links cur name dirOnly hlong =>
    simp [approach, hlong] at h
  | case6 n links cur name dirOnly hshort =>
    obtain ⟨g, rfl⟩ : ∃ g, fuel' = g + 1 := ⟨fuel' - 1, by omega⟩
    rw [approach] at h ⊢
    exact h
  | case7 fuel links cur rest dirOnly hrest ih =>
    obtain ⟨g, rfl⟩ : ∃ g, fuel' = g + 1 := ⟨fuel' - 1, by omega⟩
    rw [approach] at h ⊢
    · exact ih h (by omega)
    all_goals exact hrest
  | case8 fuel links cur rest dirOnly hrest ih =>
    obtain ⟨g, rfl⟩ : ∃ g, fuel' = g + 1 := ⟨fuel' - 1, by omega⟩
    rw [approach] at h ⊢
    · exact ih h (by omega)
    all_goals exact hrest
  | case9 fuel links cur name rest dirOnly hrest hlong =>
    rw [approach, if_pos hlong] at h
    · cases h
    · exact hrest
  | case10 fuel links cur name rest dirOnly hrest hshort hnone =>
    rw [approach, if_neg hshort, hnone] at h
    · cases h
    · exact hrest
  | case11 fuel links cur name rest dirOnly hrest hshort hdir ih =>
    obtain ⟨g, rfl⟩ : ∃ g, fuel' = g + 1 := ⟨fuel' - 1, by omega⟩
    rw [approach, if_neg hshort, hdir] at h
    · rw [approach, if_neg hshort, hsub.lookup hdir]
      · exact ih h (by omega)
      · exact hrest
    · exact hrest
  | case12 fuel links cur name rest dirOnly hrest hshort bytes modified hfile =>
    rw [approach, if_neg hshort, hfile] at h
    · cases h
    · exact hrest
  | case13 fuel links cur name rest dirOnly hrest hshort target hlink hlimit =>
    rw [approach, if_neg hshort, hlink] at h
    · simp [hlimit] at h
    · exact hrest
  | case14 fuel links cur name rest dirOnly hrest hshort target hlink hlimit hempty =>
    rw [approach, if_neg hshort, hlink] at h
    · simp [hlimit, hempty] at h
    · exact hrest
  | case15 fuel links cur name rest dirOnly hrest hshort target hlink hlimit hempty _ ih =>
    obtain ⟨g, rfl⟩ : ∃ g, fuel' = g + 1 := ⟨fuel' - 1, by omega⟩
    rw [approach, if_neg hshort, hlink] at h
    · rw [approach, if_neg hshort, hsub.lookup hlink]
      · simp only [hlimit, hempty, if_false] at h ⊢
        exact ih h (by omega)
      · exact hrest
    · exact hrest

/-- Settling through the smaller disk, at an end that disk fills, settles the same way through
the larger one, given as much fuel. -/
theorem settle_of_sub (hsub : d'.Sub d) {follow : Bool} {fuel rounds links : Nat} {f : Final}
    {r : Final × Nat} (h : d'.settle follow fuel rounds links f = .ok r)
    (hfilled : (d'.lookup r.1.place).isSome) {fuel' : Nat} (hfuel : fuel ≤ fuel') :
    d.settle follow fuel' rounds links f = .ok r := by
  induction rounds, links, f using settle.induct d' follow fuel with
  | case1 => simp [settle] at h
  | case2 rounds links dir n dirOnly target hlink hstop =>
    rw [settle, hlink] at h
    rw [settle, hsub.lookup hlink]
    simpa [hstop] using h
  | case3 rounds links dir n dirOnly target hlink hgo hlimit =>
    rw [settle, hlink] at h
    simp [hgo, hlimit] at h
  | case4 rounds links dir n dirOnly target hlink hgo hlimit hempty =>
    rw [settle, hlink] at h
    simp [hgo, hlimit, hempty] at h
  | case5 rounds links dir n dirOnly target hlink hgo hlimit hempty t f' links' happ ih =>
    simp only [t] at happ
    rw [settle, hlink] at h
    dsimp only at h
    rw [if_neg hgo, if_neg hlimit, if_neg hempty, happ] at h
    rw [settle, hsub.lookup hlink]
    dsimp only
    rw [if_neg hgo, if_neg hlimit, if_neg hempty, approach_of_sub hsub happ hfuel]
    exact ih h
  | case6 rounds links dir n dirOnly target hlink hgo hlimit hempty t e happ =>
    simp only [t] at happ
    rw [settle, hlink] at h
    dsimp only at h
    rw [if_neg hgo, if_neg hlimit, if_neg hempty, happ] at h
    cases h
  | case7 rounds links dir n dirOnly hnolink =>
    rw [settle] at h
    cases hl : d'.lookup (dir ++ [n]) with
    | none =>
      simp only [hl] at h
      cases h
      simp [Final.place, hl] at hfilled
    | some node =>
      have hnode : ∀ target, node ≠ .link target := fun target he => hnolink target (he ▸ hl)
      rw [settle, hsub.lookup hl]
      simp only [hl] at h
      cases node with
      | link target => exact absurd rfl (hnode target)
      | file bytes modified => exact h
      | dir => exact h
  | case8 rounds links f hentry =>
    cases f with
    | entry dir n dirOnly => exact absurd rfl (hentry dir n dirOnly)
    | here dir | up dir | root =>
      rw [settle] at h
      · rw [settle]
        · exact h
        · exact hentry
      · exact hentry

theorem walkFuel_le (hsub : d'.Sub d) (t : Pathname) : d'.walkFuel t ≤ d.walkFuel t := by
  have h := hsub.longest
  simp only [walkFuel, linkLimit]
  omega

/-- A path that is walked to the end was walked from the top, step by step, with the fuel the
path allows. -/
theorem locate_eq_approach {p : String} {r : Final × Nat} (h : d.locate p = .ok r) :
    d.approach (d.walkFuel (Pathname.ofText p)) 0 [] (Pathname.ofText p).steps
      (Pathname.ofText p).dirOnly = .ok r := by
  unfold locate at h
  split at h
  · cases h
  · dsimp only at h
    split at h
    · cases h
    · exact h

theorem locate_of_sub (hsub : d'.Sub d) {p : String} {r : Final × Nat}
    (h : d'.locate p = .ok r) : d.locate p = .ok r := by
  unfold locate at h ⊢
  split at h
  · cases h
  · rename_i hlen
    rw [if_neg hlen]
    dsimp only at h ⊢
    split at h
    · cases h
    · rename_i hempty
      rw [if_neg hempty]
      exact approach_of_sub hsub h (walkFuel_le hsub _)

theorem isSome_lookup_of_found {f : Final} {x : Place × Node} (h : d.found f = .ok x) :
    (d.lookup f.place).isSome := by
  unfold found at h
  cases hl : d.lookup f.place with
  | none => simp [hl] at h
  | some => rfl

theorem found_of_sub (hsub : d'.Sub d) {f : Final} {x : Place × Node} (h : d'.found f = .ok x) :
    d.found f = .ok x := by
  unfold found at h ⊢
  cases hl : d'.lookup f.place with
  | none => simp [hl] at h
  | some node =>
    rw [hl] at h
    rw [hsub.lookup hl]
    exact h

theorem reach_of_sub (hsub : d'.Sub d) {p : String} {follow : Bool} {f : Final}
    (h : d'.reach p follow = .ok f) (hfilled : (d'.lookup f.place).isSome) :
    d.reach p follow = .ok f := by
  unfold reach at h ⊢
  cases hl : d'.locate p with
  | error e => simp [hl, bind, Except.bind] at h
  | ok r =>
    obtain ⟨f₀, links⟩ := r
    cases hs : d'.settle follow (d'.walkFuel (Pathname.ofText p)) (linkLimit + 1) links f₀ with
    | error e => simp [hl, hs, bind, Except.bind] at h
    | ok r' =>
      obtain ⟨f₁, links₁⟩ := r'
      simp only [hl, hs, bind, Except.bind, pure, Except.pure, Except.ok.injEq] at h
      subst h
      rw [locate_of_sub hsub hl]
      simp [settle_of_sub hsub hs hfilled (walkFuel_le hsub _), bind, Except.bind, pure,
        Except.pure]

/-- What a path leads to is what the end of its walk holds. -/
theorem stat_eq_ok {p : String} {follow : Bool} {x : Place × Node}
    (h : d.stat p follow = .ok x) : ∃ f, d.reach p follow = .ok f ∧ d.found f = .ok x := by
  unfold stat at h
  cases hfound : (d.reach p follow >>= d.found) with
  | error e =>
    rw [hfound] at h
    cases h
  | ok y =>
    rw [hfound] at h
    cases h
    exact exceptBind_eq_ok hfound

theorem stat_of_found {p : String} {follow : Bool} {f : Final} {x : Place × Node}
    (hr : d.reach p follow = .ok f) (hfd : d.found f = .ok x) : d.stat p follow = .ok x := by
  unfold stat
  rw [hr]
  show (d.found f).mapError IoError.os = .ok x
  rw [hfd]
  rfl

/-- What a path leads to on the smaller disk, it led to on the larger. -/
theorem stat_of_sub (hsub : d'.Sub d) {p : String} {follow : Bool} {x : Place × Node}
    (h : d'.stat p follow = .ok x) : d.stat p follow = .ok x := by
  obtain ⟨f, hr, hfd⟩ := stat_eq_ok h
  exact stat_of_found (reach_of_sub hsub hr (isSome_lookup_of_found hfd)) (found_of_sub hsub hfd)

/-- A path that leads nowhere still leads nowhere once places are dropped. -/
theorem pathExists_of_sub (hsub : d'.Sub d) {p : String} (h : d.pathExists p = false) :
    d'.pathExists p = false := by
  unfold pathExists at h ⊢
  cases hs : d'.stat p with
  | ok x => simp [stat_of_sub hsub hs] at h
  | error e => rfl

/-! ### Removing a file -/

/-- A removal that succeeds found an entry, not followed by a separator, that holds something,
and dropped it with everything below. -/
theorem removeFile_eq_ok {p : String} {d₁ : Disk} (h : d.removeFile p = .ok d₁) :
    ∃ dir n links, d.locate p = .ok (.entry dir n false, links) ∧
      d₁ = d.eraseTree (dir ++ [n]) := by
  unfold removeFile at h
  split at h
  · cases h
  · rename_i dir n dirOnly links hloc
    split at h
    · cases h
    · cases h
    · split at h
      · cases h
      · rename_i hdir
        cases h
        simp only [Bool.not_eq_true] at hdir
        exact ⟨dir, n, links, hdir ▸ hloc, rfl⟩
  · cases h

/-- A walk that ends at an entry holding nothing settles there. -/
theorem settle_of_lookup_none {follow : Bool} {fuel rounds links : Nat} {dir : Place}
    {n : String} {dirOnly : Bool} (h : d.lookup (dir ++ [n]) = none) :
    d.settle follow fuel (rounds + 1) links (.entry dir n dirOnly) =
      .ok (.entry dir n dirOnly, links) := by
  rw [settle, h]

/-- A path whose walk fails leads nowhere. -/
theorem pathExists_of_reach_error {p : String} {e : OsError} (h : d.reach p true = .error e) :
    d.pathExists p = false := by
  unfold pathExists
  cases hs : d.stat p with
  | error _ => rfl
  | ok x =>
    obtain ⟨f, hf, -⟩ := stat_eq_ok hs
    rw [h] at hf
    cases hf

theorem reach_of_locate_error {p : String} {follow : Bool} {e : OsError}
    (h : d.locate p = .error e) : d.reach p follow = .error e := by
  simp [reach, h, bind, Except.bind]

/-- A path whose walk ends at an entry holding nothing leads nowhere. -/
theorem pathExists_of_locate_empty {p : String} {dir : Place} {n : String} {dirOnly : Bool}
    {links : Nat} (hloc : d.locate p = .ok (.entry dir n dirOnly, links))
    (hnone : d.lookup (dir ++ [n]) = none) : d.pathExists p = false := by
  have hr : d.reach p true = .ok (.entry dir n dirOnly) := by
    simp [reach, hloc, settle_of_lookup_none hnone, bind, Except.bind, pure, Except.pure]
  unfold pathExists
  cases hs : d.stat p with
  | error _ => rfl
  | ok x =>
    obtain ⟨f, hf, hfd⟩ := stat_eq_ok hs
    rw [hr] at hf
    cases hf
    simp [found, Final.place, hnone] at hfd

/-- A removal that succeeds leaves nothing at its path. -/
theorem removeFile_absent {p : String} {d₁ : Disk} (h : d.removeFile p = .ok d₁) :
    d₁.pathExists p = false := by
  obtain ⟨dir, n, links, hloc, rfl⟩ := removeFile_eq_ok h
  have hsub := eraseTree_sub d (dir ++ [n])
  have hgone := lookup_eraseTree_self d (List.append_ne_nil_of_right_ne_nil dir (List.cons_ne_nil n []))
  cases hl : (d.eraseTree (dir ++ [n])).locate p with
  | error e => exact pathExists_of_reach_error (reach_of_locate_error hl)
  | ok r =>
    -- the walk on what is left ends where it ended before, at the dropped entry
    have hr : r = (.entry dir n false, links) := by
      have h' := locate_of_sub hsub hl
      rw [hloc] at h'
      exact (Except.ok.inj h').symm
    subst hr
    exact pathExists_of_locate_empty hl hgone

/-- A removal that fails because nothing is there is right: the path leads nowhere. -/
theorem removeFile_missing {p : String} {e : IoError} (h : d.removeFile p = .error e)
    (hk : e.kind = .notFound) : d.pathExists p = false := by
  unfold removeFile at h
  split at h
  · rename_i e' hloc
    exact pathExists_of_reach_error (reach_of_locate_error hloc)
  · rename_i dir n dirOnly links hloc
    split at h
    · rename_i hnone
      exact pathExists_of_locate_empty hloc hnone
    · cases h
      simp [IoError.kind, OsError.kind] at hk
    · split at h
      · cases h
        simp [IoError.kind, OsError.kind] at hk
      · cases h
  · cases h
    simp [IoError.kind, OsError.kind] at hk

/-! ### Single steps of a walk -/

section Steps

variable {fuel links : Nat} {cur : Place} {n : String} {rest : List Step}
  {dirOnly : Bool}

/-- The last component of a walk, a name that fits, is where the walk ends. -/
theorem approach_last (hn : ¬ n.utf8ByteSize > nameMax) :
    d.approach (fuel + 1) links cur [.name n] dirOnly = .ok (.entry cur n dirOnly, links) := by
  rw [approach, if_neg hn]

/-- A directory on the way is entered. -/
theorem approach_dir (hn : ¬ n.utf8ByteSize > nameMax) (hrest : rest ≠ [])
    (h : d.lookup (cur ++ [n]) = some .dir) :
    d.approach (fuel + 1) links cur (.name n :: rest) dirOnly =
      d.approach fuel links (cur ++ [n]) rest dirOnly := by
  rw [approach, if_neg hn, h]
  exact hrest

/-- A link on the way is replaced by its target, while fewer links than the limit have been
followed. -/
theorem approach_link {target : String} (hn : ¬ n.utf8ByteSize > nameMax) (hrest : rest ≠ [])
    (h : d.lookup (cur ++ [n]) = some (.link target)) (hlinks : links < linkLimit)
    (ht : target.isEmpty = false) :
    d.approach (fuel + 1) links cur (.name n :: rest) dirOnly =
      d.approach fuel (links + 1) (if (Pathname.ofText target).absolute then [] else cur)
        ((Pathname.ofText target).steps ++ rest) dirOnly := by
  rw [approach, if_neg hn, h]
  · simp only [ht, Nat.not_le.mpr hlinks, if_false, Bool.false_eq_true]
  · exact hrest

/-- A link at the end of a walk, which the walk is to follow, is followed to where its target's
walk ends, and settled from there. -/
theorem settle_link {follow : Bool} {rounds : Nat} {dir : Place} {target : String} {f : Final}
    {links' : Nat} (h : d.lookup (dir ++ [n]) = some (.link target))
    (hf : (follow || dirOnly) = true) (hlinks : links < linkLimit) (ht : target.isEmpty = false)
    (ha : d.approach fuel (links + 1) (if (Pathname.ofText target).absolute then [] else dir)
      (Pathname.ofText target).steps (dirOnly || (Pathname.ofText target).dirOnly) =
        .ok (f, links')) :
    d.settle follow fuel (rounds + 1) links (.entry dir n dirOnly) =
      d.settle follow fuel rounds links' f := by
  rw [settle]
  simp only [h, hf, ht, Nat.not_le.mpr hlinks, Bool.not_true, Bool.false_eq_true, if_false, ha]

/-- A walk that ends at anything but a link is settled where it ends. -/
theorem settle_of_lookup {follow : Bool} {rounds : Nat} {dir : Place}
    (h : ∀ target, d.lookup (dir ++ [n]) ≠ some (.link target)) :
    d.settle follow fuel (rounds + 1) links (.entry dir n dirOnly) =
      .ok (.entry dir n dirOnly, links) := by
  rw [settle]
  split
  · rename_i target hl
    exact absurd hl (h target)
  · rfl

end Steps

/-! ### Walks that end in a name -/

/-- A walk of steps that end in a name reaches the directory it reaches whatever the name: the
steps before it decide where the walk stands, and the name only has to fit. -/
theorem approach_append_name (d : Disk) (dirOnly : Bool) :
    ∀ (fuel links : Nat) (cur : Place) (pre : List Step), ∃ R : Except OsError (Place × Nat),
      ∀ n, d.approach fuel links cur (pre ++ [.name n]) dirOnly =
        R.bind fun r => if n.utf8ByteSize > nameMax then .error .nameTooLong
          else .ok (.entry r.1 n dirOnly, r.2)
  | 0, _, _, _ => ⟨.error .symlinkLoop, fun n => by rw [approach]; rfl⟩
  | f + 1, links, cur, [] => ⟨.ok (cur, links), fun n => by rw [List.nil_append, approach]; rfl⟩
  | f + 1, links, cur, .here :: pre => by
    obtain ⟨R, hR⟩ := approach_append_name d dirOnly f links cur pre
    exact ⟨R, fun n => by rw [List.cons_append, approach, hR]; simp⟩
  | f + 1, links, cur, .up :: pre => by
    obtain ⟨R, hR⟩ := approach_append_name d dirOnly f links cur.dropLast pre
    exact ⟨R, fun n => by rw [List.cons_append, approach, hR]; simp⟩
  | f + 1, links, cur, .name m :: pre => by
    have hrest : ∀ n : String, pre ++ [Step.name n] ≠ [] := fun n => by simp
    by_cases hm : m.utf8ByteSize > nameMax
    · exact ⟨.error .nameTooLong, fun n => by
        rw [List.cons_append, approach, if_pos hm]
        · rfl
        · exact hrest n⟩
    cases hl : d.lookup (cur ++ [m]) with
    | none =>
      exact ⟨.error .noSuchEntry, fun n => by
        rw [List.cons_append, approach, if_neg hm, hl]
        · rfl
        · exact hrest n⟩
    | some node =>
      cases node with
      | dir =>
        obtain ⟨R, hR⟩ := approach_append_name d dirOnly f links (cur ++ [m]) pre
        exact ⟨R, fun n => by
          rw [List.cons_append, approach_dir hm (hrest n) hl, hR]⟩
      | file b t =>
        exact ⟨.error .notADirectory, fun n => by
          rw [List.cons_append, approach, if_neg hm, hl]
          · rfl
          · exact hrest n⟩
      | link target =>
        by_cases hlinks : links < linkLimit
        · by_cases ht : target.isEmpty = false
          · obtain ⟨R, hR⟩ := approach_append_name d dirOnly f (links + 1)
              (if (Pathname.ofText target).absolute then [] else cur)
              ((Pathname.ofText target).steps ++ pre)
            exact ⟨R, fun n => by
              rw [List.cons_append, approach_link hm (hrest n) hl hlinks ht, ← List.append_assoc,
                hR]⟩
          · exact ⟨.error .noSuchEntry, fun n => by
              rw [List.cons_append, approach, if_neg hm, hl]
              · dsimp only
                rw [if_neg (Nat.not_le.mpr hlinks), if_pos (by simpa using ht)]
                rfl
              · exact hrest n⟩
        · exact ⟨.error .symlinkLoop, fun n => by
            rw [List.cons_append, approach, if_neg hm, hl]
            · dsimp only
              rw [if_pos (Nat.not_lt.mp hlinks)]
              rfl
            · exact hrest n⟩

/-- A place below the root that looks up as something is a place of the disk. -/
theorem mem_nodes_of_lookup {d : Disk} {pl : Place} {n : String} {node : Node}
    (h : d.lookup (pl ++ [n]) = some node) : (pl ++ [n], node) ∈ d.nodes := by
  unfold lookup at h
  rw [if_neg (by simp)] at h
  obtain ⟨e, he, rfl⟩ := Option.map_eq_some_iff.mp h
  have hkey : e.1 = pl ++ [n] := by simpa using List.find?_some he
  rw [← hkey]
  exact List.mem_of_find?_eq_some he

end Disk

end WikiSync
