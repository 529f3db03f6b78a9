import WikiSync.Proofs.Watch.Interleaving

/-!
# Replacing the ignore patterns of a root

The ignore patterns of a watched root are held three times: compiled in the pipeline's rules for
the root, by the root's source, and in the watched root as it was asked for. A request to replace
them compiles the new list for the root first, and does nothing when the root is not watched or
the list does not compile. A list that compiles goes to the pipeline's rules, then to the source,
then to the root as asked for, and a source that refuses it stops nothing: its refusal is only
logged. A notification source never refuses a list that compiles, since whether a list compiles
does not depend on the root it is compiled for (`IgnoreRules.new_reroot`); a source the host
supplies may refuse any list.

Along every run the roots held as asked for are the roots with a source (`Watcher.RootsKept`), and
those are the roots the pipeline handles (`Watcher.AgreesWith.source_iff_rules`). So a request to
replace a root's patterns ends in one of three ways: all three holders use the new list; the
watcher is left exactly as it was; or the root's source refused the list, and the pipeline's
rules and the root as asked for use it while the source keeps its own
(`Watcher.Reachable.replaceExclusions_outcomes`). The last outcome is neither all nor nothing
(`Watcher.refused_patterns_reach_rules_only`).
-/

namespace WikiSync

namespace IgnoreRules

/-- Whether a list of patterns compiles does not depend on the root: the lines compiled for one
root serve every other. -/
theorem new_reroot {root : String} {patterns : List String} {ig : IgnoreRules}
    (h : IgnoreRules.new root patterns = .ok ig) (root' : String) :
    IgnoreRules.new root' patterns = .ok { ig with root := root' } := by
  unfold IgnoreRules.new at h ⊢
  simp only [bind, Except.bind] at h ⊢
  split at h
  · cases h
  · rename_i lines _
    cases hset : Glob.setFailure? (lines.map (·.pattern)) with
    | some reason => simp [hset, throw, throwThe, MonadExceptOf.throw] at h
    | none =>
      simp only [hset, pure, Except.pure, Except.ok.injEq] at h ⊢
      subst h
      rfl

end IgnoreRules

namespace NotifySource

/-- A notification source takes every list of patterns that compiles: it keeps the list, and
compiles it for its root when it has one. -/
theorem updateExclusions_of_compiles {root : String} {patterns : List String} {ig : IgnoreRules}
    (h : IgnoreRules.new root patterns = .ok ig) (s : NotifySource) :
    (s.updateExclusions patterns).2 = .ok () ∧ (s.updateExclusions patterns).1.patterns = patterns ∧
      (s.updateExclusions patterns).1.root = s.root ∧
      ∀ own, s.root = some own →
        (s.updateExclusions patterns).1.rules = some { ig with root := own } := by
  have hupd : s.updateExclusions patterns =
      ({ s with patterns, rules := s.root.elim s.rules fun own => some { ig with root := own } },
        .ok ()) := by
    unfold updateExclusions rebuild
    cases hroot : s.root with
    | none => simp
    | some own =>
      simp [IgnoreRules.new_reroot h own, bind, Except.bind, pure, Except.pure]
  rw [hupd]
  exact ⟨rfl, rfl, rfl, fun own hown => by simp [hown]⟩

end NotifySource

/-- Whether a source has taken a list of ignore patterns: a notification source keeps the list,
compiled for its root when it has one; a recording source holds it. -/
def Source.Took (patterns : List String) : Source → Prop
  | .notify s => s.patterns = patterns ∧
      ∀ own, s.root = some own → ∃ ig, IgnoreRules.new own patterns = .ok ig ∧ s.rules = some ig
  | .recording _ held => held = patterns

namespace Watcher

variable {w : Watcher}

/-- All three holders of a root's ignore patterns use a list: the pipeline's rules for the root
are compiled from it, the root's source has taken it, and the root as asked for lists it. -/
structure TookPatterns (w : Watcher) (root : String) (patterns : List String) : Prop where
  /-- The pipeline's rules for the root are compiled from the list. -/
  rules : ∃ rr, lookupKey w.pipeline.rules (Path.components root) = some rr ∧
    IgnoreRules.new root patterns = .ok rr.ignore
  /-- The root's source has taken the list. -/
  source : ∃ src, w.sources.get? root = some src ∧ src.Took patterns
  /-- The root as asked for lists it. -/
  stored : ∃ r, w.roots.get? root = some r ∧ r.ignorePatterns = patterns

/-- Whether the source of a root refuses a list of patterns: it is one of the host's, and the host
refuses the list for the root the source watches. -/
def SourceRefuses (w : Watcher) (root : String) (patterns : List String) : Prop :=
  ∃ own held, w.sources.get? root = some (.recording own held) ∧ w.refuses (some own) patterns = true

/-- What a list the root's source refused leaves: the pipeline's rules for the root are compiled
from it and the root as asked for lists it, while every source is as it was in `w`. -/
structure RefusedPatterns (w w' : Watcher) (root : String) (patterns : List String) : Prop where
  /-- The pipeline's rules for the root are compiled from the list. -/
  rules : ∃ rr, lookupKey w'.pipeline.rules (Path.components root) = some rr ∧
    IgnoreRules.new root patterns = .ok rr.ignore
  /-- The root as asked for lists it. -/
  stored : ∃ r, w'.roots.get? root = some r ∧ r.ignorePatterns = patterns
  /-- The sources are left alone. -/
  sources : w'.sources = w.sources

/-- The roots held as asked for are the roots with a source. -/
def RootsKept (w : Watcher) : Prop :=
  ∀ k, (lookupKey w.roots k).isSome = (lookupKey w.sources k).isSome

theorem RootsKept.of_eq {w' : Watcher} (h : w.RootsKept) (hr : w'.roots = w.roots)
    (hs : w'.sources = w.sources) : w'.RootsKept := fun k => by
  rw [hr, hs]
  exact h k

/-- Setting a root in both tables keeps them holding the same roots. -/
theorem RootsKept.setKey {w' : Watcher} {root : String} {r : WatchRoot} {src : Source}
    (h : w.RootsKept) (hr : w'.roots = FileIndex.setKey w.roots root r)
    (hs : w'.sources = FileIndex.setKey w.sources root src) : w'.RootsKept := fun k => by
  rw [hr, hs, lookupKey_setKey, lookupKey_setKey]
  split
  · rfl
  · exact h k

/-- Erasing a root from both tables keeps them holding the same roots. -/
theorem RootsKept.eraseKey {w' : Watcher} {root : String} (h : w.RootsKept)
    (hr : w'.roots = FileIndex.eraseKey w.roots root)
    (hs : w'.sources = FileIndex.eraseKey w.sources root) : w'.RootsKept := fun k => by
  rw [hr, hs, lookupKey_eraseKey, lookupKey_eraseKey]
  split
  · rfl
  · exact h k

theorem stopRoot_roots (w : Watcher) (root : String) :
    (w.stopRoot root).roots = FileIndex.eraseKey w.roots root := by
  unfold Watcher.stopRoot
  split
  · rename_i src _
    cases src <;> rfl
  · rfl

theorem RootsKept.startRoot (h : w.RootsKept) (d : Disk) (r : WatchRoot) :
    (w.startRoot d r).RootsKept := by
  unfold Watcher.startRoot
  split
  · exact h
  · cases r.rules with
    | error e => exact h
    | ok rules =>
      dsimp only
      split
      · rename_i w₃ src hopen
        obtain ⟨cs, rfl, -⟩ := openSource_some hopen
        exact h.setKey rfl rfl
      · rename_i w₃ hopen
        obtain ⟨cs, rfl, -⟩ := openSource_none hopen
        exact h

theorem RootsKept.stopRoot (h : w.RootsKept) (root : String) : (w.stopRoot root).RootsKept :=
  h.eraseKey (stopRoot_roots w root) (stopRoot_sources w root)

theorem replaceExclusions_of_unknown {root : String} (patterns : List String)
    (h : w.roots.get? root = none) : w.replaceExclusions root patterns = w := by
  unfold Watcher.replaceExclusions
  rw [h]

theorem replaceExclusions_of_error {root : String} {patterns : List String} {e : WatchError}
    (h : IgnoreRules.new root patterns = .error e) : w.replaceExclusions root patterns = w := by
  unfold Watcher.replaceExclusions
  split
  · rfl
  · rw [h]

theorem pipeline_replaceExclusions {root : String} {patterns : List String} {r : WatchRoot}
    {ig : IgnoreRules} (hget : w.roots.get? root = some r)
    (hnew : IgnoreRules.new root patterns = .ok ig) :
    (w.replaceExclusions root patterns).pipeline = w.pipeline.updateIgnore root ig := by
  unfold Watcher.replaceExclusions
  rw [hget, hnew]
  dsimp only
  split
  · split <;> rfl
  · rfl
  · rfl

theorem roots_replaceExclusions {root : String} {patterns : List String} {r : WatchRoot}
    {ig : IgnoreRules} (hget : w.roots.get? root = some r)
    (hnew : IgnoreRules.new root patterns = .ok ig) :
    (w.replaceExclusions root patterns).roots = w.roots.insert root { r with ignorePatterns := patterns } := by
  unfold Watcher.replaceExclusions
  rw [hget, hnew]
  dsimp only
  split
  · split <;> rfl
  · rfl
  · rfl

/-- Replacing a watched root's patterns with a list that compiles leaves the sources as they
were, or sets a source for the root. -/
theorem sources_replaceExclusions {root : String} {patterns : List String} {r : WatchRoot}
    {ig : IgnoreRules} (hget : w.roots.get? root = some r)
    (hnew : IgnoreRules.new root patterns = .ok ig) :
    (w.replaceExclusions root patterns).sources = w.sources ∨
      ∃ src, (w.replaceExclusions root patterns).sources = w.sources.insert root src := by
  unfold Watcher.replaceExclusions
  rw [hget, hnew]
  dsimp only
  split
  · split
    · exact .inl rfl
    · exact .inr ⟨_, rfl⟩
  · exact .inr ⟨_, rfl⟩
  · exact .inl rfl

theorem RootsKept.replaceExclusions (h : w.RootsKept) (root : String) (patterns : List String) :
    (w.replaceExclusions root patterns).RootsKept := by
  cases hget : w.roots.get? root with
  | none =>
    rw [replaceExclusions_of_unknown patterns hget]
    exact h
  | some r =>
    cases hnew : IgnoreRules.new root patterns with
    | error e =>
      rw [replaceExclusions_of_error hnew]
      exact h
    | ok ig =>
      have hroot : (lookupKey w.roots (Path.components root)).isSome := by
        rw [← PathMap.get?_eq_lookupKey, hget]
        rfl
      have hsrc : (lookupKey w.sources (Path.components root)).isSome := by
        rw [← h, hroot]
      intro k
      rw [roots_replaceExclusions hget hnew, PathMap.insert_eq_setKey,
        isSome_lookupKey_setKey_of_isSome hroot, h k]
      rcases sources_replaceExclusions hget hnew with hs | ⟨src, hs⟩
      · rw [hs]
      · rw [hs, PathMap.insert_eq_setKey, isSome_lookupKey_setKey_of_isSome hsrc]

theorem RootsKept.foldl_startRoot (d : Disk) :
    ∀ (roots : List WatchRoot) {v : Watcher}, v.RootsKept →
      (roots.foldl (Watcher.startRoot · d) v).RootsKept
  | [], _, h => h
  | r :: rest, _, h => foldl_startRoot d rest (h.startRoot d r)

theorem RootsKept.foldl_stopRoot :
    ∀ (roots : List String) {v : Watcher}, v.RootsKept → (roots.foldl Watcher.stopRoot v).RootsKept
  | [], _, h => h
  | root :: rest, _, h => foldl_stopRoot rest (h.stopRoot root)

theorem dispatch_roots (w : Watcher) (s : Signals) : (w.dispatch s).roots = w.roots := by
  unfold Watcher.dispatch
  split <;> dsimp only <;> split <;> rfl

/-- Waking changes neither the roots as asked for nor the sources. -/
theorem wake_roots (w : Watcher) (d : Disk) (t : Nat) :
    (w.wake d t).roots = w.roots ∧ (w.wake d t).sources = w.sources := by
  have key : ∀ v : Watcher, v.roots = w.roots → v.sources = w.sources →
      ({ v with pipeline := (v.pipeline.tick d t).1 }.dispatch (v.pipeline.tick d t).2).roots =
          w.roots ∧
        ({ v with pipeline := (v.pipeline.tick d t).1 }.dispatch (v.pipeline.tick d t).2).sources =
          w.sources :=
    fun v hr hs => ⟨(dispatch_roots _ _).trans hr, (dispatch_frame _ _).1.trans hs⟩
  unfold Watcher.wake
  dsimp only
  split
  · split
    · exact key _ rfl rfl
    · exact key _ rfl rfl
  · exact key _ rfl rfl

theorem build_roots {s : WatcherSetup} (h : s.build = .ok w) : w.roots = [] := by
  unfold WatcherSetup.build at h
  cases hix : s.index with
  | none => simp [hix, bind, Except.bind, throw, throwThe, MonadExceptOf.throw] at h
  | some ix =>
    cases ht : s.hasTarget
    · simp [hix, ht, bind, Except.bind, pure, Except.pure, throw, throwThe,
        MonadExceptOf.throw] at h
    · simp only [hix, ht, bind, Except.bind, pure, Except.pure, Bool.not_true, Bool.false_eq_true,
        if_false, Except.ok.injEq] at h
      subst h
      rfl

/-- Every move keeps the roots held as asked for and the roots with a source alike. -/
theorem RootsKept.step {w' : Watcher} (h : w.RootsKept) (hs : Step w w') : w'.RootsKept := by
  cases hs with
  | addRoot r =>
    unfold Watcher.addRoot Watcher.send
    split <;> exact h
  | removeRoot root =>
    unfold Watcher.removeRoot Watcher.send
    split <;> exact h
  | updateExclusions root patterns =>
    unfold Watcher.updateExclusions Watcher.send
    split <;> exact h
  | shutdown => exact h
  | begin d _ _ => exact foldl_startRoot d _ (h.of_eq rfl rfl)
  | finish _ _ _ =>
    have hcancel : RootsKept { w with pipeline := w.pipeline.cancelAll } := h.of_eq rfl rfl
    exact foldl_stopRoot (w.sources.map (·.1)) hcancel
  | command d c rest _ _ _ _ =>
    have hpop : RootsKept { w with commands := rest } := h.of_eq rfl rfl
    cases c with
    | addRoot r => exact hpop.startRoot d r
    | removeRoot root => exact hpop.stopRoot root
    | updateExclusions root patterns => exact hpop.replaceExclusions root patterns
  | receive events =>
    unfold Watcher.receive
    split <;> exact h
  | wake d t _ =>
    obtain ⟨hr, hsrc⟩ := wake_roots w d t
    exact h.of_eq hr hsrc

/-- Along every run the roots held as asked for are the roots with a source. -/
theorem Reachable.rootsKept (h : w.Reachable) : w.RootsKept := by
  induction h with
  | built hb =>
    rename_i w₀
    intro k
    rw [build_roots hb, (build_eq hb).1, lookupKey_nil, lookupKey_nil]
    rfl
  | step _ hs ih => exact ih.step hs

/-- In a watcher in step whose roots as asked for are those with a source, a list that compiles
for a watched root reaches the pipeline's rules for the root and the root as asked for, whatever
its source does with it. -/
theorem replaceExclusions_rules_stored {root : String} {patterns : List String} {r : WatchRoot}
    {ig : IgnoreRules} (hagree : w.Agrees) (hkept : w.RootsKept) (hget : w.roots.get? root = some r)
    (hnew : IgnoreRules.new root patterns = .ok ig) :
    (∃ rr, lookupKey (w.replaceExclusions root patterns).pipeline.rules (Path.components root) =
        some rr ∧ IgnoreRules.new root patterns = .ok rr.ignore) ∧
      ∃ r', (w.replaceExclusions root patterns).roots.get? root = some r' ∧
        r'.ignorePatterns = patterns := by
  have hroot : (lookupKey w.roots (Path.components root)).isSome := by
    rw [← PathMap.get?_eq_lookupKey, hget]
    rfl
  obtain ⟨rr, hrr⟩ : ∃ rr, lookupKey w.pipeline.rules (Path.components root) = some rr :=
    Option.isSome_iff_exists.mp (by rw [← hagree.source_iff_rules, ← hkept]; exact hroot)
  have hrules := lookupKey_map_update w.pipeline.rules root (fun rules => { rules with ignore := ig })
    (Path.components root)
  rw [if_pos rfl, hrr] at hrules
  refine ⟨⟨{ rr with ignore := ig }, ?_, hnew⟩, ⟨{ r with ignorePatterns := patterns }, ?_, rfl⟩⟩
  · rw [pipeline_replaceExclusions hget hnew]
    exact hrules
  · rw [roots_replaceExclusions hget hnew, PathMap.get?_eq_lookupKey, PathMap.insert_eq_setKey,
      lookupKey_setKey, if_pos rfl]

/-- In a watcher in step whose roots as asked for are those with a source, a list that compiles
for a watched root and that the root's source does not refuse reaches all three holders. -/
theorem replaceExclusions_took {root : String} {patterns : List String} {r : WatchRoot}
    {ig : IgnoreRules} (hagree : w.Agrees) (hkept : w.RootsKept) (hget : w.roots.get? root = some r)
    (hnew : IgnoreRules.new root patterns = .ok ig) (hacc : ¬ w.SourceRefuses root patterns) :
    (w.replaceExclusions root patterns).TookPatterns root patterns := by
  obtain ⟨hrules, hstored⟩ := replaceExclusions_rules_stored hagree hkept hget hnew
  have hsrc : (lookupKey w.sources (Path.components root)).isSome := by
    rw [← hkept, ← PathMap.get?_eq_lookupKey, hget]
    rfl
  obtain ⟨s₀, hs₀⟩ := Option.isSome_iff_exists.mp hsrc
  rw [← PathMap.get?_eq_lookupKey] at hs₀
  have hsources : ∀ src, (w.sources.insert root src).get? root = some src := fun src => by
    rw [PathMap.get?_eq_lookupKey, PathMap.insert_eq_setKey, lookupKey_setKey, if_pos rfl]
  refine ⟨hrules, ?_, hstored⟩
  unfold Watcher.replaceExclusions
  rw [hget, hnew]
  dsimp only
  rw [hs₀]
  cases s₀ with
  | recording own held =>
    have hrefuse : w.refuses (some own) patterns = false :=
      Bool.eq_false_iff.2 fun h => hacc ⟨own, held, hs₀, h⟩
    dsimp only
    rw [if_neg (by simpa [record, refuses] using hrefuse)]
    exact ⟨.recording own patterns, hsources _, rfl⟩
  | notify ns =>
    dsimp only
    obtain ⟨-, hpat, hroot', hrules'⟩ := NotifySource.updateExclusions_of_compiles hnew ns
    refine ⟨.notify (ns.updateExclusions patterns).1, hsources _, hpat, fun own hown => ?_⟩
    rw [hroot'] at hown
    exact ⟨_, IgnoreRules.new_reroot hnew own, hrules' own hown⟩

/-- A list that compiles for a watched root but that the root's source refuses still reaches the
pipeline's rules for the root and the root as asked for, while the source keeps its own. -/
theorem replaceExclusions_refused {root : String} {patterns : List String} {r : WatchRoot}
    {ig : IgnoreRules} (hagree : w.Agrees) (hkept : w.RootsKept) (hget : w.roots.get? root = some r)
    (hnew : IgnoreRules.new root patterns = .ok ig) (hrefuse : w.SourceRefuses root patterns) :
    RefusedPatterns w (w.replaceExclusions root patterns) root patterns := by
  obtain ⟨hrules, hstored⟩ := replaceExclusions_rules_stored hagree hkept hget hnew
  obtain ⟨own, held, hs₀, hno⟩ := hrefuse
  refine ⟨hrules, hstored, ?_⟩
  unfold Watcher.replaceExclusions
  rw [hget, hnew]
  dsimp only
  rw [hs₀]
  dsimp only
  rw [if_pos (by simpa [record, refuses] using hno)]
  rfl

/-- Replacing the ignore patterns of a root ends in one of three ways along every run. When the
root is watched, the new list compiles and the root's source does not refuse it, the pipeline's
rules for the root, the root's source and the root as asked for all use the new list. When the
root is not watched or the list does not compile, the watcher is left exactly as it was. When
the root's source is a host's source that refuses the list, the pipeline's rules for the root and
the root as asked for use the new list while every source is left as it was: the update is then
neither all nor nothing. -/
theorem Reachable.replaceExclusions_outcomes (h : w.Reachable) (root : String)
    (patterns : List String) :
    (w.roots.contains root = true ∧ (∃ ig, IgnoreRules.new root patterns = .ok ig) ∧
        ¬ w.SourceRefuses root patterns ∧
        (w.replaceExclusions root patterns).TookPatterns root patterns) ∨
      ((w.roots.contains root = false ∨ ∀ ig, IgnoreRules.new root patterns ≠ .ok ig) ∧
        w.replaceExclusions root patterns = w) ∨
      (w.roots.contains root = true ∧ (∃ ig, IgnoreRules.new root patterns = .ok ig) ∧
        w.SourceRefuses root patterns ∧
        RefusedPatterns w (w.replaceExclusions root patterns) root patterns) := by
  cases hget : w.roots.get? root with
  | none =>
    have hcontains : w.roots.contains root = false := by
      rw [PathMap.contains_eq, ← PathMap.get?_eq_lookupKey, hget]
      rfl
    exact .inr (.inl ⟨.inl hcontains, replaceExclusions_of_unknown patterns hget⟩)
  | some r =>
    have hcontains : w.roots.contains root = true := by
      rw [PathMap.contains_eq, ← PathMap.get?_eq_lookupKey, hget]
      rfl
    cases hnew : IgnoreRules.new root patterns with
    | error e => exact .inr (.inl ⟨.inr (fun _ h' => by cases h'), replaceExclusions_of_error hnew⟩)
    | ok ig =>
      by_cases hrefuse : w.SourceRefuses root patterns
      · exact .inr (.inr ⟨hcontains, ⟨ig, rfl⟩, hrefuse,
          replaceExclusions_refused h.agrees h.rootsKept hget hnew hrefuse⟩)
      · exact .inl ⟨hcontains, ⟨ig, rfl⟩, hrefuse,
          replaceExclusions_took h.agrees h.rootsKept hget hnew hrefuse⟩

/-- A loop begun on one root whose host source takes the patterns it starts with and refuses every
later list: a new list for the root, here a lone comment line, reaches the pipeline's rules and
the root as asked for, while the source keeps the empty list it started with. -/
theorem refused_patterns_reach_rules_only :
    ∃ w : Watcher, w.Reachable ∧ w.SourceRefuses "w" ["#"] ∧
      RefusedPatterns w (w.replaceExclusions "w" ["#"]) "w" ["#"] ∧
      ¬ (w.replaceExclusions "w" ["#"]).TookPatterns "w" ["#"] ∧
      w.replaceExclusions "w" ["#"] ≠ w := by
  let setup : WatcherSetup :=
    { index := some {}
      roots := [{ root := "w" }]
      hasTarget := true
      factory := .recording ⟨[], fun own _ => own.isSome⟩ }
  have hb : setup.build = .ok _ := rfl
  obtain ⟨w, hw, hno, hsrc, hroot⟩ : ∃ w : Watcher, w.Reachable ∧
      w.refuses (some "w") ["#"] = true ∧
      w.sources.get? "w" = some (.recording "w" []) ∧ w.roots.get? "w" = some { root := "w" } :=
    ⟨_, Reachable.step (.built hb) (.begin _ {} rfl rfl), rfl,
      by simp [setup, Watcher.startRoot, PathMap.contains, PathMap.insert, PathMap.get?,
        Path.same_eq, WatchRoot.rules, IgnoreRules.new, Watcher.openSource, Watcher.setState,
        Watcher.record, Glob.setFailure?, bind, Except.bind, pure, Except.pure],
      by simp [setup, Watcher.startRoot, PathMap.contains, PathMap.insert, PathMap.get?,
        Path.same_eq, WatchRoot.rules, IgnoreRules.new, Watcher.openSource, Watcher.setState,
        Watcher.record, Glob.setFailure?, bind, Except.bind, pure, Except.pure]⟩
  have hrefuse : w.SourceRefuses "w" ["#"] := ⟨"w", [], hsrc, hno⟩
  rcases hw.replaceExclusions_outcomes "w" ["#"] with ⟨-, -, hacc, -⟩ | ⟨hno, -⟩ |
      ⟨-, -, -, hpart⟩
  · exact absurd hrefuse hacc
  · rcases hno with hno | hno
    · rw [PathMap.contains_eq, ← PathMap.get?_eq_lookupKey, hroot] at hno
      cases hno
    · have hcomp : IgnoreRules.new "w" ["#"] = .ok { root := "w" } := by
        simp [IgnoreRules.new, IgnoreLine.read?, Glob.setFailure?, bind, Except.bind, pure,
          Except.pure]
      exact (hno _ hcomp).elim
  · refine ⟨w, hw, hrefuse, hpart, fun htook => ?_, fun heq => ?_⟩
    · obtain ⟨src, hget, hheld⟩ := htook.source
      rw [hpart.sources, hsrc] at hget
      cases hget
      simp [Source.Took] at hheld
    · obtain ⟨r', hr', hpat⟩ := hpart.stored
      rw [heq, hroot] at hr'
      cases hr'
      exact absurd hpat (by decide)

end Watcher

end WikiSync
