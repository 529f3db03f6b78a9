import WikiSync.Proofs.Watch.Interleaving

/-!
# What removing a root takes away

Removing a root from the pipeline drops three things keyed by the root itself: its rules, its
index with everything tracked in it, and its timer. Pending deletions are swept another way:
every pending deletion of a path under the root goes, whichever root owns the path. The two ways
agree for a registered root below which no other root is registered (`IndexSet.NoRootBelow`):
such a root owns exactly the paths under it (`IndexSet.owns_iff_startsWith`), so removing it
takes exactly its own rules, index, timer and pending deletions and leaves every other root's
alone (`Pipeline.removeRoot_frame`). A registered root below the removed one keeps its index and
still owns its paths, yet the pending deletions of those paths go with the removed root.

Starting a root hands its rules to the pipeline, which registers the root in the index, before
the source is tried. When the source fails, the start undoes this by removing the root again, so
the pipeline ends as removing the root leaves it, whatever it held of the root before the start
(`Watcher.startRoot_failure`). It is left as it was exactly when it held nothing of the root
(`Pipeline.removeRoot_eq_self_iff`); a root registered in the index before the start, as the
main root of an engine is, loses its index.
-/

namespace WikiSync

namespace IndexSet

/-- No registered root lies below `root` but `root` itself. -/
def NoRootBelow (s : IndexSet) (root : String) : Prop :=
  ∀ q ∈ s.roots, Path.startsWith q root = true → Path.components q = Path.components root

/-- A registered root with no other registered root below it owns exactly the paths under it. -/
theorem owns_iff_startsWith {s : IndexSet} {root : String} (hr : root ∈ s.roots)
    (hno : s.NoRootBelow root) (x : String) : s.Owns x root ↔ Path.startsWith x root = true := by
  refine ⟨fun h => h.2.1, fun hx => ⟨hr, hx, fun q hq hxq => ?_⟩⟩
  by_contra hlong
  have hbelow : Path.startsWith q root = true := by
    rw [Path.startsWith, List.isPrefixOf_iff_prefix] at hx hxq ⊢
    exact List.prefix_of_prefix_length_le hx hxq (by omega)
  exact hlong (le_of_eq (congrArg List.length (hno q hq hbelow)))

/-- Registering a root and deregistering it again is deregistering it. -/
theorem deregisterRoot_registerRoot (s : IndexSet) (root : String) :
    ((s.registerRoot root).1.deregisterRoot root).1 = (s.deregisterRoot root).1 := by
  unfold registerRoot
  split
  · rfl
  · simp [deregisterRoot, List.filter_append, FileIndex.new, Path.same_eq]

end IndexSet

namespace Pipeline

@[simp] theorem index_removeRoot (p : Pipeline) (root : String) :
    (p.removeRoot root).index = (p.index.deregisterRoot root).1 :=
  rfl

@[simp] theorem pending_removeRoot (p : Pipeline) (root : String) :
    (p.removeRoot root).pendingDeletes.pending =
      p.pendingDeletes.pending.filter fun e => !Path.startsWith e.1 root :=
  rfl

@[simp] theorem vcsTimers_removeRoot (p : Pipeline) (root : String) :
    (p.removeRoot root).vcsTimers.pending = FileIndex.eraseKey p.vcsTimers.pending root :=
  rfl

@[simp] theorem queue_removeRoot (p : Pipeline) (root : String) :
    (p.removeRoot root).queue = p.queue :=
  rfl

@[simp] theorem exclusions_removeRoot (p : Pipeline) (root : String) :
    (p.removeRoot root).exclusions = p.exclusions :=
  rfl

@[simp] theorem syncTimer_removeRoot (p : Pipeline) (root : String) :
    (p.removeRoot root).syncTimer = p.syncTimer :=
  rfl

theorem lookupKey_rules_removeRoot (p : Pipeline) (root : String) (k : List Component) :
    lookupKey (p.removeRoot root).rules k =
      if k = Path.components root then none else lookupKey p.rules k := by
  rw [Watcher.Pipeline.rules_removeRoot, lookupKey_eraseKey]

/-- Pending deletions are swept by the path, whichever root owns it. -/
theorem lookupKey_pending_removeRoot (p : Pipeline) (root x : String) :
    lookupKey (p.removeRoot root).pendingDeletes.pending (Path.components x) =
      if Path.startsWith x root then none
      else lookupKey p.pendingDeletes.pending (Path.components x) := by
  rw [pending_removeRoot]
  exact lookupKey_filter_key _ (fun k => (Path.components root).isPrefixOf k) _

theorem lookupKey_vcsTimers_removeRoot (p : Pipeline) (root : String) (k : List Component) :
    lookupKey (p.removeRoot root).vcsTimers.pending k =
      if k = Path.components root then none else lookupKey p.vcsTimers.pending k := by
  rw [vcsTimers_removeRoot, lookupKey_eraseKey]

/-- Removing a registered root takes away exactly what belongs to it when no other registered
root lies below it: its rules, its index and its timer go and those of every other root stay, a
pending deletion goes exactly when the root owns its path, and the queue, the exclusions and the
sync timer are left alone. A registered root below the removed one is another matter: it keeps
its index and still owns its paths, yet the pending deletions of those paths go with the removed
root. -/
theorem removeRoot_frame (p : Pipeline) (root : String) :
    (root ∈ p.index.roots → p.index.NoRootBelow root →
      (∀ k, lookupKey (p.removeRoot root).rules k =
        if k = Path.components root then none else lookupKey p.rules k) ∧
      (∀ r, (p.removeRoot root).index.index? r =
        if Path.same r root then none else p.index.index? r) ∧
      (∀ x, lookupKey (p.removeRoot root).pendingDeletes.pending (Path.components x) =
        if p.index.Owns x root then none
        else lookupKey p.pendingDeletes.pending (Path.components x)) ∧
      (∀ k, lookupKey (p.removeRoot root).vcsTimers.pending k =
        if k = Path.components root then none else lookupKey p.vcsTimers.pending k) ∧
      (p.removeRoot root).queue = p.queue ∧ (p.removeRoot root).exclusions = p.exclusions ∧
      (p.removeRoot root).syncTimer = p.syncTimer) ∧
    ∀ q ∈ p.index.roots, Path.startsWith q root = true →
      Path.components q ≠ Path.components root → ∀ x, p.index.Owns x q →
        (p.removeRoot root).index.Owns x q ∧
          lookupKey (p.removeRoot root).pendingDeletes.pending (Path.components x) = none := by
  refine ⟨fun hr hno => ⟨lookupKey_rules_removeRoot p root, fun r => ?_, fun x => ?_,
    lookupKey_vcsTimers_removeRoot p root, rfl, rfl, rfl⟩, ?_⟩
  · rw [index_removeRoot, IndexSet.index?_deregisterRoot]
  · have hiff := IndexSet.owns_iff_startsWith hr hno x
    rw [lookupKey_pending_removeRoot]
    by_cases hx : p.index.Owns x root
    · rw [if_pos (hiff.mp hx), if_pos hx]
    · rw [if_neg (mt hiff.mpr hx), if_neg hx]
  · intro q _ hbelow hne x hx
    have hunder : Path.startsWith x root = true := by
      have hxq := hx.2.1
      rw [Path.startsWith, List.isPrefixOf_iff_prefix] at hxq hbelow ⊢
      exact hbelow.trans hxq
    refine ⟨hx.deregisterRoot (by simpa [Path.same_eq] using hne), ?_⟩
    rw [lookupKey_pending_removeRoot, if_pos hunder]

/-- A pipeline over `/w`, with `/w/s` registered below it and `/v` beside them, and a removal of
`/w/s/x.tid` pending until 110. -/
def nestedRoots : Pipeline :=
  { Pipeline.new ⟨[FileIndex.new "/w", FileIndex.new "/w/s", FileIndex.new "/v"]⟩ {} (.new 0)
      ⟨100, 0, 0⟩ false with
    pendingDeletes := ⟨100, [("/w/s/x.tid", 110)]⟩ }

/-- Removing `/v` takes only what is its own, while removing `/w` cancels the pending removal of
`/w/s/x.tid`, which `/w/s` still owns. -/
theorem removeRoot_frame_nested :
    ("/v" ∈ nestedRoots.index.roots ∧ nestedRoots.index.NoRootBelow "/v" ∧
      (∀ k, lookupKey (nestedRoots.removeRoot "/v").rules k =
        if k = Path.components "/v" then none else lookupKey nestedRoots.rules k) ∧
      (∀ r, (nestedRoots.removeRoot "/v").index.index? r =
        if Path.same r "/v" then none else nestedRoots.index.index? r) ∧
      (∀ x, lookupKey (nestedRoots.removeRoot "/v").pendingDeletes.pending (Path.components x) =
        if nestedRoots.index.Owns x "/v" then none
        else lookupKey nestedRoots.pendingDeletes.pending (Path.components x)) ∧
      (∀ k, lookupKey (nestedRoots.removeRoot "/v").vcsTimers.pending k =
        if k = Path.components "/v" then none else lookupKey nestedRoots.vcsTimers.pending k) ∧
      (nestedRoots.removeRoot "/v").queue = nestedRoots.queue ∧
      (nestedRoots.removeRoot "/v").exclusions = nestedRoots.exclusions ∧
      (nestedRoots.removeRoot "/v").syncTimer = nestedRoots.syncTimer) ∧
    ("/w/s" ∈ nestedRoots.index.roots ∧ Path.startsWith "/w/s" "/w" = true ∧
      Path.components "/w/s" ≠ Path.components "/w" ∧
      nestedRoots.index.Owns "/w/s/x.tid" "/w/s" ∧
      lookupKey nestedRoots.pendingDeletes.pending (Path.components "/w/s/x.tid") = some 110 ∧
      (nestedRoots.removeRoot "/w").index.Owns "/w/s/x.tid" "/w/s" ∧
      lookupKey (nestedRoots.removeRoot "/w").pendingDeletes.pending
        (Path.components "/w/s/x.tid") = none) := by
  have hcw : Path.components "/w" = [.root, .normal "w"] := by
    simp +decide [Path.components, Path.pieces]
  have hcs : Path.components "/w/s" = [.root, .normal "w", .normal "s"] := by
    simp +decide [Path.components, Path.pieces]
  have hcv : Path.components "/v" = [.root, .normal "v"] := by
    simp +decide [Path.components, Path.pieces]
  have hcx : Path.components "/w/s/x.tid" = [.root, .normal "w", .normal "s", .normal "x.tid"] := by
    simp +decide [Path.components, Path.pieces]
  have hroots : nestedRoots.index.roots = ["/w", "/w/s", "/v"] := rfl
  have hv : "/v" ∈ nestedRoots.index.roots := by simp [hroots]
  have hs : "/w/s" ∈ nestedRoots.index.roots := by simp [hroots]
  have hno : nestedRoots.index.NoRootBelow "/v" := by
    intro q hq hbelow
    simp only [hroots, List.mem_cons, List.not_mem_nil, or_false] at hq
    rcases hq with rfl | rfl | rfl <;> simp_all [Path.startsWith]
  have hbelow : Path.startsWith "/w/s" "/w" = true := by simp [Path.startsWith, hcw, hcs]
  have hne : Path.components "/w/s" ≠ Path.components "/w" := by simp [hcw, hcs]
  have hown : nestedRoots.index.Owns "/w/s/x.tid" "/w/s" := by
    refine ⟨hs, by simp [Path.startsWith, hcs, hcx], fun r hr _ => ?_⟩
    simp only [hroots, List.mem_cons, List.not_mem_nil, or_false] at hr
    rcases hr with rfl | rfl | rfl <;> simp [hcw, hcs, hcv]
  have hpending : lookupKey nestedRoots.pendingDeletes.pending (Path.components "/w/s/x.tid") =
      some 110 := by
    simp [nestedRoots, lookupKey, hcx]
  exact ⟨⟨hv, hno, (removeRoot_frame nestedRoots "/v").1 hv hno⟩,
    ⟨hs, hbelow, hne, hown, hpending,
      (removeRoot_frame nestedRoots "/w").2 "/w/s" hs hbelow hne _ hown⟩⟩

/-- A pipeline holds nothing of a root: no rules for it, no index of it, no pending deletion of a
path under it and no timer for it. -/
structure HoldsNothingOf (p : Pipeline) (root : String) : Prop where
  /-- The root is not handled. -/
  rules : lookupKey p.rules (Path.components root) = none
  /-- The root is not registered in the index. -/
  index : p.index.isRegistered root = false
  /-- No removed file under the root waits out its grace period. -/
  pending : ∀ e ∈ p.pendingDeletes.pending, Path.startsWith e.1 root = false
  /-- The root's timer is not running. -/
  timer : p.vcsTimers.isPending root = false

/-- Removing a root changes nothing exactly when the pipeline holds nothing of it. -/
theorem removeRoot_eq_self_iff (p : Pipeline) (root : String) :
    p.removeRoot root = p ↔ p.HoldsNothingOf root := by
  have hrules : p.rules.filter (fun e => !Path.same e.1 root) = p.rules ↔
      lookupKey p.rules (Path.components root) = none := by
    rw [List.filter_eq_self, ← Option.not_isSome_iff_eq_none, ← any_same]
    simp
  have hindex : p.index.indexes.filter (fun ix => !Path.same ix.root root) = p.index.indexes ↔
      p.index.isRegistered root = false := by
    rw [List.filter_eq_self, IndexSet.isRegistered, List.any_eq_false]
    simp
  have hpending : p.pendingDeletes.pending.filter (fun e => !Path.startsWith e.1 root) =
      p.pendingDeletes.pending ↔ ∀ e ∈ p.pendingDeletes.pending, Path.startsWith e.1 root = false := by
    rw [List.filter_eq_self]
    simp
  have htimer : p.vcsTimers.pending.filter (fun e => !Path.same e.1 root) = p.vcsTimers.pending ↔
      p.vcsTimers.isPending root = false := by
    rw [List.filter_eq_self, Debouncer.isPending, List.any_eq_false]
    simp
  constructor
  · intro h
    refine ⟨hrules.mp ?_, hindex.mp ?_, hpending.mp ?_, htimer.mp ?_⟩
    · exact congrArg Pipeline.rules h
    · exact congrArg (fun q => q.index.indexes) h
    · exact congrArg (fun q => q.pendingDeletes.pending) h
    · exact congrArg (fun q => q.vcsTimers.pending) h
  · rintro ⟨hr, hi, hp, ht⟩
    unfold removeRoot IndexSet.deregisterRoot Debouncer.removeWhere Debouncer.remove
    rw [hrules.mpr hr, hindex.mpr hi, hpending.mpr hp, htimer.mpr ht]

/-- Handing a root's rules to the pipeline and removing the root again is removing it. -/
theorem removeRoot_addRoot (p : Pipeline) (rules : RootRules) :
    (p.addRoot rules).removeRoot rules.root = p.removeRoot rules.root := by
  have hrules : FileIndex.eraseKey (p.addRoot rules).rules rules.root =
      FileIndex.eraseKey p.rules rules.root := by
    rw [Watcher.Pipeline.rules_addRoot]
    exact eraseKey_setKey _ _ _
  have hindex : ((p.addRoot rules).index.deregisterRoot rules.root).1 =
      (p.index.deregisterRoot rules.root).1 :=
    IndexSet.deregisterRoot_registerRoot p.index rules.root
  unfold removeRoot
  simp only [FileIndex.eraseKey] at hrules
  rw [hrules, hindex]
  rfl

end Pipeline

namespace Watcher

/-- A failed start of a root not yet watched leaves the root stopped. When its patterns do not
compile the pipeline is untouched; when its source fails, the pipeline is as removing the root
leaves it, which is the pipeline before the start exactly when that held nothing of the root. A
root registered in the index before the start thus loses its index. -/
theorem startRoot_failure {w : Watcher} {d : Disk} {r : WatchRoot}
    (hnew : w.sources.contains r.root = false)
    (hfail : (w.startRoot d r).sources.contains r.root = false) :
    (w.startRoot d r).rootState r.root = .stopped ∧
      ((∃ e, r.rules = .error e) → (w.startRoot d r).pipeline = w.pipeline) ∧
      ((∃ rules, r.rules = .ok rules) →
        (w.startRoot d r).pipeline = w.pipeline.removeRoot r.root ∧
          ((w.startRoot d r).pipeline = w.pipeline ↔ w.pipeline.HoldsNothingOf r.root)) := by
  have hstopped : ∀ v : Watcher, (v.setState r.root .stopped).rootState r.root = .stopped :=
    fun v => by rw [rootState_eq, stageAt_setState, if_pos rfl]; rfl
  unfold Watcher.startRoot at hfail ⊢
  rw [if_neg (by simp [hnew])] at hfail ⊢
  cases hr : r.rules with
  | error e =>
    exact ⟨hstopped _, fun _ => rfl, fun ⟨_, h⟩ => by cases h⟩
  | ok rules =>
    rw [hr] at hfail
    dsimp only at hfail ⊢
    have hroot : rules.root = r.root := WatchRoot.root_of_rules hr
    split at hfail
    · rename_i w₃ src _
      have hin : (PathMap.insert w₃.sources r.root src).contains r.root = true := by
        rw [PathMap.contains_eq, PathMap.insert_eq_setKey, lookupKey_setKey, if_pos rfl]
        rfl
      exact absurd hin (by simpa [setState] using hfail)
    · rename_i w₃ hopen
      obtain ⟨cs, rfl, -⟩ := openSource_none hopen
      have hpipe : (w.pipeline.addRoot rules).removeRoot r.root = w.pipeline.removeRoot r.root := by
        rw [← hroot]
        exact Pipeline.removeRoot_addRoot _ _
      refine ⟨hstopped _, ?_, fun _ => ?_⟩
      · rintro ⟨_, h⟩
        cases h
      · show (w.pipeline.addRoot rules).removeRoot r.root = w.pipeline.removeRoot r.root ∧
          ((w.pipeline.addRoot rules).removeRoot r.root = w.pipeline ↔ w.pipeline.HoldsNothingOf r.root)
        rw [hpipe]
        exact ⟨rfl, Pipeline.removeRoot_eq_self_iff _ _⟩

/-- An engine's main root is registered in the index before its watch starts. When its source
fails, the start takes the root's index away with the rest. -/
theorem failed_start_drops_registered_index :
    let w : Watcher :=
      { pipeline := Pipeline.new (IndexSet.withRoot "w") {} (Exclusions.new 0) ⟨0, 0, 0⟩ true
        factory := .recording ⟨[], fun _ _ => true⟩
        initialRoots := []
        batchWindow := 0
        vcsOnlyWhenViewOpen := false }
    let r : WatchRoot := { root := "w" }
    w.sources.contains r.root = false ∧ (w.startRoot {} r).sources.contains r.root = false ∧
      (w.startRoot {} r).rootState r.root = .stopped ∧
      (w.startRoot {} r).pipeline = w.pipeline.removeRoot r.root ∧
      w.pipeline.index.isRegistered r.root = true ∧
      (w.startRoot {} r).pipeline.index.isRegistered r.root = false := by
  intro w r
  have hnew : w.sources.contains r.root = false := rfl
  have hfail : (w.startRoot {} r).sources.contains r.root = false := rfl
  have hrules : ∃ rules, r.rules = .ok rules := ⟨_, rfl⟩
  obtain ⟨hstop, -, hsrc⟩ := startRoot_failure hnew hfail
  have hpipe := (hsrc hrules).1
  have hreg : w.pipeline.index.isRegistered r.root = true := by
    simp [w, r, IndexSet.isRegistered, IndexSet.withRoot, FileIndex.new, Path.same_eq, Pipeline.new]
  refine ⟨hnew, hfail, hstop, hpipe, hreg, ?_⟩
  rw [hpipe]
  simp [w, r, IndexSet.isRegistered, IndexSet.deregisterRoot, IndexSet.withRoot, FileIndex.new, Path.same_eq, Pipeline.new]

end Watcher

end WikiSync
