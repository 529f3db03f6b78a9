import WikiSync.Proofs.Watch.Grace
import WikiSync.Proofs.Watch.Timing

/-!
# The watch-state protocol

A watcher is run by two parties that share the stage of each root. The handle asks for roots to
be watched or dropped and for their patterns to be replaced, marking a root it asks for as
starting at once, and asks the loop to stop; its requests reach the loop in order, and fail once
the loop has ended. The loop first starts its initial roots one by one, then stops when asked
to, or handles the oldest request.

`Watcher.AgreesWith` is what the two parties keep in step: a root has a source exactly when the
pipeline handles its events, a root marked watching has a source, a root with a source is marked
watching or starting again, and a root marked starting waits for the loop, in the initial roots,
in a request not yet handled, or among the roots the loop is about to start, unless the loop has
ended. The calls made on recording sources balance: every start on a root is matched by a stop,
or by the source still watching it.

The agreement is a conjunction of facts about one root at a time (`Watcher.AgreesAt`) and a few
about the whole watcher, so each move is shown to keep it by looking at the one root it touches
(`Watcher.AgreesWith.of_frame`) or at none (`Watcher.AgreesWith.of_same`). Starting a root owed a
start, stopping a root, replacing a root's patterns, asking for a root and ending all keep it.
-/

namespace WikiSync

namespace PathMap

variable {α : Type}

theorem get?_eq_lookupKey (m : PathMap α) (p : String) : m.get? p = lookupKey m (Path.components p) :=
  find?_same m p

theorem contains_eq (m : PathMap α) (p : String) :
    m.contains p = (lookupKey m (Path.components p)).isSome :=
  any_same m p

theorem insert_eq_setKey (m : PathMap α) (p : String) (v : α) : m.insert p v = FileIndex.setKey m p v :=
  rfl

theorem erase_eq_eraseKey (m : PathMap α) (p : String) : m.erase p = FileIndex.eraseKey m p :=
  rfl

end PathMap

theorem IgnoreRules.root_of_new {root : String} {patterns : List String} {ig : IgnoreRules}
    (h : IgnoreRules.new root patterns = .ok ig) : ig.root = root := by
  unfold IgnoreRules.new at h
  simp only [bind, Except.bind] at h
  split at h
  · cases h
  · split at h
    · cases h
    · cases h
      rfl

theorem WatchRoot.root_of_rules {r : WatchRoot} {rules : RootRules} (h : r.rules = .ok rules) :
    rules.root = r.root := by
  unfold WatchRoot.rules at h
  simp only [bind, Except.bind] at h
  split at h
  · cases h
  · rename_i ig hig
    cases h
    exact IgnoreRules.root_of_new hig


/-- The root a recording source watches. -/
def Source.recordingRoot? : Source → Option String
  | .recording root _ => some root
  | .notify _ => none

namespace SourceCall

/-- Whether a call started a recording source on a root with components `k`. -/
def startsAt (k : List Component) : SourceCall → Bool
  | .start root => Path.components root == k
  | _ => false

/-- Whether a call stopped a recording source on a root with components `k`. -/
def stopsAt (k : List Component) : SourceCall → Bool
  | .stop root => Path.components root == k
  | _ => false

end SourceCall

/-- Whether a request asks for a root with components `k` to be watched. -/
def Command.asksFor (k : List Component) : Command → Bool
  | .addRoot r => Path.components r.root == k
  | _ => false

namespace Watcher

/-- The stage of the root with components `k`, if one was ever asked for. -/
def stageAt (w : Watcher) (k : List Component) : Option WatchState :=
  lookupKey w.states k

/-- Whether a recording source watches the root with components `k`: one or none. -/
def recordingAt (w : Watcher) (k : List Component) : Nat :=
  if ((lookupKey w.sources k).bind Source.recordingRoot?).isSome then 1 else 0

theorem rootState_eq (w : Watcher) (root : String) :
    w.rootState root = (w.stageAt (Path.components root)).getD .stopped := by
  rw [rootState, PathMap.get?_eq_lookupKey, stageAt]

/-- What the two parties keep in step. `toStart` lists roots the loop is about to start besides
its initial roots. -/
structure AgreesWith (toStart : List WatchRoot) (w : Watcher) : Prop where
  /-- A root has a source exactly when the pipeline handles its events. -/
  source_iff_rules : ∀ k, (lookupKey w.sources k).isSome = (lookupKey w.pipeline.rules k).isSome
  /-- A root marked watching has a source. -/
  watching_source : ∀ k, w.stageAt k = some .watching → (lookupKey w.sources k).isSome
  /-- A root with a source is marked watching, or starting again. -/
  source_marked : ∀ k, (lookupKey w.sources k).isSome →
    w.stageAt k = some .watching ∨ w.stageAt k = some .starting
  /-- A root marked starting waits for the loop, unless the loop has ended. -/
  starting_waits : ∀ k, w.stageAt k = some .starting → w.ended = true ∨
    (∃ c ∈ w.commands, c.asksFor k = true) ∨ ∃ r ∈ w.initialRoots ++ toStart, Path.components r.root = k
  /-- The initial roots wait only until the loop begins. -/
  begun_started : w.begun = true → w.initialRoots = []
  /-- No two sources watch one root. -/
  sources_nodup : (w.sources.map (Path.components ·.1)).Nodup
  /-- A recording source watches the root it is kept under. -/
  recording_root : ∀ k src root, lookupKey w.sources k = some src → src.recordingRoot? = some root →
    Path.components root = k
  /-- Every start of a recording source is matched by a stop, or by the source still watching. -/
  calls_balance : ∀ k, w.calls.countP (SourceCall.startsAt k) =
    w.calls.countP (SourceCall.stopsAt k) + w.recordingAt k
  /-- Once the loop has ended, no source is left and no request waits. -/
  ended_clear : w.ended = true → w.sources = [] ∧ w.commands = []

/-- What the two parties keep in step, with no root about to be started. -/
abbrev Agrees (w : Watcher) : Prop := AgreesWith [] w

variable {toStart : List WatchRoot} {w : Watcher}

theorem openSource_spec (w : Watcher) (d : Disk) (r : WatchRoot) :
    ∃ cs : List SourceCall, (w.openSource d r).1 = { w with calls := w.calls ++ cs } ∧
      (∀ k, cs.countP (SourceCall.stopsAt k) = 0) ∧
      (∀ k, cs.countP (SourceCall.startsAt k) =
        if ((w.openSource d r).2.bind Source.recordingRoot?).isSome ∧ Path.components r.root = k
        then 1 else 0) ∧
      ∀ src root, (w.openSource d r).2 = some src → src.recordingRoot? = some root → root = r.root := by
  generalize hres : w.openSource d r = res
  unfold openSource at hres
  split at hres
  · dsimp only at hres
    split at hres
    · subst hres
      exact ⟨[.exclusions none r.ignorePatterns], rfl, fun _ => rfl, fun _ => by simp [SourceCall.startsAt],
        fun _ _ h => by cases h⟩
    · split at hres
      · subst hres
        exact ⟨[.exclusions none r.ignorePatterns, .startFailed r.root], by simp [record],
          fun _ => rfl, fun _ => by simp [SourceCall.startsAt], fun _ _ h => by cases h⟩
      · subst hres
        refine ⟨[.exclusions none r.ignorePatterns, .start r.root], by simp [record], fun _ => rfl,
          fun k => ?_, fun src root h hroot => ?_⟩
        · by_cases hk : Path.components r.root = k <;>
            simp [SourceCall.startsAt, Source.recordingRoot?, hk]
        · cases h
          cases hroot
          rfl
  · dsimp only at hres
    split at hres
    · subst hres
      exact ⟨[], by rw [List.append_nil], fun _ => rfl, fun _ => by simp, fun _ _ h => by cases h⟩
    · split at hres
      · subst hres
        refine ⟨[], by rw [List.append_nil], fun _ => rfl, fun _ => by simp [Source.recordingRoot?],
          fun _ _ h hr => ?_⟩
        cases h
        cases hr
      · subst hres
        exact ⟨[], by rw [List.append_nil], fun _ => rfl, fun _ => by simp, fun _ _ h => by cases h⟩

theorem stageAt_setState (w : Watcher) (root : String) (st : WatchState) (k : List Component) :
    (w.setState root st).stageAt k = if k = Path.components root then some st else w.stageAt k :=
  lookupKey_setKey _ _ _ _

/-- A root marked starting waits for the loop: the loop has ended, a request not yet handled asks
for it, or it is among the roots the loop is about to start. -/
def Waits (toStart : List WatchRoot) (w : Watcher) (k : List Component) : Prop :=
  w.ended = true ∨ (∃ c ∈ w.commands, c.asksFor k = true) ∨
    ∃ r ∈ w.initialRoots ++ toStart, Path.components r.root = k

/-- What the two parties keep in step about the root with components `k`. -/
structure AgreesAt (toStart : List WatchRoot) (w : Watcher) (k : List Component) : Prop where
  source_iff_rules : (lookupKey w.sources k).isSome = (lookupKey w.pipeline.rules k).isSome
  watching_source : w.stageAt k = some .watching → (lookupKey w.sources k).isSome
  source_marked : (lookupKey w.sources k).isSome →
    w.stageAt k = some .watching ∨ w.stageAt k = some .starting
  starting_waits : w.stageAt k = some .starting → w.Waits toStart k
  recording_root : ∀ src root, lookupKey w.sources k = some src → src.recordingRoot? = some root →
    Path.components root = k
  calls_balance : w.calls.countP (SourceCall.startsAt k) =
    w.calls.countP (SourceCall.stopsAt k) + w.recordingAt k

theorem AgreesWith.agreesAt (h : AgreesWith toStart w) (k : List Component) :
    AgreesAt toStart w k :=
  ⟨h.source_iff_rules k, h.watching_source k, h.source_marked k, h.starting_waits k,
    h.recording_root k, h.calls_balance k⟩

theorem AgreesWith.of_agreesAt (hat : ∀ k, AgreesAt toStart w k)
    (hbegun : w.begun = true → w.initialRoots = [])
    (hnodup : (w.sources.map (Path.components ·.1)).Nodup)
    (hended : w.ended = true → w.sources = [] ∧ w.commands = []) : AgreesWith toStart w :=
  ⟨fun k => (hat k).source_iff_rules, fun k => (hat k).watching_source,
    fun k => (hat k).source_marked, fun k => (hat k).starting_waits, hbegun, hnodup,
    fun k => (hat k).recording_root, fun k => (hat k).calls_balance, hended⟩

theorem recordingAt_congr {w w' : Watcher} {k : List Component}
    (hs : lookupKey w'.sources k = lookupKey w.sources k) : w'.recordingAt k = w.recordingAt k := by
  unfold recordingAt
  rw [hs]

/-- What is kept about a root carries over to a watcher that looks the same at that root. -/
theorem AgreesAt.congr {toStart' : List WatchRoot} {w' : Watcher} {k : List Component}
    (h : AgreesAt toStart w k) (hs : lookupKey w'.sources k = lookupKey w.sources k)
    (hr : (lookupKey w'.pipeline.rules k).isSome = (lookupKey w.pipeline.rules k).isSome)
    (hst : w'.stageAt k = w.stageAt k)
    (hstart : w'.calls.countP (SourceCall.startsAt k) = w.calls.countP (SourceCall.startsAt k))
    (hstop : w'.calls.countP (SourceCall.stopsAt k) = w.calls.countP (SourceCall.stopsAt k))
    (hw : w.Waits toStart k → w'.Waits toStart' k) : AgreesAt toStart' w' k := by
  refine ⟨?_, fun hk => ?_, fun hk => ?_, fun hk => hw (h.starting_waits (hst ▸ hk)),
    fun src root hsrc => h.recording_root src root (hs ▸ hsrc), ?_⟩
  · rw [hs, hr]
    exact h.source_iff_rules
  · rw [hs]
    exact h.watching_source (hst ▸ hk)
  · rw [hst]
    exact h.source_marked (hs ▸ hk)
  · rw [hstart, hstop, recordingAt_congr hs]
    exact h.calls_balance

/-- A root marked watching exactly when it has a source, and stopped otherwise, waits for
nothing. -/
theorem agreesAt_of_settled {k : List Component}
    (hstage : w.stageAt k = some (if (lookupKey w.sources k).isSome then .watching else .stopped))
    (hiff : (lookupKey w.sources k).isSome = (lookupKey w.pipeline.rules k).isSome)
    (hroot : ∀ src root, lookupKey w.sources k = some src → src.recordingRoot? = some root →
      Path.components root = k)
    (hbalance : w.calls.countP (SourceCall.startsAt k) =
      w.calls.countP (SourceCall.stopsAt k) + w.recordingAt k) : AgreesAt toStart w k := by
  refine ⟨hiff, fun hk => ?_, fun hk => .inl (by rw [hstage, if_pos hk]), fun hk => ?_, hroot,
    hbalance⟩
  · rw [hstage] at hk
    split at hk
    · assumption
    · cases hk
  · rw [hstage] at hk
    split at hk <;> cases hk

theorem openSource_some {w w' : Watcher} {d : Disk} {r : WatchRoot} {src : Source}
    (h : w.openSource d r = (w', some src)) :
    ∃ cs : List SourceCall, w' = { w with calls := w.calls ++ cs } ∧
      (∀ k, cs.countP (SourceCall.stopsAt k) = 0) ∧
      (∀ k, cs.countP (SourceCall.startsAt k) =
        if (src.recordingRoot?).isSome ∧ Path.components r.root = k then 1 else 0) ∧
      ∀ root, src.recordingRoot? = some root → root = r.root := by
  obtain ⟨cs, hw, hstop, hstart, hroot⟩ := openSource_spec w d r
  rw [h] at hw hstart hroot
  exact ⟨cs, hw, hstop, hstart, fun root => hroot src root rfl⟩

theorem openSource_none {w w' : Watcher} {d : Disk} {r : WatchRoot}
    (h : w.openSource d r = (w', none)) :
    ∃ cs : List SourceCall, w' = { w with calls := w.calls ++ cs } ∧
      ∀ k, cs.countP (SourceCall.stopsAt k) = 0 ∧ cs.countP (SourceCall.startsAt k) = 0 := by
  obtain ⟨cs, hw, hstop, hstart, -⟩ := openSource_spec w d r
  rw [h] at hw hstart
  exact ⟨cs, hw, fun k => ⟨hstop k, by simpa using hstart k⟩⟩

theorem Pipeline.rules_addRoot (p : Pipeline) (rules : RootRules) :
    (p.addRoot rules).rules = FileIndex.setKey p.rules rules.root rules :=
  rfl

theorem Pipeline.rules_removeRoot (p : Pipeline) (root : String) :
    (p.removeRoot root).rules = FileIndex.eraseKey p.rules root :=
  rfl

/-- Leaving the list of roots to start, the root being started no longer waits on it; every
other root waits as it did. -/
theorem Waits.of_cons {w' : Watcher} {r : WatchRoot} {k : List Component} (hw : w.Waits (r :: toStart) k)
    (hk : k ≠ Path.components r.root) (he : w'.ended = w.ended) (hc : w'.commands = w.commands)
    (hi : w'.initialRoots = w.initialRoots) : w'.Waits toStart k := by
  rcases hw with hend | ⟨c, hc', hask⟩ | ⟨r', hr', hroot⟩
  · exact .inl (he ▸ hend)
  · exact .inr (.inl ⟨c, hc ▸ hc', hask⟩)
  · refine .inr (.inr ⟨r', ?_, hroot⟩)
    rw [hi]
    rcases List.mem_append.mp hr' with hr' | hr'
    · exact List.mem_append_left _ hr'
    · rcases List.mem_cons.mp hr' with rfl | hr'
      · exact absurd hroot.symm hk
      · exact List.mem_append_right _ hr'

/-- A change confined to the root with components `k` keeps the two parties in step, when the
root agrees afterwards: every other root keeps its source, rules, stage and calls, and waits as
it did. -/
theorem AgreesWith.of_frame {toStart' : List WatchRoot} {w' : Watcher} (h : AgreesWith toStart w)
    (k : List Component)
    (hsrc : ∀ k', k' ≠ k → lookupKey w'.sources k' = lookupKey w.sources k')
    (hrules : ∀ k', k' ≠ k →
      (lookupKey w'.pipeline.rules k').isSome = (lookupKey w.pipeline.rules k').isSome)
    (hstage : ∀ k', k' ≠ k → w'.stageAt k' = w.stageAt k')
    (hstarts : ∀ k', k' ≠ k →
      w'.calls.countP (SourceCall.startsAt k') = w.calls.countP (SourceCall.startsAt k'))
    (hstops : ∀ k', k' ≠ k →
      w'.calls.countP (SourceCall.stopsAt k') = w.calls.countP (SourceCall.stopsAt k'))
    (hwaits : ∀ k', k' ≠ k → w.Waits toStart k' → w'.Waits toStart' k')
    (hat : AgreesAt toStart' w' k) (hbegun : w'.begun = true → w'.initialRoots = [])
    (hnodup : (w'.sources.map (Path.components ·.1)).Nodup)
    (hended : w'.ended = true → w'.sources = [] ∧ w'.commands = []) : AgreesWith toStart' w' := by
  refine AgreesWith.of_agreesAt (fun k' => ?_) hbegun hnodup hended
  by_cases hk : k' = k
  · exact hk ▸ hat
  · exact (h.agreesAt k').congr (hsrc k' hk) (hrules k' hk) (hstage k' hk) (hstarts k' hk)
      (hstops k' hk) (hwaits k' hk)

/-- Starting a root of the list of roots to start keeps the two parties in step: the root ends up
watching with a source, or stopped without one, and every other root is left alone. -/
theorem AgreesWith.startRoot {r : WatchRoot} (h : AgreesWith (r :: toStart) w)
    (hend : w.ended = false) (d : Disk) : AgreesWith toStart (w.startRoot d r) := by
  have hcount : ∀ (cs : List SourceCall) (P : SourceCall → Bool),
      (w.calls ++ cs).countP P = w.calls.countP P + cs.countP P := fun cs P => List.countP_append
  have hwaits : ∀ {w' : Watcher}, w'.ended = w.ended → w'.commands = w.commands →
      w'.initialRoots = w.initialRoots → ∀ k', k' ≠ Path.components r.root →
        w.Waits (r :: toStart) k' → w'.Waits toStart k' :=
    fun he hc hi k' hk hw => hw.of_cons hk he hc hi
  have hstates : ∀ (m : PathMap WatchState) (st : WatchState) k', k' ≠ Path.components r.root →
      lookupKey (FileIndex.setKey m r.root st) k' = lookupKey m k' := fun m st k' hk => by
    rw [lookupKey_setKey, if_neg hk]
  unfold Watcher.startRoot
  by_cases hsrc : w.sources.contains r.root = true
  · rw [if_pos hsrc]
    have hsome : (lookupKey w.sources (Path.components r.root)).isSome := by
      rwa [← PathMap.contains_eq]
    have hstage : lookupKey (FileIndex.setKey w.states r.root .watching) (Path.components r.root) =
        some (if (lookupKey w.sources (Path.components r.root)).isSome then .watching else .stopped) := by
      rw [lookupKey_setKey, if_pos rfl, if_pos hsome]
    exact h.of_frame _ (fun _ _ => rfl) (fun _ _ => rfl) (hstates _ _) (fun _ _ => rfl)
      (fun _ _ => rfl) (hwaits rfl rfl rfl)
      (agreesAt_of_settled hstage (h.source_iff_rules _) (h.recording_root _) (h.calls_balance _))
      h.begun_started h.sources_nodup h.ended_clear
  rw [if_neg hsrc]
  have hnone : lookupKey w.sources (Path.components r.root) = none := by
    rw [PathMap.contains_eq] at hsrc
    simpa using hsrc
  have hnorec : w.recordingAt (Path.components r.root) = 0 := by simp [recordingAt, hnone]
  have hstopped : ∀ m : PathMap WatchState,
      lookupKey (FileIndex.setKey (FileIndex.setKey m r.root .starting) r.root .stopped)
        (Path.components r.root) =
      some (if (lookupKey w.sources (Path.components r.root)).isSome then .watching else .stopped) :=
    fun m => by rw [lookupKey_setKey, if_pos rfl, hnone]; rfl
  have htwice : ∀ (m : PathMap WatchState) (st : WatchState) k', k' ≠ Path.components r.root →
      lookupKey (FileIndex.setKey (FileIndex.setKey m r.root .starting) r.root st) k' =
        lookupKey m k' := fun m st k' hk => by
    rw [hstates _ _ k' hk, hstates _ _ k' hk]
  cases hr : r.rules with
  | error e =>
    exact h.of_frame _ (fun _ _ => rfl) (fun _ _ => rfl) (htwice _ _) (fun _ _ => rfl)
      (fun _ _ => rfl) (hwaits rfl rfl rfl)
      (agreesAt_of_settled (hstopped _) (h.source_iff_rules _) (h.recording_root _)
        (h.calls_balance _))
      h.begun_started h.sources_nodup h.ended_clear
  | ok rules =>
    dsimp only
    have hroot : Path.components rules.root = Path.components r.root := by
      rw [WatchRoot.root_of_rules hr]
    have hrules : ∀ k', k' ≠ Path.components r.root →
        lookupKey (FileIndex.setKey w.pipeline.rules rules.root rules) k' =
          lookupKey w.pipeline.rules k' := fun k' hk => by
      rw [lookupKey_setKey, if_neg (hroot ▸ hk)]
    split
    · rename_i w₃ src hopen
      obtain ⟨cs, rfl, hstop, hstart, hsrcroot⟩ := openSource_some hopen
      have hsrc' : lookupKey (FileIndex.setKey w.sources r.root src) (Path.components r.root) =
          some src := by rw [lookupKey_setKey, if_pos rfl]
      have hstage : lookupKey (FileIndex.setKey (FileIndex.setKey w.states r.root .starting)
          r.root .watching) (Path.components r.root) = some (if (lookupKey (FileIndex.setKey
            w.sources r.root src) (Path.components r.root)).isSome then .watching else .stopped) := by
        rw [lookupKey_setKey, if_pos rfl, hsrc']
        rfl
      have hiff : (lookupKey (FileIndex.setKey w.sources r.root src) (Path.components r.root)).isSome =
          (lookupKey (FileIndex.setKey w.pipeline.rules rules.root rules)
            (Path.components r.root)).isSome := by
        rw [hsrc', lookupKey_setKey, if_pos hroot.symm]
        rfl
      have hrec : ∀ src' root, lookupKey (FileIndex.setKey w.sources r.root src)
          (Path.components r.root) = some src' → src'.recordingRoot? = some root →
            Path.components root = Path.components r.root := by
        intro src' root hs hroot'
        rw [hsrc'] at hs
        cases hs
        rw [hsrcroot root hroot']
      have hbalance : (w.calls ++ cs).countP (SourceCall.startsAt (Path.components r.root)) =
          (w.calls ++ cs).countP (SourceCall.stopsAt (Path.components r.root)) +
            (if ((lookupKey (FileIndex.setKey w.sources r.root src) (Path.components r.root)).bind
              Source.recordingRoot?).isSome then 1 else 0) := by
        rw [hcount, hcount, hstart, hstop, hsrc', h.calls_balance, hnorec]
        by_cases hrec : (src.recordingRoot?).isSome <;> simp [hrec]
      have hsrcs : ∀ k', k' ≠ Path.components r.root →
          lookupKey (FileIndex.setKey w.sources r.root src) k' = lookupKey w.sources k' :=
        fun k' hk => by rw [lookupKey_setKey, if_neg hk]
      have hrules' : ∀ k', k' ≠ Path.components r.root →
          (lookupKey (FileIndex.setKey w.pipeline.rules rules.root rules) k').isSome =
            (lookupKey w.pipeline.rules k').isSome := fun k' hk => by rw [hrules k' hk]
      have hstarts : ∀ k', k' ≠ Path.components r.root →
          (w.calls ++ cs).countP (SourceCall.startsAt k') = w.calls.countP (SourceCall.startsAt k') :=
        fun k' hk => by rw [hcount, hstart, if_neg (fun h' => hk h'.2.symm), Nat.add_zero]
      have hstops : ∀ k', k' ≠ Path.components r.root →
          (w.calls ++ cs).countP (SourceCall.stopsAt k') = w.calls.countP (SourceCall.stopsAt k') :=
        fun k' _ => by rw [hcount, hstop, Nat.add_zero]
      exact h.of_frame _ hsrcs hrules' (htwice _ _) hstarts hstops (hwaits rfl rfl rfl)
        (agreesAt_of_settled hstage hiff hrec hbalance) h.begun_started
        (nodup_keys_setKey _ _ _ h.sources_nodup) (fun he => absurd (he.symm.trans hend) (by decide))
    · rename_i w₃ hopen
      obtain ⟨cs, rfl, hcs⟩ := openSource_none hopen
      have hiff : (lookupKey w.sources (Path.components r.root)).isSome =
          (lookupKey (FileIndex.eraseKey (FileIndex.setKey w.pipeline.rules rules.root rules) r.root)
            (Path.components r.root)).isSome := by
        rw [hnone, lookupKey_eraseKey, if_pos rfl]
        rfl
      have hbalance : (w.calls ++ cs).countP (SourceCall.startsAt (Path.components r.root)) =
          (w.calls ++ cs).countP (SourceCall.stopsAt (Path.components r.root)) +
            w.recordingAt (Path.components r.root) := by
        rw [hcount, hcount, (hcs _).1, (hcs _).2]
        exact h.calls_balance _
      have hrules' : ∀ k', k' ≠ Path.components r.root →
          (lookupKey (FileIndex.eraseKey (FileIndex.setKey w.pipeline.rules rules.root rules) r.root)
            k').isSome = (lookupKey w.pipeline.rules k').isSome :=
        fun k' hk => by rw [lookupKey_eraseKey, if_neg hk, hrules k' hk]
      have hstarts : ∀ k', k' ≠ Path.components r.root →
          (w.calls ++ cs).countP (SourceCall.startsAt k') = w.calls.countP (SourceCall.startsAt k') :=
        fun k' _ => by rw [hcount, (hcs k').2, Nat.add_zero]
      have hstops : ∀ k', k' ≠ Path.components r.root →
          (w.calls ++ cs).countP (SourceCall.stopsAt k') = w.calls.countP (SourceCall.stopsAt k') :=
        fun k' _ => by rw [hcount, (hcs k').1, Nat.add_zero]
      exact h.of_frame _ (fun _ _ => rfl) hrules' (htwice _ _) hstarts hstops (hwaits rfl rfl rfl)
        (agreesAt_of_settled (hstopped _) hiff (h.recording_root _) hbalance) h.begun_started
        h.sources_nodup h.ended_clear

/-- Stopping a root keeps the two parties in step: the root is stopped with no source and no
rules, its recording source, if any, has its stop recorded, and every other root is left alone. -/
theorem AgreesWith.stopRoot (h : AgreesWith toStart w) (root : String) :
    AgreesWith toStart (w.stopRoot root) := by
  have hstopped : ∀ m : PathMap WatchState, lookupKey (FileIndex.setKey m root .stopped)
      (Path.components root) = some .stopped := fun m => by rw [lookupKey_setKey, if_pos rfl]
  have hstates : ∀ (m : PathMap WatchState) k', k' ≠ Path.components root →
      lookupKey (FileIndex.setKey m root .stopped) k' = lookupKey m k' := fun m k' hk => by
    rw [lookupKey_setKey, if_neg hk]
  have hnorules : lookupKey (FileIndex.eraseKey w.pipeline.rules root) (Path.components root) = none := by
    rw [lookupKey_eraseKey, if_pos rfl]
  have hrules : ∀ k', k' ≠ Path.components root →
      (lookupKey (FileIndex.eraseKey w.pipeline.rules root) k').isSome =
        (lookupKey w.pipeline.rules k').isSome := fun k' hk => by rw [lookupKey_eraseKey, if_neg hk]
  unfold Watcher.stopRoot
  cases hget : w.sources.get? root with
  | none =>
    dsimp only
    have hnone : lookupKey w.sources (Path.components root) = none := by
      rwa [PathMap.get?_eq_lookupKey] at hget
    have hstage : lookupKey (FileIndex.setKey w.states root .stopped) (Path.components root) =
        some (if (lookupKey w.sources (Path.components root)).isSome then .watching else .stopped) := by
      rw [hstopped, hnone]
      rfl
    have hiff : (lookupKey w.sources (Path.components root)).isSome =
        (lookupKey (FileIndex.eraseKey w.pipeline.rules root) (Path.components root)).isSome := by
      rw [hnone, hnorules]
      rfl
    exact h.of_frame _ (fun _ _ => rfl) hrules (hstates _) (fun _ _ => rfl) (fun _ _ => rfl)
      (fun _ _ hw => hw)
      (agreesAt_of_settled hstage hiff (h.recording_root _) (h.calls_balance _))
      h.begun_started h.sources_nodup h.ended_clear
  | some src =>
    dsimp only
    have hsome : lookupKey w.sources (Path.components root) = some src := by
      rwa [PathMap.get?_eq_lookupKey] at hget
    have herase : ∀ k', lookupKey (FileIndex.eraseKey w.sources root) k' =
        if k' = Path.components root then none else lookupKey w.sources k' :=
      lookupKey_eraseKey _ _
    have hgone : lookupKey (FileIndex.eraseKey w.sources root) (Path.components root) = none := by
      rw [herase, if_pos rfl]
    have hstage : lookupKey (FileIndex.setKey w.states root .stopped) (Path.components root) =
        some (if (lookupKey (FileIndex.eraseKey w.sources root) (Path.components root)).isSome
          then .watching else .stopped) := by
      rw [hstopped, hgone]
      rfl
    have hiff : (lookupKey (FileIndex.eraseKey w.sources root) (Path.components root)).isSome =
        (lookupKey (FileIndex.eraseKey w.pipeline.rules root) (Path.components root)).isSome := by
      rw [hgone, hnorules]
      rfl
    have hsrcs : ∀ k', k' ≠ Path.components root →
        lookupKey (FileIndex.eraseKey w.sources root) k' = lookupKey w.sources k' := fun k' hk => by
      rw [herase, if_neg hk]
    have hnorec : ∀ src' root', lookupKey (FileIndex.eraseKey w.sources root) (Path.components root) =
        some src' → src'.recordingRoot? = some root' → Path.components root' = Path.components root :=
      fun _ _ hs => by rw [hgone] at hs; cases hs
    have hended : w.ended = true → False := fun he => by
      rw [(h.ended_clear he).1] at hsome
      cases hsome
    have hbalance := h.calls_balance (Path.components root)
    rw [recordingAt, hsome] at hbalance
    cases src with
    | recording own _ =>
      have hown : Path.components own = Path.components root := h.recording_root _ _ own hsome rfl
      have hstarts : ∀ k', (w.calls ++ [SourceCall.stop own]).countP (SourceCall.startsAt k') =
          w.calls.countP (SourceCall.startsAt k') := fun k' => by simp [SourceCall.startsAt]
      have hstops : ∀ k', (w.calls ++ [SourceCall.stop own]).countP (SourceCall.stopsAt k') =
          w.calls.countP (SourceCall.stopsAt k') + if Path.components root = k' then 1 else 0 :=
        fun k' => by by_cases hk : Path.components root = k' <;> simp [SourceCall.stopsAt, hown, hk]
      have hbalance' : (w.calls ++ [SourceCall.stop own]).countP (SourceCall.startsAt (Path.components root)) =
          (w.calls ++ [SourceCall.stop own]).countP (SourceCall.stopsAt (Path.components root)) +
            (if ((lookupKey (FileIndex.eraseKey w.sources root) (Path.components root)).bind
              Source.recordingRoot?).isSome then 1 else 0) := by
        rw [hstarts, hstops, hgone, hbalance]
        simp [Source.recordingRoot?]
      have hstops' : ∀ k', k' ≠ Path.components root →
          (w.calls ++ [SourceCall.stop own]).countP (SourceCall.stopsAt k') =
            w.calls.countP (SourceCall.stopsAt k') := fun k' hk => by
        rw [hstops, if_neg (Ne.symm hk), Nat.add_zero]
      exact h.of_frame _ hsrcs hrules (hstates _) (fun k' _ => hstarts k') hstops' (fun _ _ hw => hw)
        (agreesAt_of_settled hstage hiff hnorec hbalance') h.begun_started
        (nodup_keys_eraseKey _ _ h.sources_nodup) (fun he => (hended he).elim)
    | notify ns =>
      have hbalance' : w.calls.countP (SourceCall.startsAt (Path.components root)) =
          w.calls.countP (SourceCall.stopsAt (Path.components root)) +
            (if ((lookupKey (FileIndex.eraseKey w.sources root) (Path.components root)).bind
              Source.recordingRoot?).isSome then 1 else 0) := by
        rw [hgone, hbalance]
        rfl
      exact h.of_frame _ hsrcs hrules (hstates _) (fun _ _ => rfl) (fun _ _ => rfl)
        (fun _ _ hw => hw) (agreesAt_of_settled hstage hiff hnorec hbalance') h.begun_started
        (nodup_keys_eraseKey _ _ h.sources_nodup) (fun he => (hended he).elim)

/-- A watcher with the same sources, stages, calls per root, requests and lifecycle as one in step,
and rules for the same roots, is in step. -/
theorem AgreesWith.of_same {w' : Watcher} (h : AgreesWith toStart w) (hs : w'.sources = w.sources)
    (hst : w'.states = w.states)
    (hr : ∀ k, (lookupKey w'.pipeline.rules k).isSome = (lookupKey w.pipeline.rules k).isSome)
    (hstarts : ∀ k, w'.calls.countP (SourceCall.startsAt k) = w.calls.countP (SourceCall.startsAt k))
    (hstops : ∀ k, w'.calls.countP (SourceCall.stopsAt k) = w.calls.countP (SourceCall.stopsAt k))
    (hcmd : w'.commands = w.commands) (hb : w'.begun = w.begun) (hi : w'.initialRoots = w.initialRoots)
    (he : w'.ended = w.ended) : AgreesWith toStart w' := by
  refine AgreesWith.of_agreesAt (fun k => (h.agreesAt k).congr (by rw [hs]) (hr k)
    (by rw [stageAt, stageAt, hst]) (hstarts k) (hstops k) fun hw => ?_) ?_ ?_ ?_
  · unfold Waits
    rw [he, hcmd, hi]
    exact hw
  · rw [hb, hi]
    exact h.begun_started
  · rw [hs]
    exact h.sources_nodup
  · rw [he, hs, hcmd]
    exact h.ended_clear

theorem lookupKey_isSome_map {α : Type} (l : List (String × α)) (f : String × α → String × α)
    (hf : ∀ e, (f e).1 = e.1) (k : List Component) :
    (lookupKey (l.map f) k).isSome = (lookupKey l k).isSome := by
  rw [Bool.eq_iff_iff, isSome_lookupKey, isSome_lookupKey, List.map_map]
  have hfun : ((Path.components ·.1) ∘ f) = (Path.components ·.1) := funext fun e => by
    simp only [Function.comp, hf]
  rw [hfun]

/-- Putting another source in the place of a root's source keeps the two parties in step, when
the new source records for the root the old one recorded for, or for none as it did, and the rest
changes only in ways no party sees: rules for the same roots, and calls that start and stop
nothing new. -/
theorem AgreesWith.setSource {w' : Watcher} {root : String} {src : Source} (src' : Source)
    (h : AgreesWith toStart w) (hsome : lookupKey w.sources (Path.components root) = some src)
    (hrec : src'.recordingRoot? = src.recordingRoot?)
    (hs : w'.sources = FileIndex.setKey w.sources root src') (hst : w'.states = w.states)
    (hr : ∀ k, (lookupKey w'.pipeline.rules k).isSome = (lookupKey w.pipeline.rules k).isSome)
    (hstarts : ∀ k, w'.calls.countP (SourceCall.startsAt k) = w.calls.countP (SourceCall.startsAt k))
    (hstops : ∀ k, w'.calls.countP (SourceCall.stopsAt k) = w.calls.countP (SourceCall.stopsAt k))
    (hcmd : w'.commands = w.commands) (hb : w'.begun = w.begun)
    (hi : w'.initialRoots = w.initialRoots) (he : w'.ended = w.ended) : AgreesWith toStart w' := by
  have hset : ∀ k, lookupKey w'.sources k =
      if k = Path.components root then some src' else lookupKey w.sources k := fun k => by
    rw [hs]
    exact lookupKey_setKey _ _ _ _
  have hnew : lookupKey w'.sources (Path.components root) = some src' := by rw [hset, if_pos rfl]
  have hstage : ∀ k, w'.stageAt k = w.stageAt k := fun k => by rw [stageAt, stageAt, hst]
  have hwaits : ∀ k, w.Waits toStart k → w'.Waits toStart k := fun k hw => by
    unfold Waits at hw ⊢
    rw [he, hcmd, hi]
    exact hw
  have hat := h.agreesAt (Path.components root)
  have hat' : AgreesAt toStart w' (Path.components root) := by
    refine ⟨?_, fun _ => by rw [hnew]; rfl, fun _ => ?_, fun hk => hwaits _ ?_, ?_, ?_⟩
    · rw [hnew, hr, ← hat.source_iff_rules, hsome]
      rfl
    · rw [hstage]
      exact hat.source_marked (by rw [hsome]; rfl)
    · exact hat.starting_waits (hstage _ ▸ hk)
    · intro src'' root' hsrc hroot
      rw [hnew] at hsrc
      cases hsrc
      exact h.recording_root _ src root' hsome (hrec ▸ hroot)
    · rw [hstarts, hstops, hat.calls_balance, recordingAt, recordingAt, hnew, hsome]
      simp only [Option.bind_some, hrec]
  refine h.of_frame (Path.components root) (fun k hk => by rw [hset, if_neg hk])
    (fun k _ => hr k) (fun k _ => hstage k) (fun k _ => hstarts k) (fun k _ => hstops k)
    (fun k _ => hwaits k) hat' (by rw [hb, hi]; exact h.begun_started)
    (by rw [hs]; exact nodup_keys_setKey _ _ _ h.sources_nodup) fun hend => ?_
  rw [he] at hend
  rw [(h.ended_clear hend).1] at hsome
  cases hsome

/-- Replacing a root's patterns keeps the two parties in step: only the rules and the source of the
root change, and neither whether it has them. -/
theorem AgreesWith.replaceExclusions (h : AgreesWith toStart w) (root : String)
    (patterns : List String) : AgreesWith toStart (w.replaceExclusions root patterns) := by
  unfold Watcher.replaceExclusions
  split
  · exact h
  · split
    · exact h
    · rename_i r _ ignore _
      have hrules : ∀ k, (lookupKey (w.pipeline.updateIgnore root ignore).rules k).isSome =
          (lookupKey w.pipeline.rules k).isSome :=
        lookupKey_isSome_map _ _ fun e => by by_cases he : Path.same e.1 root <;> simp [he]
      dsimp only
      split
      · rename_i own old hget
        have hsome : lookupKey w.sources (Path.components root) = some (.recording own old) := by
          rwa [PathMap.get?_eq_lookupKey] at hget
        have hstarts : ∀ k, (w.calls ++ [SourceCall.exclusions (some own) patterns]).countP
            (SourceCall.startsAt k) = w.calls.countP (SourceCall.startsAt k) := fun k => by
          simp [SourceCall.startsAt]
        have hstops : ∀ k, (w.calls ++ [SourceCall.exclusions (some own) patterns]).countP
            (SourceCall.stopsAt k) = w.calls.countP (SourceCall.stopsAt k) := fun k => by
          simp [SourceCall.stopsAt]
        split
        · exact h.of_same rfl rfl hrules hstarts hstops rfl rfl rfl rfl
        · exact AgreesWith.setSource (.recording own patterns) h hsome rfl rfl rfl hrules hstarts
            hstops rfl rfl rfl rfl
      · rename_i ns hget
        have hsome : lookupKey w.sources (Path.components root) = some (.notify ns) := by
          rwa [PathMap.get?_eq_lookupKey] at hget
        exact AgreesWith.setSource (.notify (ns.updateExclusions patterns).1) h hsome rfl rfl rfl
          hrules (fun _ => rfl) (fun _ => rfl) rfl rfl rfl rfl
      · exact h.of_same rfl rfl hrules (fun _ => rfl) (fun _ => rfl) rfl rfl rfl rfl

/-- Sending a request keeps the two parties in step: it waits, once sent, behind the others. -/
theorem AgreesWith.send (h : AgreesWith toStart w) (c : Command) : AgreesWith toStart (w.send c).1 := by
  unfold Watcher.send
  split
  · exact h
  · rename_i hend
    refine AgreesWith.of_agreesAt (fun k => (h.agreesAt k).congr rfl rfl rfl rfl rfl fun hw => ?_)
      h.begun_started h.sources_nodup fun he => absurd he hend
    rcases hw with hw | ⟨c', hc', hask⟩ | hw
    · exact .inl hw
    · exact .inr (.inl ⟨c', List.mem_append_left _ hc', hask⟩)
    · exact .inr (.inr hw)

/-- Asking for a root keeps the two parties in step: the root is marked starting and waits for its
request, or for nothing once the loop has ended. -/
theorem AgreesWith.addRoot (h : AgreesWith toStart w) (r : WatchRoot) :
    AgreesWith toStart (w.addRoot r).1 := by
  have hstage : (w.setState r.root .starting).stageAt (Path.components r.root) = some .starting := by
    rw [stageAt_setState, if_pos rfl]
  have hstage_off : ∀ k, k ≠ Path.components r.root →
      (w.setState r.root .starting).stageAt k = w.stageAt k := fun k hk => by
    rw [stageAt_setState, if_neg hk]
  have hask : (Command.addRoot r).asksFor (Path.components r.root) = true := by
    simp [Command.asksFor]
  unfold Watcher.addRoot Watcher.send
  split
  · rename_i hend
    exact h.of_frame _ (fun _ _ => rfl) (fun _ _ => rfl) hstage_off (fun _ _ => rfl)
      (fun _ _ => rfl) (fun _ _ hw => hw) ⟨h.source_iff_rules _,
        fun hk => absurd (hstage.symm.trans hk) (by simp), fun _ => .inr hstage, fun _ => .inl hend,
        h.recording_root _, h.calls_balance _⟩ h.begun_started h.sources_nodup h.ended_clear
  · rename_i hend
    refine h.of_frame _ (fun _ _ => rfl) (fun _ _ => rfl) hstage_off (fun _ _ => rfl)
      (fun _ _ => rfl) (fun _ _ hw => ?_) ⟨h.source_iff_rules _,
        fun hk => absurd (hstage.symm.trans hk) (by simp), fun _ => .inr hstage,
        fun _ => .inr (.inl ⟨.addRoot r, List.mem_append_right _ (List.mem_singleton_self _), hask⟩),
        h.recording_root _, h.calls_balance _⟩ h.begun_started h.sources_nodup
      fun he => absurd he hend
    rcases hw with hw | ⟨c', hc', hask'⟩ | hw
    · exact .inl hw
    · exact .inr (.inl ⟨c', List.mem_append_left _ hc', hask'⟩)
    · exact .inr (.inr hw)

/-- Taking the oldest request out of the queue to handle it keeps the two parties in step, the
root it asks for, if any, joining the roots about to be started. -/
theorem AgreesWith.pop {c : Command} {rest : List Command} (h : Agrees w) (hc : w.commands = c :: rest)
    (hask : ∀ k, c.asksFor k = true → ∃ r ∈ toStart, Path.components r.root = k) :
    AgreesWith toStart { w with commands := rest } := by
  refine AgreesWith.of_agreesAt (fun k => (h.agreesAt k).congr rfl rfl rfl rfl rfl fun hw => ?_)
    h.begun_started h.sources_nodup fun he => ?_
  · rcases hw with hw | ⟨c', hc', hask'⟩ | ⟨r, hr, hroot⟩
    · exact .inl hw
    · rw [hc] at hc'
      rcases List.mem_cons.mp hc' with rfl | hc'
      · obtain ⟨r, hr, hroot⟩ := hask k hask'
        exact .inr (.inr ⟨r, List.mem_append_right _ hr, hroot⟩)
      · exact .inr (.inl ⟨c', hc', hask'⟩)
    · rw [List.append_nil] at hr
      exact .inr (.inr ⟨r, List.mem_append_left _ hr, hroot⟩)
  · have hnil := (h.ended_clear he).2
    rw [hc] at hnil
    cases hnil

/-- As the loop begins, its initial roots become the roots about to be started. -/
theorem AgreesWith.begin (h : Agrees w) :
    AgreesWith w.initialRoots { w with begun := true, initialRoots := [] } := by
  refine AgreesWith.of_agreesAt (fun k => (h.agreesAt k).congr rfl rfl rfl rfl rfl fun hw => ?_)
    (fun _ => rfl) h.sources_nodup h.ended_clear
  rcases hw with hw | hw | ⟨r, hr, hroot⟩
  · exact .inl hw
  · exact .inr (.inl hw)
  · rw [List.append_nil] at hr
    exact .inr (.inr ⟨r, List.mem_append_right _ hr, hroot⟩)

theorem startRoot_ended (w : Watcher) (d : Disk) (r : WatchRoot) :
    (w.startRoot d r).ended = w.ended := by
  unfold Watcher.startRoot
  split
  · rfl
  · cases r.rules with
    | error e => rfl
    | ok rules =>
      dsimp only
      split
      · rename_i w₃ src hopen
        obtain ⟨cs, rfl, -⟩ := openSource_some hopen
        rfl
      · rename_i w₃ hopen
        obtain ⟨cs, rfl, -⟩ := openSource_none hopen
        rfl

/-- Starting the roots about to be started, one after another, brings the two parties back in
step. -/
theorem AgreesWith.foldl_startRoot (d : Disk) :
    ∀ (roots : List WatchRoot) {v : Watcher}, AgreesWith roots v → v.ended = false →
      Agrees (roots.foldl (Watcher.startRoot · d) v)
  | [], _, h, _ => h
  | r :: rest, v, h, hend =>
    foldl_startRoot d rest (h.startRoot hend d) (by rw [startRoot_ended]; exact hend)

theorem AgreesWith.foldl_stopRoot :
    ∀ (roots : List String) {v : Watcher}, AgreesWith toStart v →
      AgreesWith toStart (roots.foldl Watcher.stopRoot v)
  | [], _, h => h
  | root :: rest, _, h => foldl_stopRoot rest (h.stopRoot root)

theorem eraseKey_of_lookupKey {α : Type} {l : List (String × α)} {p : String}
    (h : lookupKey l (Path.components p) = none) : FileIndex.eraseKey l p = l := by
  have hany : l.any (fun e => Path.same e.1 p) = false := by rw [any_same, h]; rfl
  refine List.filter_eq_self.mpr fun e he => ?_
  have hne := List.any_eq_false.mp hany e he
  simpa using hne

theorem stopRoot_sources (w : Watcher) (root : String) :
    (w.stopRoot root).sources = FileIndex.eraseKey w.sources root := by
  unfold Watcher.stopRoot
  split
  · rfl
  · rename_i hget
    rw [PathMap.get?_eq_lookupKey] at hget
    exact (eraseKey_of_lookupKey hget).symm

/-- Erasing paths one after another erases every pair whose key is one of them. -/
theorem foldl_eraseKey {α : Type} (ks : List String) (l : List (String × α)) :
    ks.foldl FileIndex.eraseKey l = l.filter fun e => !ks.any (Path.same e.1 ·) := by
  induction ks generalizing l with
  | nil => simp
  | cons p ks ih =>
    rw [List.foldl_cons, ih, FileIndex.eraseKey, List.filter_filter]
    congr 1
    funext e
    simp [Bool.and_comm]

/-- Stopping every watched root leaves no source. -/
theorem foldl_stopRoot_sources (w : Watcher) :
    ((w.sources.map (·.1)).foldl stopRoot w).sources = [] := by
  have hsources : ∀ (ks : List String) (v : Watcher),
      (ks.foldl stopRoot v).sources = ks.foldl FileIndex.eraseKey v.sources := by
    intro ks
    induction ks with
    | nil => intro v; rfl
    | cons root ks ih => intro v; rw [List.foldl_cons, ih, stopRoot_sources, List.foldl_cons]
  rw [hsources, foldl_eraseKey, List.filter_eq_nil_iff]
  intro e he
  have hsame : (w.sources.map (·.1)).any (Path.same e.1 ·) = true :=
    List.any_eq_true.mpr ⟨e.1, List.mem_map_of_mem he, by simp [Path.same]⟩
  simp [hsame]

/-- Ending the loop keeps the two parties in step: every source is stopped and the requests still
waiting are dropped. -/
theorem AgreesWith.finish (h : Agrees w) : Agrees w.finish := by
  have h₁ : Agrees { w with pipeline := w.pipeline.cancelAll } :=
    h.of_same rfl rfl (fun _ => rfl) (fun _ => rfl) (fun _ => rfl) rfl rfl rfl rfl
  have h₂ := h₁.foldl_stopRoot (w.sources.map (·.1))
  have hnone := foldl_stopRoot_sources { w with pipeline := w.pipeline.cancelAll }
  unfold Watcher.finish
  dsimp only
  refine AgreesWith.of_agreesAt (fun k => (h₂.agreesAt k).congr rfl rfl rfl rfl rfl
    fun _ => .inl rfl) h₂.begun_started ?_ fun _ => ⟨hnone, rfl⟩
  rw [hnone]
  exact List.nodup_nil

end Watcher

end WikiSync
