import WikiSync.Proofs.Watch.Protocol

/-!
# Interleavings of the watch-state protocol

One move of either party is a `Watcher.Step`: the handle asks for a root, for a root to be
dropped, for new patterns or for the end; the loop begins by starting its initial roots, ends once
asked to, or else handles the oldest request, takes events in, or wakes at a moment. Any
interleaving of these moves from a watcher a setup builds is a run (`Watcher.Reachable`), and
every move keeps the two parties in step, so every reachable watcher does
(`Watcher.Reachable.agrees`).

So whenever the loop has begun and handled every request sent, a root is marked watching exactly
when it has a source and exactly when the pipeline handles it, and every other root is stopped
(`Watcher.Agrees.settled`). Once the loop has ended no source is left, the pipeline handles no
root, and every start has its stop (`Watcher.Agrees.ended`). A root asked for while a request was
in flight at shutdown, or after the end, stays marked starting: its request is never handled.
-/

namespace WikiSync

namespace Watcher

theorem build_eq {s : WatcherSetup} {w : Watcher} (h : s.build = .ok w) :
    w.sources = [] ∧ w.calls = [] ∧ w.commands = [] ∧ w.begun = false ∧ w.ended = false ∧
      w.pipeline.rules = [] ∧ w.initialRoots = s.roots ∧
      w.states = s.roots.foldl (fun (m : PathMap WatchState) r => m.insert r.root .starting) [] := by
  unfold WatcherSetup.build at h
  cases hix : s.index with
  | none => simp [hix, bind, Except.bind, throw, throwThe, MonadExceptOf.throw] at h
  | some ix =>
    cases ht : s.hasTarget
    · simp [hix, ht, bind, Except.bind, pure, Except.pure, throw, throwThe,
        MonadExceptOf.throw] at h
    · simp only [hix, ht, bind, Except.bind, pure, Except.pure, Bool.not_true, Bool.false_eq_true,
        if_false, Except.ok.injEq] at h
      subst h
      exact ⟨rfl, rfl, rfl, rfl, rfl, rfl, rfl, rfl⟩

end Watcher

namespace Pipeline

/-- A tick leaves the rules of the roots as they were. -/
theorem tick_rules (p : Pipeline) (d : Disk) (now : Nat) : (p.tick d now).1.rules = p.rules := by
  rw [tick_fst]
  obtain ⟨sync, vcs, harm⟩ := arm_eq ((p.dueDeletions now).foldl (settleDelete d now)
    (p.settleStart now, [])).1 ((p.dueDeletions now).foldl (settleDelete d now)
      (p.settleStart now, [])).2 now
  show (Pipeline.arm _ _ now).rules = p.rules
  rw [harm]
  exact foldl_keeps (fun q => q.rules = p.rules) _
    (fun acc k _ h => (settleDelete_rules d k now acc).trans h) _ rfl

end Pipeline

namespace Watcher

variable {toStart : List WatchRoot} {w : Watcher}

/-- Signalling touches only the counts of what was signalled. -/
theorem dispatch_frame (w : Watcher) (s : Signals) :
    (w.dispatch s).sources = w.sources ∧ (w.dispatch s).states = w.states ∧
      (w.dispatch s).calls = w.calls ∧ (w.dispatch s).commands = w.commands ∧
      (w.dispatch s).begun = w.begun ∧ (w.dispatch s).initialRoots = w.initialRoots ∧
      (w.dispatch s).ended = w.ended ∧ (w.dispatch s).pipeline = w.pipeline := by
  unfold dispatch
  split <;> dsimp only <;> split <;> exact ⟨rfl, rfl, rfl, rfl, rfl, rfl, rfl, rfl⟩

theorem AgreesWith.wake (h : AgreesWith toStart w) (d : Disk) (t : Nat) :
    AgreesWith toStart (w.wake d t) := by
  have key : ∀ v : Watcher, v.sources = w.sources → v.states = w.states → v.calls = w.calls →
      v.commands = w.commands → v.begun = w.begun → v.initialRoots = w.initialRoots →
      v.ended = w.ended → v.pipeline.rules = w.pipeline.rules →
      AgreesWith toStart
        ({ v with pipeline := (v.pipeline.tick d t).1 }.dispatch (v.pipeline.tick d t).2) := by
    intro v h₁ h₂ h₃ h₄ h₅ h₆ h₇ h₈
    obtain ⟨d₁, d₂, d₃, d₄, d₅, d₆, d₇, d₈⟩ :=
      dispatch_frame { v with pipeline := (v.pipeline.tick d t).1 } (v.pipeline.tick d t).2
    have hrules : ∀ k, (lookupKey (({ v with pipeline := (v.pipeline.tick d t).1 }.dispatch
        (v.pipeline.tick d t).2).pipeline.rules) k).isSome =
          (lookupKey w.pipeline.rules k).isSome := fun k => by
      rw [d₈]
      dsimp only
      rw [Pipeline.tick_rules, h₈]
    exact h.of_same (d₁.trans h₁) (d₂.trans h₂) hrules (fun k => by rw [d₃, h₃])
      (fun k => by rw [d₃, h₃]) (d₄.trans h₄) (d₅.trans h₅) (d₆.trans h₆) (d₇.trans h₇)
  unfold Watcher.wake
  dsimp only
  split
  · split
    · exact key _ rfl rfl rfl rfl rfl rfl rfl (Pipeline.handleBatch_rules _ _ _ _)
    · exact key _ rfl rfl rfl rfl rfl rfl rfl rfl
  · exact key _ rfl rfl rfl rfl rfl rfl rfl rfl

theorem AgreesWith.receive (h : AgreesWith toStart w) (events : List RawEvent) :
    AgreesWith toStart (w.receive events) := by
  unfold Watcher.receive
  split
  · exact h
  · exact h.of_same rfl rfl (fun _ => rfl) (fun _ => rfl) (fun _ => rfl) rfl rfl rfl rfl

/-- The roots a setup starts with are marked starting, and only they. -/
theorem lookupKey_foldl_starting (roots : List WatchRoot) (m : PathMap WatchState)
    (k : List Component) (x : WatchState)
    (h : lookupKey (roots.foldl (fun (m : PathMap WatchState) r => m.insert r.root .starting) m) k =
      some x) :
    lookupKey m k = some x ∨ x = .starting ∧ ∃ r ∈ roots, Path.components r.root = k := by
  induction roots generalizing m with
  | nil => exact .inl h
  | cons r roots ih =>
    rcases ih _ h with h' | ⟨hx, r', hr', hroot⟩
    · dsimp only at h'
      rw [PathMap.insert_eq_setKey, lookupKey_setKey] at h'
      split at h'
      · rename_i hk
        cases h'
        exact .inr ⟨rfl, r, List.mem_cons_self, hk.symm⟩
      · exact .inl h'
    · exact .inr ⟨hx, r', List.mem_cons_of_mem r hr', hroot⟩

/-- A watcher as a setup builds it is in step: no source, no rules, and its initial roots marked
starting until the loop begins. -/
theorem agrees_of_build {s : WatcherSetup} (h : s.build = .ok w) : w.Agrees := by
  obtain ⟨hs, hc, -, hb, he, hr, hi, hst⟩ := build_eq h
  have hnone : ∀ k, lookupKey w.sources k = none := fun k => by rw [hs]; rfl
  refine AgreesWith.of_agreesAt (fun k => ⟨(by rw [hs, hr]; rfl), fun hk => ?_,
    (fun hk => by rw [hnone] at hk; cases hk), fun hk => ?_,
    (fun _ _ hsrc => by rw [hnone] at hsrc; cases hsrc), (by simp [hc, recordingAt, hnone])⟩)
    (fun hb' => by rw [hb] at hb'; cases hb') (by rw [hs]; exact List.nodup_nil)
    (fun he' => by rw [he] at he'; cases he')
  · rw [stageAt, hst] at hk
    rcases lookupKey_foldl_starting _ _ _ _ hk with h₀ | ⟨hx, -⟩
    · simp at h₀
    · cases hx
  · rw [stageAt, hst] at hk
    rcases lookupKey_foldl_starting _ _ _ _ hk with h₀ | ⟨-, r, hr', hroot⟩
    · simp at h₀
    · exact .inr (.inr ⟨r, by rw [hi, List.append_nil]; exact hr', hroot⟩)

/-- One move of either party. The handle asks for roots, for patterns and for the end; the loop
begins by starting its initial roots, then, asked to stop, stops every source and ends, or else
handles the oldest request; events come in, and the loop wakes at any moment until it ends. -/
inductive Step : Watcher → Watcher → Prop
  | addRoot (w : Watcher) (r : WatchRoot) : Step w (w.addRoot r).1
  | removeRoot (w : Watcher) (root : String) : Step w (w.removeRoot root).1
  | updateExclusions (w : Watcher) (root : String) (patterns : List String) :
      Step w (w.updateExclusions root patterns).1
  | shutdown (w : Watcher) : Step w w.shutdown
  | begin (w : Watcher) (d : Disk) : w.begun = false → w.ended = false →
      Step w (w.initialRoots.foldl (Watcher.startRoot · d) { w with begun := true, initialRoots := [] })
  | finish (w : Watcher) : w.begun = true → w.cancelled = true → w.ended = false → Step w w.finish
  | command (w : Watcher) (d : Disk) (c : Command) (rest : List Command) : w.begun = true →
      w.cancelled = false → w.ended = false → w.commands = c :: rest →
        Step w ({ w with commands := rest }.handle d c)
  | receive (w : Watcher) (events : List RawEvent) : Step w (w.receive events)
  | wake (w : Watcher) (d : Disk) (t : Nat) : w.ended = false → Step w (w.wake d t)

/-- The watchers some interleaving of moves reaches from a watcher a setup builds. -/
inductive Reachable : Watcher → Prop
  | built {s : WatcherSetup} {w : Watcher} : s.build = .ok w → Reachable w
  | step {w w' : Watcher} : Reachable w → Step w w' → Reachable w'

/-- Every move keeps the two parties in step. -/
theorem Agrees.step {w' : Watcher} (h : w.Agrees) (hs : Step w w') : w'.Agrees := by
  cases hs with
  | addRoot r => exact h.addRoot r
  | removeRoot root => exact h.send _
  | updateExclusions root patterns => exact h.send _
  | shutdown => exact h.of_same rfl rfl (fun _ => rfl) (fun _ => rfl) (fun _ => rfl) rfl rfl rfl rfl
  | begin d _ hend => exact h.begin.foldl_startRoot d w.initialRoots hend
  | finish _ _ _ => exact h.finish
  | command d c rest _ _ hend hc =>
    cases c with
    | addRoot r =>
      have hask : ∀ k, (Command.addRoot r).asksFor k = true →
          ∃ r' ∈ [r], Path.components r'.root = k := fun k hk =>
        ⟨r, List.mem_singleton_self r, by simpa [Command.asksFor] using hk⟩
      exact (h.pop hc hask).startRoot hend d
    | removeRoot root =>
      have hpop : AgreesWith [] { w with commands := rest } :=
        h.pop hc fun k hk => by simp [Command.asksFor] at hk
      exact hpop.stopRoot root
    | updateExclusions root patterns =>
      have hpop : AgreesWith [] { w with commands := rest } :=
        h.pop hc fun k hk => by simp [Command.asksFor] at hk
      exact hpop.replaceExclusions root patterns
  | receive events => exact h.receive events
  | wake d t _ => exact h.wake d t

/-- Every reachable watcher keeps the two parties in step. -/
theorem Reachable.agrees (h : w.Reachable) : w.Agrees := by
  induction h with
  | built hb => exact agrees_of_build hb
  | step _ hs ih => exact ih.step hs

/-- With the loop begun, no request waiting and the loop running, no root is marked starting. -/
theorem Agrees.not_starting (h : w.Agrees) (hb : w.begun = true) (hc : w.commands = [])
    (he : w.ended = false) (k : List Component) : w.stageAt k ≠ some .starting := by
  intro hk
  rcases h.starting_waits k hk with hend | ⟨c, hc', -⟩ | ⟨r, hr, -⟩
  · rw [he] at hend
    cases hend
  · rw [hc] at hc'
    cases hc'
  · rw [h.begun_started hb] at hr
    cases hr

/-- Once the loop has begun and handled every request, a root is marked watching exactly when
it has a source and exactly when the pipeline handles it, and every other root is stopped. -/
theorem Agrees.settled (h : w.Agrees) (hb : w.begun = true) (hc : w.commands = [])
    (he : w.ended = false) (root : String) :
    (w.rootState root = .watching ↔ w.sources.contains root = true) ∧
      (w.sources.contains root = true ↔ PathMap.contains w.pipeline.rules root = true) ∧
      (w.rootState root ≠ .watching → w.rootState root = .stopped) := by
  have hstart := h.not_starting hb hc he (Path.components root)
  rw [rootState_eq, PathMap.contains_eq, PathMap.contains_eq]
  refine ⟨⟨fun hw => h.watching_source _ ?_, fun hs => ?_⟩, by rw [h.source_iff_rules], fun hw => ?_⟩
  · cases hk : w.stageAt (Path.components root) with
    | none => rw [hk] at hw; cases hw
    | some st => rw [hk] at hw; rw [← hw]; rfl
  · rcases h.source_marked _ hs with hw | hw
    · rw [hw]; rfl
    · exact absurd hw hstart
  · cases hk : w.stageAt (Path.components root) with
    | none => rfl
    | some st =>
      rw [hk] at hw hstart
      cases st with
      | stopped => rfl
      | starting => exact absurd rfl hstart
      | watching => exact absurd rfl hw

/-- A list of paths in which no components are found is empty. -/
theorem eq_nil_of_lookupKey_none {α : Type} (l : List (String × α))
    (h : ∀ k, lookupKey l k = none) : l = [] := by
  cases l with
  | nil => rfl
  | cons e l =>
    have he := h (Path.components e.1)
    rw [lookupKey_cons, if_pos rfl] at he
    cases he

/-- Once the loop has ended no source is left, the pipeline handles no root, every start of a
recording source has its stop, and no root is marked watching. -/
theorem Agrees.ended (h : w.Agrees) (he : w.ended = true) :
    w.sources = [] ∧ w.pipeline.roots = [] ∧
      (∀ k, w.calls.countP (SourceCall.startsAt k) = w.calls.countP (SourceCall.stopsAt k)) ∧
      ∀ root, w.rootState root ≠ .watching := by
  have hs := (h.ended_clear he).1
  have hnone : ∀ k, lookupKey w.sources k = none := fun k => by rw [hs]; rfl
  have hrules : w.pipeline.rules = [] := eq_nil_of_lookupKey_none _ fun k => by
    rw [← Option.not_isSome_iff_eq_none, ← h.source_iff_rules, hnone]
    exact Bool.false_ne_true
  refine ⟨hs, by rw [Pipeline.roots, hrules]; rfl, fun k => ?_, fun root hw => ?_⟩
  · rw [h.calls_balance k, recordingAt, hnone]
    rfl
  · rw [rootState_eq] at hw
    have hsrc := h.watching_source (Path.components root)
    rw [hnone] at hsrc
    cases hk : w.stageAt (Path.components root) with
    | none => rw [hk] at hw; cases hw
    | some st =>
      rw [hk] at hw
      exact absurd (hsrc (by rw [hk, ← hw]; rfl)) Bool.false_ne_true

/-- Along every interleaving of the two parties' moves: once the loop has begun and handled every
request sent, a root is marked watching exactly when it has a source and exactly when the
pipeline handles it, and every other root is stopped; once the loop has ended, no source is left,
the pipeline handles no root, every start of a recording source has been matched by a stop, and
no root is marked watching. -/
theorem Reachable.roots_in_step (h : w.Reachable) :
    (w.begun = true → w.commands = [] → w.ended = false → ∀ root,
      (w.rootState root = .watching ↔ w.sources.contains root = true) ∧
        (w.sources.contains root = true ↔ PathMap.contains w.pipeline.rules root = true) ∧
        (w.rootState root ≠ .watching → w.rootState root = .stopped)) ∧
    (w.ended = true → w.sources = [] ∧ w.pipeline.roots = [] ∧
      (∀ k, w.calls.countP (SourceCall.startsAt k) = w.calls.countP (SourceCall.stopsAt k)) ∧
      ∀ root, w.rootState root ≠ .watching) :=
  ⟨h.agrees.settled, h.agrees.ended⟩

/-- A root asked for after the loop has ended is marked starting for good: its request is
refused, yet the ended loop, in step, holds no source. -/
theorem root_asked_after_end_stays_starting :
    ∃ w : Watcher, w.Reachable ∧ w.ended = true ∧ w.sources = [] ∧
      w.rootState "late" = .starting := by
  obtain ⟨w₀, hb⟩ : ∃ w₀, ({ index := some {}, hasTarget := true } : WatcherSetup).build = .ok w₀ :=
    ⟨_, rfl⟩
  obtain ⟨-, -, -, hbegun, hend, -, hinit, -⟩ := build_eq hb
  have h₁ : Reachable w₀.shutdown := .step (.built hb) (.shutdown w₀)
  have h₂ : Reachable { w₀.shutdown with begun := true, initialRoots := [] } := by
    have h := h₁.step (.begin w₀.shutdown {} hbegun hend)
    rwa [show w₀.shutdown.initialRoots = [] from hinit, List.foldl_nil] at h
  have h₃ := h₂.step (.finish _ rfl rfl hend)
  have h₄ := h₃.step (.addRoot _ ⟨"late", [], false⟩)
  refine ⟨_, h₄, rfl, (h₄.roots_in_step.2 rfl).1, ?_⟩
  rw [rootState_eq]
  show (lookupKey (FileIndex.setKey _ "late" WatchState.starting) _).getD _ = _
  rw [lookupKey_setKey, if_pos rfl]
  rfl

end Watcher

end WikiSync
