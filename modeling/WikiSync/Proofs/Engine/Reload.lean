import WikiSync.Engine.Basic
import WikiSync.Proofs.Disk.Removal

/-!
# Reloading routes and settings

A reload is a run of steps that may fail: reading the routes or the settings file, then sending
requests to the watcher, which are refused once its loop has ended. Every change a reload makes
comes after the reading: the settings are replaced, the new routes installed, and the watched roots
brought in line by requests to the watcher.

While the watcher's loop runs no request is refused, so a reload fails only where it reads: a
failed reload of the routes is a failure of the route source, and a failed reload of the settings a
settings file that does not load; either way the engine is left exactly as it was
(`Engine.failed_reload_changes_nothing`). For the settings this needs the routes to come from a
fixed list or from the engine's own settings file, as they do in every engine a start builds
(`EngineSetup.start_readsOwnRoutes`): a file that loads for the settings then loads for the
routes as well.
-/

namespace WikiSync

namespace Watcher

variable {w : Watcher}

/-- A loop that has not ended takes every request, behind the others. -/
theorem send_of_running (h : w.ended = false) (c : Command) :
    w.send c = ({ w with commands := w.commands ++ [c] }, .ok ()) := by
  unfold send
  rw [if_neg (by simp [h])]

@[simp] theorem ended_send (w : Watcher) (c : Command) : (w.send c).1.ended = w.ended := by
  unfold send
  split <;> rfl

end Watcher

/-- Where an engine's routes come from: a fixed list, or its own settings file. -/
def Engine.ReadsOwnRoutes (e : Engine) : Prop :=
  (∃ rs, e.routes = .fixed rs) ∨ ∃ workspace, e.routes = .settingsFile e.settingsPath workspace

namespace Engine

/-- Removing stale roots while the loop runs succeeds and leaves the loop running. -/
theorem removeStale_running :
    ∀ (roots : List String) (e : Engine), e.watcher.ended = false →
      ∃ e', e.removeStale roots = (e', .ok ()) ∧ e'.watcher.ended = false
  | [], e, h => ⟨e, rfl, h⟩
  | root :: rest, e, h => by
    unfold removeStale
    simp only [Watcher.removeRoot, Watcher.send_of_running h]
    exact removeStale_running rest _ h

/-- Adding wanted roots while the loop runs succeeds and leaves the loop running; a root that
cannot be made on disk is passed over. -/
theorem addWanted_running :
    ∀ (roots : List WatchRoot) (e : Engine), e.watcher.ended = false →
      ∃ e', e.addWanted roots = (e', .ok ()) ∧ e'.watcher.ended = false
  | [], e, h => ⟨e, rfl, h⟩
  | r :: rest, e, h => by
    unfold addWanted
    split
    · exact addWanted_running rest e h
    · split
      · exact addWanted_running rest e h
      · rename_i d' _
        have hsend := Watcher.send_of_running
          (show ((e.withDisk d').watcher.setState r.root .starting).ended = false from h) (.addRoot r)
        simp only [Watcher.addRoot, hsend]
        exact addWanted_running rest _ h

/-- Bringing the watched roots in line while the loop runs succeeds. -/
theorem reconcileSubRoots_running (e : Engine) (h : e.watcher.ended = false) :
    ∃ e', e.reconcileSubRoots = (e', .ok ()) := by
  obtain ⟨e₁, hstale, hend⟩ := removeStale_running
    (e.subRoots.filter fun root => !e.subWatchRoots.any (Path.same ·.root root)) e h
  obtain ⟨e₂, hwanted, -⟩ := addWanted_running e.subWatchRoots e₁ hend
  refine ⟨e₂, ?_⟩
  unfold reconcileSubRoots
  dsimp only
  rw [hstale]
  exact hwanted

/-- While the loop runs, reloading the routes fails exactly when the route source does, and then
changes nothing. -/
theorem reloadRoutes_running (e : Engine) (h : e.watcher.ended = false) :
    (∀ err, e.routes.routes e.disk = .error err → e.reloadRoutes = (e, .error err)) ∧
      ∀ rs, e.routes.routes e.disk = .ok rs → ∃ e', e.reloadRoutes = (e', .ok rs.length) := by
  refine ⟨fun err herr => ?_, fun rs hrs => ?_⟩
  · unfold reloadRoutes
    rw [herr]
  · obtain ⟨e', hrec⟩ := reconcileSubRoots_running
      { e with adaptor := { e.adaptor with router := e.router.setRoutes rs } } h
    refine ⟨e', ?_⟩
    unfold reloadRoutes
    rw [hrs]
    dsimp only
    rw [hrec]

/-- Sending new patterns to some roots while the loop runs succeeds, changes only the watcher,
and leaves the loop running. -/
theorem refreshExclusions_running :
    ∀ (roots : List String) (e : Engine), e.watcher.ended = false →
      ∃ w, e.refreshExclusions roots = ({ e with watcher := w }, .ok ()) ∧ w.ended = false
  | [], e, h => ⟨e.watcher, rfl, h⟩
  | root :: rest, e, h => by
    have hsend := Watcher.send_of_running h
      (.updateExclusions root (e.settings.ignorePatternsFor e.mainRoot root))
    obtain ⟨w, heq, hend⟩ := refreshExclusions_running rest
      { e with watcher := (e.watcher.updateExclusions root
        (e.settings.ignorePatternsFor e.mainRoot root)).1 } (by simp [Watcher.updateExclusions, h])
    refine ⟨w, ?_, hend⟩
    unfold refreshExclusions
    simp only [Watcher.updateExclusions, hsend] at heq ⊢
    exact heq

/-- While the loop runs, a settings file that loads is reloaded without failing, when the routes
come from a fixed list or from that file. -/
theorem reloadSettings_running (e : Engine) (h : e.watcher.ended = false) (hown : e.ReadsOwnRoutes)
    {s : Settings} (hload : Settings.loadFrom e.disk [] e.settingsPath = .ok s) :
    ∃ e' n, e.reloadSettings = (e', .ok n) := by
  obtain ⟨w, hrefresh, hend⟩ : ∃ w,
      (if (e.settings.watch.ignorePatterns != s.watch.ignorePatterns ||
          e.settings.sync.attachmentsDir != s.sync.attachmentsDir) then
        ({ e with settings := s } : Engine).refreshExclusions e.watcher.activeRoots
      else (({ e with settings := s } : Engine), .ok ())) =
        ({ e with settings := s, watcher := w }, .ok ()) ∧ w.ended = false := by
    split
    · exact refreshExclusions_running _ { e with settings := s } h
    · exact ⟨e.watcher, rfl, h⟩
  obtain ⟨rs, hrs⟩ : ∃ rs, e.routes.routes e.disk = .ok rs := by
    rcases hown with ⟨rs, hsrc⟩ | ⟨workspace, hsrc⟩
    · exact ⟨rs, by rw [hsrc]; rfl⟩
    · exact ⟨s.routes.map (·.under workspace), by simp [hsrc, RouteSource.routes, hload]⟩
  obtain ⟨e', hroutes⟩ := (reloadRoutes_running { e with settings := s, watcher := w } hend).2 rs hrs
  refine ⟨e', rs.length, ?_⟩
  unfold reloadSettings
  rw [hload]
  dsimp only
  rw [hrefresh]
  exact hroutes

/-- Removing stale roots keeps the route source and the settings file. -/
theorem removeStale_keeps : ∀ (roots : List String) (e : Engine),
    (e.removeStale roots).1.routes = e.routes ∧
      (e.removeStale roots).1.settingsPath = e.settingsPath
  | [], _ => ⟨rfl, rfl⟩
  | root :: rest, e => by
    unfold removeStale
    dsimp only
    split
    · exact ⟨rfl, rfl⟩
    · exact removeStale_keeps rest _

/-- Adding wanted roots keeps the route source and the settings file. -/
theorem addWanted_keeps : ∀ (roots : List WatchRoot) (e : Engine),
    (e.addWanted roots).1.routes = e.routes ∧ (e.addWanted roots).1.settingsPath = e.settingsPath
  | [], _ => ⟨rfl, rfl⟩
  | r :: rest, e => by
    unfold addWanted
    split
    · exact addWanted_keeps rest e
    · split
      · exact addWanted_keeps rest e
      · dsimp only
        split
        · exact ⟨rfl, rfl⟩
        · exact addWanted_keeps rest _

/-- Bringing the watched roots in line keeps the route source and the settings file. -/
theorem reconcileSubRoots_keeps (e : Engine) :
    e.reconcileSubRoots.1.routes = e.routes ∧ e.reconcileSubRoots.1.settingsPath = e.settingsPath := by
  have hstale := removeStale_keeps
    (e.subRoots.filter fun root => !e.subWatchRoots.any (Path.same ·.root root)) e
  unfold reconcileSubRoots
  dsimp only
  split
  · rename_i e₁ _ heq
    rw [heq] at hstale
    exact hstale
  · rename_i e₁ heq
    rw [heq] at hstale
    obtain ⟨hroutes, hpath⟩ := addWanted_keeps e.subWatchRoots e₁
    exact ⟨hroutes.trans hstale.1, hpath.trans hstale.2⟩

/-- An engine that reads its own routes still does once its watched roots are brought in line
and it has caught up, as a start ends. -/
theorem ReadsOwnRoutes.of_reconcile {e₀ e : Engine} (h₀ : e₀.ReadsOwnRoutes)
    (h : (match e₀.reconcileSubRoots with
      | (e, .ok ()) => pure e.catchUp
      | (_, .error err) => throw err : Except SyncError Engine) = .ok e) : e.ReadsOwnRoutes := by
  obtain ⟨hroutes, hpath⟩ := reconcileSubRoots_keeps e₀
  split at h
  · rename_i _ e₁ hrec
    cases h
    rw [hrec] at hroutes hpath
    unfold ReadsOwnRoutes
    rw [show e₁.catchUp.routes = e₀.routes from hroutes,
      show e₁.catchUp.settingsPath = e₀.settingsPath from hpath]
    exact h₀
  · cases h

end Engine

/-- Every engine a start builds without a route source of the host's, or with a fixed list,
reads its routes from a fixed list or from its own settings file. -/
theorem EngineSetup.start_readsOwnRoutes {s : EngineSetup} {e : Engine}
    (hgiven : ∀ src, s.routes = some src → ∃ rs, src = .fixed rs) (h : s.start = .ok e) :
    e.ReadsOwnRoutes := by
  unfold EngineSetup.start at h
  dsimp only at h
  split at h
  · obtain ⟨_, hthrow, -⟩ := exceptBind_eq_ok h
    cases hthrow
  split at h
  all_goals
    obtain ⟨settings, -, h⟩ := exceptBind_eq_ok h
    obtain ⟨d, -, h⟩ := exceptBind_eq_ok h
    obtain ⟨watcher, -, h⟩ := exceptBind_eq_ok h
    refine Engine.ReadsOwnRoutes.of_reconcile ?_ h
    unfold Engine.ReadsOwnRoutes
    dsimp only
    split
    · rename_i src hsrc
      obtain ⟨rs, rfl⟩ := hgiven src hsrc
      exact .inl ⟨rs, rfl⟩
    · split
      · exact .inr ⟨_, rfl⟩
      · exact .inl ⟨_, rfl⟩

namespace Engine

/-- While the watcher's loop runs, a failed reload changes nothing. Reloading the routes fails
only when the route source fails, with its error; reloading the settings fails only when the
settings file does not load, with a configuration error naming why, when the routes come from a
fixed list or from that file. Either way the engine is left exactly as it was: its settings,
routes and watched roots, and its watcher, which has been sent no request. -/
theorem failed_reload_changes_nothing (e : Engine) (hrun : e.watcher.ended = false)
    (hown : e.ReadsOwnRoutes) :
    (∀ err, e.reloadRoutes.2 = .error err →
      e.reloadRoutes = (e, .error err) ∧ e.routes.routes e.disk = .error err) ∧
    (∀ err, e.reloadSettings.2 = .error err →
      e.reloadSettings = (e, .error err) ∧
        ∃ le, Settings.loadFrom e.disk [] e.settingsPath = .error le ∧ err = .config le.text) := by
  obtain ⟨hfail, hok⟩ := reloadRoutes_running e hrun
  refine ⟨fun err herr => ?_, fun err herr => ?_⟩
  · cases hsrc : e.routes.routes e.disk with
    | error err' =>
      rw [hfail err' hsrc] at herr ⊢
      cases herr
      exact ⟨rfl, rfl⟩
    | ok rs =>
      obtain ⟨e', he'⟩ := hok rs hsrc
      rw [he'] at herr
      cases herr
  · cases hload : Settings.loadFrom e.disk [] e.settingsPath with
    | error le =>
      have hres : e.reloadSettings = (e, .error (.config le.text)) := by
        unfold reloadSettings
        rw [hload]
      rw [hres] at herr ⊢
      cases herr
      exact ⟨rfl, le, rfl, rfl⟩
    | ok s =>
      obtain ⟨e', n, hres⟩ := reloadSettings_running e hrun hown hload
      rw [hres] at herr
      cases herr

/-- A workspace `w` whose settings file `w/s.toml` holds a lone `[`, which does not parse. -/
def brokenSettingsDisk : Disk :=
  ⟨[(["w"], .dir), (["w", "s.toml"], .file [91] 0)], 0⟩

theorem loadFrom_brokenSettingsDisk :
    ∃ le, Settings.loadFrom brokenSettingsDisk [] "w/s.toml" = .error le := by
  have hfail : (Settings.loadFrom brokenSettingsDisk [] "w/s.toml").toBool = false := by
    decide +kernel
  cases hload : Settings.loadFrom brokenSettingsDisk [] "w/s.toml" with
  | error le => exact ⟨le, rfl⟩
  | ok s =>
    rw [hload] at hfail
    cases hfail

/-- An engine that reads its routes from its own settings file, with its loop running, once that
file no longer parses: reloading the settings fails, and so does reloading the routes, and each
leaves the engine exactly as it was. -/
theorem settings_file_reload_failure_changes_nothing :
    let e : Engine := { (default : Engine) with
      settingsPath := "w/s.toml"
      routes := .settingsFile "w/s.toml" "w"
      adaptor := { (default : Adaptor) with store := { disk := brokenSettingsDisk } } }
    e.watcher.ended = false ∧ e.ReadsOwnRoutes ∧
      (∃ err, e.reloadRoutes.2 = .error err) ∧ (∃ err, e.reloadSettings.2 = .error err) ∧
      (∀ err, e.reloadRoutes.2 = .error err →
        e.reloadRoutes = (e, .error err) ∧ e.routes.routes e.disk = .error err) ∧
      (∀ err, e.reloadSettings.2 = .error err →
        e.reloadSettings = (e, .error err) ∧
          ∃ le, Settings.loadFrom e.disk [] e.settingsPath = .error le ∧ err = .config le.text) := by
  intro e
  have hrun : e.watcher.ended = false := rfl
  have hown : e.ReadsOwnRoutes := .inr ⟨"w", rfl⟩
  obtain ⟨le, hload⟩ := loadFrom_brokenSettingsDisk
  have hroutes : ∃ err, e.reloadRoutes.2 = .error err := by
    refine ⟨.config ("Failed to load " ++ "w/s.toml" ++ ": " ++ le.text), ?_⟩
    unfold reloadRoutes
    rw [show e.routes.routes e.disk = .error (.config ("Failed to load " ++ "w/s.toml" ++ ": " ++
      le.text)) by simp only [RouteSource.routes, e, Engine.disk, hload]]
  have hsettings : ∃ err, e.reloadSettings.2 = .error err := by
    refine ⟨.config le.text, ?_⟩
    unfold reloadSettings
    rw [show Settings.loadFrom e.disk [] e.settingsPath = .error le from hload]
  exact ⟨hrun, hown, hroutes, hsettings, failed_reload_changes_nothing e hrun hown⟩

end Engine

end WikiSync
