import WikiSync.Script.Notifying
import WikiSync.Script.Settings
import WikiSync.Watch.Watcher

/-!
# Script operations on the watcher

A watcher over a site, driven step by step on a clock that moves only when a step lets time
pass. Its loop catches up after every step, so a request sent in one step has been handled by
the next. The watcher's sources either record what they are asked, or report the file changes
that the steps make.
-/

namespace WikiSync.Script

/-- The largest unsigned 64-bit integer. -/
def maxU64 : Int := 18446744073709551615

/-- Check one member of watch settings given as JSON. -/
def watchMemberProblem (k : String) (v : Json) : Option String :=
  let duration := match v with
    | .num (.int n) =>
      if n < 0 then some (invalidValue v "u64")
      else if n ≤ maxU64 then none
      else some (invalidType v "u64")
    | _ => some (invalidType v "u64")
  let flagType := match v with
    | .bool _ => none
    | _ => some (invalidType v "a boolean")
  match k with
  | "batch_window_ms" | "delete_grace_ms" | "inclusion_delay_ms" | "sync_debounce_ms"
  | "vcs_debounce_ms" | "config_poll_ms" => duration
  | "ignore_patterns" => match v with
    | .arr xs => (xs.find? (fun x => match x with
        | .str _ => false
        | _ => true)).map fun x => invalidType x "a string"
    | _ => some (invalidType v "a sequence")
  | "ignore_symlinks" | "cache_fields" | "vcs_only_when_view_open" => flagType
  | _ => none

/-- The members of watch settings, in the order a sequence gives them. -/
def watchMemberNames : List String :=
  ["batch_window_ms", "delete_grace_ms", "inclusion_delay_ms", "sync_debounce_ms",
    "vcs_debounce_ms", "ignore_patterns", "ignore_symlinks", "cache_fields",
    "vcs_only_when_view_open", "config_poll_ms"]

/-- Watch settings from their JSON form, an object or a sequence: members are checked in
order, a sequence may hold no more items than there are members, and missing members take
their defaults. -/
def watchConfigOf (v : Json) : Outcome WatchConfig := do
  let members ← match v with
    | .obj ms => pure ms
    | .arr xs => pure (watchMemberNames.zip xs)
    | _ => throw (badInput ("watch: " ++ invalidType v "struct WatchConfig"))
  match members.findSome? (fun (k, x) => watchMemberProblem k x) with
  | some problem => throw (badInput ("watch: " ++ problem))
  | none => pure ()
  if let .arr xs := v then
    if xs.length > watchMemberNames.length then
      throw (badInput ("watch: invalid length " ++ toString xs.length ++
        ", expected fewer elements in array"))
  let v : Json := .obj members
  let d : WatchConfig := {}
  let num (k : String) (dflt : Nat) : Nat := ((v.get? k).bind Json.nat?).getD dflt
  let bool (k : String) (dflt : Bool) : Bool := match v.get? k with
    | some (.bool b) => b
    | _ => dflt
  let patterns := match v.get? "ignore_patterns" with
    | some (.arr xs) => xs.filterMap fun x => match x with
      | .str t => some t
      | _ => none
    | _ => d.ignorePatterns
  pure { batchWindowMs := num "batch_window_ms" d.batchWindowMs
         deleteGraceMs := num "delete_grace_ms" d.deleteGraceMs
         inclusionDelayMs := num "inclusion_delay_ms" d.inclusionDelayMs
         syncDebounceMs := num "sync_debounce_ms" d.syncDebounceMs
         vcsDebounceMs := num "vcs_debounce_ms" d.vcsDebounceMs
         ignorePatterns := patterns
         ignoreSymlinks := bool "ignore_symlinks" d.ignoreSymlinks
         cacheFields := bool "cache_fields" d.cacheFields
         vcsOnlyWhenViewOpen := bool "vcs_only_when_view_open" d.vcsOnlyWhenViewOpen
         configPollMs := num "config_poll_ms" d.configPollMs }

/-- The text of a call made on a recording source. -/
def SourceCall.text : SourceCall → String
  | .exclusions root patterns => "exclusions " ++ root.getD "-" ++ " " ++ ",".intercalate patterns
  | .start root => "start " ++ root
  | .startFailed root => "start-failed " ++ root
  | .stop root => "stop " ++ root

/-- Take the calls made on recording sources, as sorted texts. -/
def takeCalls (w : Watcher) : Watcher × Json :=
  ({ w with calls := [] }, Json.ofStrings (sortStrings (w.calls.map SourceCall.text)))

/-- Take the version control notifications, sorted by root and then flag. -/
def takeNotices (w : Watcher) : Watcher × Json :=
  let sorted := w.vcsNotices.mergeSort fun a b =>
    match Path.compare a.1 b.1 with
    | .lt => true
    | .gt => false
    | .eq => !a.2 || b.2
  ({ w with vcsNotices := [] }, .arr (sorted.map fun (root, flag) => .arr [.str root, .bool flag]))

/-- Take whether synchronisation was signalled. -/
def takeSignalled (w : Watcher) : Watcher × Json :=
  ({ w with syncSignals := 0 }, .bool (w.syncSignals > 0))

/-- The answer of a request sent to the loop. -/
def sentJson (r : Except WatchError Unit) : Json :=
  match r with
  | .ok () => .null
  | .error e => (watchFailure e).toJson

/-- A watcher over a site, and whether its loop has been awaited. -/
structure WatchRun where
  /-- The site. -/
  site : Site
  /-- The watcher. -/
  watcher : Watcher
  /-- Whether the loop was awaited after shutdown. -/
  awaited : Bool := false

/-- One watcher step, before the loop catches up. -/
def watchRunStep (r : WatchRun) (step : Json) : WatchRun × Outcome Json :=
  let s := r.site
  let w := r.watcher
  match stepOp step with
  | .error f => (r, .error f)
  | .ok op =>
  let changes := s.changesOf step op
  match s.fileStep? step op with
  | some (s', .ok j) =>
    let events := changes.flatMap (w.notified s'.disk)
    ({ r with site := s', watcher := w.receive events }, .ok j)
  | some (s', .error f) => ({ r with site := s' }, .error f)
  | none =>
  let answer (run : Outcome (Watcher × Json)) : WatchRun × Outcome Json :=
    match run with
    | .ok (w', j) => ({ r with watcher := w' }, .ok j)
    | .error f => (r, .error f)
  match op with
  | "add_root" => answer do
    let (w, sent) := w.addRoot (← watchRootOf s step)
    pure (w, sentJson sent)
  | "remove_root" => answer do
    let (w, sent) := w.removeRoot (s.path (← needStr step "root"))
    pure (w, sentJson sent)
  | "update_exclusions" => answer do
    let (w, sent) := w.updateExclusions (s.path (← needStr step "root")) (← optStrings step "patterns")
    pure (w, sentJson sent)
  | "root_state" => answer do pure (w, .str (w.rootState (s.path (← needStr step "root"))).name)
  | "active_roots" => answer do pure (w, Json.ofStrings (Path.sort w.activeRoots))
  | "emit" => answer do
    let events ← rawEventsOf s step
    if w.recording then pure (w.receive events, .bool true) else pure (w, .bool false)
  | "settle" => answer do pure (w.advance s.disk (w.now + (← natOr step "ms" 50)), .null)
  | "drain" => answer do
    let (w, drained) := w.drain
    pure (w, drainedPairJson drained)
  | "load" => answer do
    let (w, fs) := w.loadDocument s.disk (← needStr step "title")
    pure (w, optFieldsJson fs)
  | "exclude" => answer do pure (w.exclude (s.path (← needStr step "path")), .null)
  | "schedule_inclusion" => answer do pure (w.scheduleInclusion (s.path (← needStr step "path")), .null)
  | "exclusions_len" => answer do pure (w, Json.ofNat w.pipeline.exclusions.len)
  | "inclusion_delay" => answer do pure (w, Json.ofNat w.pipeline.exclusions.inclusionDelay)
  | "is_shutdown" => answer do pure (w, .bool w.cancelled)
  | "cancelled" => answer do
    if w.cancelled then pure (w, .bool true) else pure (w.advance s.disk (w.now + 20), .bool false)
  | "shutdown" =>
    if r.awaited then (r, .ok .null)
    else ({ r with watcher := (w.shutdown.catchUp s.disk), awaited := true }, .ok (.obj [("ok", .bool true)]))
  | "sources" => answer do pure (takeCalls w)
  | "vcs" => answer do pure (takeNotices w)
  | "signalled" => answer do pure (takeSignalled w)
  | "index" => answer do pure (w, indexDump w.pipeline.index)
  | _ => (r, .error (unknownStep op))

/-- One watcher step; the loop then catches up. -/
def watchStep (r : WatchRun) (step : Json) : WatchRun × Outcome Json :=
  let (r, out) := watchRunStep r step
  ({ r with watcher := r.watcher.catchUp r.site.disk }, out)

/-- `watcher`: a watcher over a site, built from the request and driven step by step. -/
def watcherOp (s : Site) (req : Json) : Outcome Json := do
  let config ← match req.get? "watch" with
    | none | some .null => pure {}
    | some v => watchConfigOf v
  let roots ← (← optArray req "roots").mapM (watchRootOf s)
  let withIndex ← flagOr req "with_index" true
  let exclusions := ((req.get? "exclusions_delay_ms").bind Json.nat?).filter (· ≤ maxU64.toNat)
    |>.map Exclusions.new
  let failExclusions ← flag req "fail_exclusions"
  let factory : SourceFactory ←
    if ← flag req "real_source" then pure .notify
    else pure (.recording ⟨(← optStrings req "fail_start").map s.path, fun _ _ => failExclusions⟩)
  let setup : WatcherSetup := {
    index := if withIndex then some {} else none
    roots, config, exclusions, factory
    hasTarget := ← flagOr req "with_target" true
    notifiesVcs := ← flagOr req "with_vcs" true }
  match setup.build with
  | .error e => throw (watchFailure e)
  | .ok w =>
    let steps ← stepsOf req
    pure (resultsJson (runSteps watchStep ⟨s, w.catchUp s.disk, false⟩ steps).2)

end WikiSync.Script
