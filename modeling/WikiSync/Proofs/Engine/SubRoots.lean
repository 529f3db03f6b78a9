import Mathlib
import WikiSync.Proofs.Engine.Reload
import WikiSync.Proofs.Path.Keyed

/-!
# Watched roots kept in line with the routes

Besides its main root an engine watches the roots of the routes that ask to be watched, each
once. Whenever the routes change it brings them in line (`Engine.reconcileSubRoots`): the held
roots no longer wanted are removed, then each wanted root not held yet is made on disk and
added, and one that cannot be made is passed over, to be tried again at the next reconcile.
Roots are compared by their components throughout, so a root is named by its components `k`.

`Engine.Reconciled` says what one successful reconcile leaves: the roots still wanted stay, the
new ones that could be made follow, no root is held twice, a root held and still wanted is
asked for nothing, and the requests sent are exactly `Engine.reconcileRequests`.
`Engine.subRoots_follow_routes` follows a whole run of reconciles with the routes, the disk and
the watcher changing freely in between: every step is `Reconciled`, and for each root the requests
about it alternate, an add only when it is not held and a removal only when it is, so between
two removals of a root it is added once.
-/

namespace WikiSync

/-- Whether a request starts (`true`) or stops (`false`) watching the root with components `k`;
`none` for a request about another root, or one that changes ignore patterns. -/
def Command.turnAt (k : List Component) : Command → Option Bool
  | .addRoot r => if Path.components r.root = k then some true else none
  | .removeRoot root => if Path.components root = k then some false else none
  | .updateExclusions .. => none

/-- The roots among some whose directories can be made one after another, each on the disk the
ones before it left. -/
def madeRoots (d : Disk) : List WatchRoot → List WatchRoot
  | [] => []
  | r :: rest =>
    match d.createDirAll r.root with
    | .ok d' => r :: madeRoots d' rest
    | .error _ => madeRoots d rest

theorem madeRoots_sublist (d : Disk) (roots : List WatchRoot) :
    (madeRoots d roots).Sublist roots := by
  induction roots generalizing d with
  | nil => exact List.Sublist.slnil
  | cons r rest ih =>
    unfold madeRoots
    split
    · exact (ih _).cons_cons r
    · exact (ih d).cons r

/-- A list holds a path, compared by components, when it holds its components. -/
theorem any_same_iff (roots : List String) (x : String) :
    roots.any (Path.same · x) = true ↔ Path.components x ∈ roots.map Path.components := by
  simp [Path.same_eq]

/-- The roots kept by a test of their components are those of the roots that pass it. -/
theorem mem_keys_filter {roots : List String} {p : List Component → Prop} [DecidablePred p]
    {k : List Component} :
    k ∈ (roots.filter fun s => p (Path.components s)).map Path.components ↔
      k ∈ roots.map Path.components ∧ p k := by
  constructor
  · intro h
    obtain ⟨s, hs, rfl⟩ := List.mem_map.1 h
    rw [List.mem_filter] at hs
    exact ⟨List.mem_map_of_mem hs.1, of_decide_eq_true hs.2⟩
  · rintro ⟨h, hp⟩
    obtain ⟨s, hs, rfl⟩ := List.mem_map.1 h
    exact List.mem_map_of_mem (List.mem_filter.2 ⟨hs, decide_eq_true hp⟩)

/-- Picking out the members of a list whose key is `k`, in a list whose keys are distinct, finds
one member or none. -/
theorem filterMap_key_of_nodup {α : Type} (l : List α) (key : α → List Component)
    (k : List Component) (b : Bool) (hl : (l.map key).Nodup) :
    l.filterMap (fun a => if key a = k then some b else none) =
      if k ∈ l.map key then [b] else [] := by
  induction l with
  | nil => simp
  | cons a l ih =>
    rw [List.map_cons, List.nodup_cons] at hl
    rw [List.filterMap_cons, ih hl.2]
    by_cases ha : key a = k
    · subst ha
      simp [hl.1]
    · simp [ha, Ne.symm ha]

/-- Keeping the first route of each root, after routes already kept with distinct roots, keeps
distinct roots, and the root of every route of either. -/
theorem foldl_firstPerRoot_keys (routes acc : List Route)
    (hacc : (acc.map fun q => Path.components q.rootDirectory).Nodup) :
    let kept := routes.foldl (fun acc r =>
      if acc.any fun q => Path.same q.rootDirectory r.rootDirectory then acc else acc ++ [r]) acc
    (kept.map fun q => Path.components q.rootDirectory).Nodup ∧
      ∀ k, k ∈ kept.map (fun q => Path.components q.rootDirectory) ↔
        k ∈ acc.map (fun q => Path.components q.rootDirectory) ∨
          k ∈ routes.map fun q => Path.components q.rootDirectory := by
  induction routes generalizing acc with
  | nil => simp [hacc]
  | cons r routes ih =>
    rw [List.foldl_cons]
    by_cases hheld :
        Path.components r.rootDirectory ∈ acc.map fun q => Path.components q.rootDirectory
    · have hany : (acc.any fun q => Path.same q.rootDirectory r.rootDirectory) = true := by
        simpa [Path.same_eq] using hheld
      rw [if_pos hany]
      obtain ⟨hnd, hmem⟩ := ih acc hacc
      refine ⟨hnd, fun k => ?_⟩
      rw [hmem k, List.map_cons, List.mem_cons]
      constructor
      · rintro (h | h)
        · exact Or.inl h
        · exact Or.inr (Or.inr h)
      · rintro (h | rfl | h)
        · exact Or.inl h
        · exact Or.inl hheld
        · exact Or.inr h
    · have hany : (acc.any fun q => Path.same q.rootDirectory r.rootDirectory) = false := by
        simpa [Path.same_eq] using hheld
      rw [if_neg (by simp [hany])]
      have hacc' : ((acc ++ [r]).map fun q => Path.components q.rootDirectory).Nodup := by
        rw [List.map_append, List.nodup_append]
        simpa [hacc] using hheld
      obtain ⟨hnd, hmem⟩ := ih (acc ++ [r]) hacc'
      refine ⟨hnd, fun k => ?_⟩
      rw [hmem k]
      simp only [List.map_append, List.mem_append, List.map_cons, List.map_nil, List.mem_cons,
        List.not_mem_nil, or_false, or_assoc]

namespace Engine

/-- Whether the routes ask for the root with components `k` to be watched besides the main root:
a route that asks to be watched has it as its directory, and it is not the main root. -/
def Wants (e : Engine) (k : List Component) : Prop :=
  ∃ route ∈ e.router.routes, route.watchEnabled = true ∧
    Path.components route.rootDirectory ≠ Path.components e.mainRoot ∧
    Path.components route.rootDirectory = k

instance (e : Engine) (k : List Component) : Decidable (e.Wants k) :=
  inferInstanceAs (Decidable (∃ route ∈ e.router.routes, route.watchEnabled = true ∧
    Path.components route.rootDirectory ≠ Path.components e.mainRoot ∧
    Path.components route.rootDirectory = k))

/-- The wanted roots not held yet, in the order of the routes. -/
def newRoots (e : Engine) : List WatchRoot :=
  e.subWatchRoots.filter fun r => Path.components r.root ∉ e.subRoots.map Path.components

/-- The requests a reconcile sends, in order: the held roots no longer wanted are removed, then
the new wanted roots whose directories can be made are added. -/
def reconcileRequests (e : Engine) : List Command :=
  (e.subRoots.filter fun root => ¬e.Wants (Path.components root)).map .removeRoot ++
    (madeRoots e.disk e.newRoots).map .addRoot

/-- The roots watched besides the main root are each wanted root once. -/
theorem subWatchRoots_keys (e : Engine) :
    (e.subWatchRoots.map fun r => Path.components r.root).Nodup ∧
      ∀ k, k ∈ e.subWatchRoots.map (fun r => Path.components r.root) ↔ e.Wants k := by
  let wanted := e.router.routes.filter fun r =>
    r.watchEnabled && !Path.same r.rootDirectory e.mainRoot
  have hkeys : e.subWatchRoots.map (fun r => Path.components r.root) =
      (firstPerRoot wanted).map fun q => Path.components q.rootDirectory := by
    simp only [subWatchRoots, List.map_map]
    rfl
  obtain ⟨hnd, hmem⟩ := foldl_firstPerRoot_keys wanted [] List.nodup_nil
  rw [hkeys]
  refine ⟨hnd, fun k => ?_⟩
  rw [firstPerRoot, hmem k]
  simp [wanted, Wants, Path.same_eq, and_assoc]

/-- A path is among the roots watched besides the main root exactly when the routes want it. -/
theorem any_subWatchRoots (e : Engine) (x : String) :
    (e.subWatchRoots.any fun r => Path.same r.root x) = decide (e.Wants (Path.components x)) := by
  rw [Bool.eq_iff_iff, decide_eq_true_iff, ← (subWatchRoots_keys e).2]
  simp [Path.same_eq]

/-- Removing roots that all succeed drops every held root with their components and sends one
removal for each, in order; nothing else changes. -/
theorem removeStale_eq_ok :
    ∀ (stale : List String) (e : Engine), (e.removeStale stale).2 = .ok () →
    e.removeStale stale = ({ e with
      subRoots := e.subRoots.filter fun s => Path.components s ∉ stale.map Path.components
      watcher := { e.watcher with
        commands := e.watcher.commands ++ stale.map .removeRoot } }, .ok ())
  | [], e, _ => by simp [removeStale]
  | root :: rest, e, h => by
    cases hend : e.watcher.ended
    · unfold removeStale at h ⊢
      simp only [Watcher.removeRoot, Watcher.send_of_running hend] at h ⊢
      rw [removeStale_eq_ok rest _ h]
      have hdrop : ((e.subRoots.filter fun r => !Path.same r root).filter fun s =>
          Path.components s ∉ rest.map Path.components) =
          e.subRoots.filter fun s => Path.components s ∉ (root :: rest).map Path.components := by
        rw [List.filter_filter]
        apply List.filter_congr
        intro s _
        simp [Path.same_eq, Bool.and_comm]
      dsimp only
      rw [hdrop]
      simp only [List.map_cons, List.append_assoc, List.singleton_append]
    · unfold removeStale at h
      simp [Watcher.removeRoot, Watcher.send, hend] at h

/-- Adding roots with distinct components that all succeed passes over the held ones, makes the
others on disk where it can, holds them after the held roots and asks for each. -/
theorem addWanted_ok : ∀ (roots : List WatchRoot) (e : Engine),
    (roots.map fun r => Path.components r.root).Nodup → (e.addWanted roots).2 = .ok () →
    let made := madeRoots e.disk
      (roots.filter fun r => Path.components r.root ∉ e.subRoots.map Path.components)
    (e.addWanted roots).1.subRoots = e.subRoots ++ made.map (·.root) ∧
      (e.addWanted roots).1.watcher.commands = e.watcher.commands ++ made.map .addRoot
  | [], e, _, _ => by simp [addWanted, madeRoots]
  | r :: rest, e, hnd, h => by
    rw [List.map_cons, List.nodup_cons] at hnd
    unfold addWanted at h ⊢
    by_cases held : Path.components r.root ∈ e.subRoots.map Path.components
    · rw [if_pos ((any_same_iff _ _).2 held)] at h ⊢
      rw [List.filter_cons_of_neg (by simpa using held)]
      exact addWanted_ok rest e hnd.2 h
    · rw [if_neg fun hany => held ((any_same_iff _ _).1 hany)] at h ⊢
      rw [List.filter_cons_of_pos (by simpa using held)]
      cases hd : e.disk.createDirAll r.root with
      | error err =>
        rw [hd] at h
        dsimp only at h ⊢
        simp only [madeRoots, hd]
        exact addWanted_ok rest e hnd.2 h
      | ok d =>
        cases hend : e.watcher.ended
        · have hsend := Watcher.send_of_running
            (show ((e.withDisk d).watcher.setState r.root .starting).ended = false from hend)
            (.addRoot r)
          rw [hd] at h
          simp only [Watcher.addRoot, hsend] at h ⊢
          obtain ⟨hroots, hcmds⟩ := addWanted_ok rest _ hnd.2 h
          -- the roots after `r` have other components, so holding `r` passes none of them over
          have hrest : (rest.filter fun q =>
              Path.components q.root ∉ (e.subRoots ++ [r.root]).map Path.components) =
              rest.filter fun q => Path.components q.root ∉ e.subRoots.map Path.components := by
            apply List.filter_congr
            intro q hq
            have hne : Path.components q.root ≠ Path.components r.root := fun heq =>
              hnd.1 (heq ▸ List.mem_map_of_mem hq)
            simp [hne]
          dsimp only [disk, withDisk, Watcher.setState] at hroots hcmds ⊢
          rw [hrest] at hroots hcmds
          rw [hroots, hcmds, madeRoots,
            show e.adaptor.store.disk.createDirAll r.root = .ok d from hd]
          simp
        · rw [hd] at h
          simp [Watcher.addRoot, Watcher.send, Watcher.setState, withDisk, hend] at h

/-- Once the roots not wanted are dropped, the held roots are the wanted ones. -/
theorem filter_not_stale (e : Engine) :
    (e.subRoots.filter fun s => Path.components s ∉
        (e.subRoots.filter fun root => ¬e.Wants (Path.components root)).map Path.components) =
      e.subRoots.filter fun root => e.Wants (Path.components root) := by
  apply List.filter_congr
  intro s hs
  have hstale : Path.components s ∈ (e.subRoots.filter fun root =>
      ¬e.Wants (Path.components root)).map Path.components ↔ ¬e.Wants (Path.components s) := by
    rw [@mem_keys_filter e.subRoots (fun k => ¬e.Wants k) _ _]
    exact and_iff_right (List.mem_map_of_mem hs)
  rw [decide_eq_decide, hstale, not_not]

/-- A wanted root is held among the wanted held roots exactly when it is held. -/
theorem newRoots_eq (e : Engine) :
    (e.subWatchRoots.filter fun r => Path.components r.root ∉
        (e.subRoots.filter fun root => e.Wants (Path.components root)).map Path.components) =
      e.newRoots := by
  apply List.filter_congr
  intro r hr
  have hw : e.Wants (Path.components r.root) :=
    ((subWatchRoots_keys e).2 _).1 (List.mem_map_of_mem hr)
  rw [decide_eq_decide, mem_keys_filter, and_iff_left hw]

/-- A reconcile that succeeds keeps the held roots still wanted, in order, then holds the new
wanted roots that could be made, and sends exactly its requests. -/
theorem reconcileSubRoots_ok (e : Engine) (hok : e.reconcileSubRoots.2 = .ok ()) :
    e.reconcileSubRoots.1.subRoots =
        e.subRoots.filter (fun root => e.Wants (Path.components root)) ++
          (madeRoots e.disk e.newRoots).map (·.root) ∧
      e.reconcileSubRoots.1.watcher.commands = e.watcher.commands ++ e.reconcileRequests := by
  have hstale : (e.subRoots.filter fun root => !e.subWatchRoots.any (Path.same ·.root root)) =
      e.subRoots.filter fun root => ¬e.Wants (Path.components root) := by
    apply List.filter_congr
    intro s _
    simp [any_subWatchRoots]
  unfold reconcileSubRoots at hok ⊢
  dsimp only at hok ⊢
  rw [hstale] at hok ⊢
  have hrem : (e.removeStale
      (e.subRoots.filter fun root => ¬e.Wants (Path.components root))).2 = .ok () := by
    revert hok
    cases e.removeStale _ with
    | mk e₁ sent => cases sent <;> simp
  rw [removeStale_eq_ok _ e hrem] at hok ⊢
  dsimp only at hok ⊢
  obtain ⟨hroots, hcmds⟩ := addWanted_ok e.subWatchRoots _ (subWatchRoots_keys e).1 hok
  refine ⟨hroots.trans ?_, hcmds.trans ?_⟩
  · dsimp only
    rw [filter_not_stale, newRoots_eq]
    rfl
  · dsimp only
    rw [filter_not_stale, newRoots_eq, reconcileRequests, List.append_assoc]
    rfl

/-- What a successful reconcile of `e` leaves in `e'`. -/
structure Reconciled (e e' : Engine) : Prop where
  /-- The held roots still wanted stay, in their order, and the new wanted roots that could be
  made follow. -/
  subRoots_eq : e'.subRoots = e.subRoots.filter (fun root => e.Wants (Path.components root)) ++
    (madeRoots e.disk e.newRoots).map (·.root)
  /-- No root is held twice. -/
  apart : (e'.subRoots.map Path.components).Nodup
  /-- A root is held after it exactly when the routes want it, and it was held before or has
  just been made. -/
  held_iff : ∀ k, k ∈ e'.subRoots.map Path.components ↔ e.Wants k ∧
    (k ∈ e.subRoots.map Path.components ∨
      k ∈ (madeRoots e.disk e.newRoots).map fun r => Path.components r.root)
  /-- The requests go behind those already waiting. -/
  commands_eq : e'.watcher.commands = e.watcher.commands ++ e.reconcileRequests
  /-- A root held and still wanted is neither removed nor added again. -/
  steady : ∀ k, k ∈ e.subRoots.map Path.components → e.Wants k →
    e.reconcileRequests.filterMap (Command.turnAt k) = []

variable {e : Engine}

/-- The new roots that could be made are wanted, and were not held. -/
theorem made_keys {k : List Component}
    (hk : k ∈ (madeRoots e.disk e.newRoots).map fun r => Path.components r.root) :
    e.Wants k ∧ k ∉ e.subRoots.map Path.components := by
  obtain ⟨r, hr, rfl⟩ := List.mem_map.1 hk
  have hnew := (madeRoots_sublist _ _).subset hr
  rw [newRoots, List.mem_filter] at hnew
  exact ⟨((subWatchRoots_keys e).2 _).1 (List.mem_map_of_mem hnew.1), of_decide_eq_true hnew.2⟩

/-- The new roots that could be made are distinct. -/
theorem made_nodup : ((madeRoots e.disk e.newRoots).map fun r => Path.components r.root).Nodup :=
  (subWatchRoots_keys e).1.sublist (((madeRoots_sublist _ _).trans List.filter_sublist).map _)

/-- The requests a reconcile sends about one root, when the held roots are distinct: a removal
when it is held and no longer wanted, then an add when it could be made. -/
theorem turns_eq (hdist : (e.subRoots.map Path.components).Nodup) (k : List Component) :
    e.reconcileRequests.filterMap (Command.turnAt k) =
      (if k ∈ e.subRoots.map Path.components ∧ ¬e.Wants k then [false] else []) ++
        (if k ∈ (madeRoots e.disk e.newRoots).map (fun r => Path.components r.root)
          then [true] else []) := by
  have hremove : ((e.subRoots.filter fun root => ¬e.Wants (Path.components root)).map
      Command.removeRoot).filterMap (Command.turnAt k) =
      if k ∈ (e.subRoots.filter fun root => ¬e.Wants (Path.components root)).map Path.components
        then [false] else [] := by
    have hnd : ((e.subRoots.filter fun root => ¬e.Wants (Path.components root)).map
        Path.components).Nodup := hdist.sublist (List.filter_sublist.map _)
    rw [List.filterMap_map]
    exact filterMap_key_of_nodup _ Path.components k false hnd
  have hadd : ((madeRoots e.disk e.newRoots).map Command.addRoot).filterMap (Command.turnAt k) =
      if k ∈ (madeRoots e.disk e.newRoots).map (fun r => Path.components r.root)
        then [true] else [] := by
    have hnd : ((madeRoots e.disk e.newRoots).map fun r => Path.components r.root).Nodup :=
      made_nodup
    rw [List.filterMap_map]
    exact filterMap_key_of_nodup _ (fun r : WatchRoot => Path.components r.root) k true hnd
  rw [reconcileRequests, List.filterMap_append, hremove, hadd,
    if_congr (@mem_keys_filter e.subRoots (fun k => ¬e.Wants k) _ k) rfl rfl]

/-- A reconcile that succeeds, from distinct held roots, is `Reconciled`. -/
theorem reconciled (hok : e.reconcileSubRoots.2 = .ok ())
    (hdist : (e.subRoots.map Path.components).Nodup) : Reconciled e e.reconcileSubRoots.1 := by
  obtain ⟨hroots, hcmds⟩ := reconcileSubRoots_ok e hok
  have hkept : (e.subRoots.filter fun root => e.Wants (Path.components root)).map
      Path.components ⊆ e.subRoots.map Path.components := (List.filter_sublist.map _).subset
  refine ⟨hroots, ?_, fun k => ?_, hcmds, fun k hheld hw => ?_⟩
  · rw [hroots, List.map_append, List.nodup_append, List.map_map]
    refine ⟨hdist.sublist (List.filter_sublist.map _), made_nodup, ?_⟩
    rintro a ha b hb rfl
    exact (made_keys hb).2 (hkept ha)
  · rw [hroots, List.map_append, List.mem_append, List.map_map, mem_keys_filter]
    constructor
    · rintro (⟨h, hw⟩ | h)
      · exact ⟨hw, Or.inl h⟩
      · exact ⟨(made_keys h).1, Or.inr h⟩
    · rintro ⟨hw, h | h⟩
      · exact Or.inl ⟨h, hw⟩
      · exact Or.inr h
  · have hnew : k ∉ (madeRoots e.disk e.newRoots).map fun r => Path.components r.root :=
      fun hm => (made_keys hm).2 hheld
    rw [turns_eq hdist k]
    simp [hw, hnew]

/-- A reconcile from distinct held roots leaves a root as it was and sends nothing about it, or
turns it over with one request. -/
theorem Reconciled.turn {e' : Engine} (h : Reconciled e e')
    (hdist : (e.subRoots.map Path.components).Nodup) (k : List Component) :
    (e.reconcileRequests.filterMap (Command.turnAt k) = [] ∧
        decide (k ∈ e'.subRoots.map Path.components) =
          decide (k ∈ e.subRoots.map Path.components)) ∨
      (e.reconcileRequests.filterMap (Command.turnAt k) =
          [decide (k ∈ e'.subRoots.map Path.components)] ∧
        decide (k ∈ e'.subRoots.map Path.components) =
          !decide (k ∈ e.subRoots.map Path.components)) := by
  rw [turns_eq hdist k]
  simp only [h.held_iff k]
  by_cases hm : k ∈ (madeRoots e.disk e.newRoots).map fun r => Path.components r.root
  · obtain ⟨hw, ha⟩ := made_keys hm
    simp [hw, ha, hm]
  · by_cases ha : k ∈ e.subRoots.map Path.components <;> by_cases hw : e.Wants k <;>
      simp [hw, ha, hm]

section Run

variable {es : List Engine}

/-- In a run of successful reconciles, each starting from the roots the last one left, held roots
that start distinct stay distinct. -/
theorem apart_run (hok : ∀ e ∈ es, e.reconcileSubRoots.2 = .ok ())
    (hlink : es.IsChain fun e f => f.subRoots = e.reconcileSubRoots.1.subRoots)
    (hstart : ∀ e ∈ es.head?, (e.subRoots.map Path.components).Nodup) :
    ∀ e ∈ es, (e.subRoots.map Path.components).Nodup := by
  induction es with
  | nil => simp
  | cons e rest ih =>
    have he : (e.subRoots.map Path.components).Nodup := hstart e rfl
    rw [List.isChain_cons] at hlink
    intro f hf
    rcases List.mem_cons.1 hf with rfl | hf
    · exact he
    · refine ih (fun g hg => hok g (List.mem_cons_of_mem _ hg)) hlink.2 (fun g hg => ?_) f hf
      rw [hlink.1 g hg]
      exact (reconciled (hok e List.mem_cons_self) he).apart

/-- Over a run of successful reconciles from distinct held roots, the requests about one root
alternate, starting against whether it was held. -/
theorem turns_run (k : List Component) (hok : ∀ e ∈ es, e.reconcileSubRoots.2 = .ok ())
    (hlink : es.IsChain fun e f => f.subRoots = e.reconcileSubRoots.1.subRoots)
    (hdist : ∀ e ∈ es, (e.subRoots.map Path.components).Nodup) (held : Bool)
    (hheld : ∀ e ∈ es.head?, decide (k ∈ e.subRoots.map Path.components) = held) :
    (held :: (es.flatMap reconcileRequests).filterMap (Command.turnAt k)).IsChain (· ≠ ·) := by
  induction es generalizing held with
  | nil => exact List.isChain_singleton held
  | cons e rest ih =>
    rw [List.isChain_cons] at hlink
    have he := hdist e List.mem_cons_self
    have hnow : decide (k ∈ e.subRoots.map Path.components) = held := hheld e rfl
    have hnext : ∀ f ∈ rest.head?, decide (k ∈ f.subRoots.map Path.components) =
        decide (k ∈ e.reconcileSubRoots.1.subRoots.map Path.components) := by
      intro f hf
      rw [hlink.1 f hf]
    have ih' := ih (fun f hf => hok f (List.mem_cons_of_mem _ hf)) hlink.2
      (fun f hf => hdist f (List.mem_cons_of_mem _ hf))
    rw [List.flatMap_cons, List.filterMap_append]
    rcases (reconciled (hok e List.mem_cons_self) he).turn he k with
      ⟨hturns, hsame⟩ | ⟨hturns, hflip⟩
    · rw [hturns, List.nil_append]
      exact ih' held fun f hf => (hnext f hf).trans (hsame.trans hnow)
    · rw [hturns, List.singleton_append, List.isChain_cons_cons]
      refine ⟨?_, ih' _ hnext⟩
      rw [hflip, hnow]
      cases held <;> decide

/-- Over a run of reconciles that each succeed, from held roots that are distinct, where between
two reconciles the routes, the disk and the watcher may change but the held roots are those the
last reconcile left: each reconcile keeps the held roots still wanted and holds after them the
new wanted roots whose directories could be made, holds no root twice, asks nothing about a root
held and still wanted, and sends its requests behind those waiting; and over the whole run the
requests about any one root alternate, an add only when it is not held and a removal only when
it is, so that between two removals of a root it is added once. -/
theorem subRoots_follow_routes (es : List Engine)
    (hok : ∀ e ∈ es, e.reconcileSubRoots.2 = .ok ())
    (hlink : es.IsChain fun e f => f.subRoots = e.reconcileSubRoots.1.subRoots)
    (hstart : ∀ e ∈ es.head?, (e.subRoots.map Path.components).Nodup) :
    (∀ e ∈ es, Reconciled e e.reconcileSubRoots.1) ∧
      ∀ e ∈ es.head?, ∀ k, (decide (k ∈ e.subRoots.map Path.components) ::
        (es.flatMap reconcileRequests).filterMap (Command.turnAt k)).IsChain (· ≠ ·) := by
  have hdist := apart_run hok hlink hstart
  refine ⟨fun e he => reconciled (hok e he) (hdist e he), fun e he k => ?_⟩
  exact turns_run k hok hlink hdist _ fun f hf => by rw [Option.mem_unique hf he]

end Run

/-- A workspace at `/w` whose one route asks for `/w/j` to be watched. -/
def journalEngine : Engine :=
  { (default : Engine) with
    mainRoot := "/w"
    adaptor := { (default : Adaptor) with
      router := { (default : Router) with
        routes := [{ (default : Route) with rootDirectory := "/w/j", watchEnabled := true }] } } }

/-- The journal route is reconciled at start, then dropped and reconciled again. -/
theorem journal_route_dropped :
    let es := [journalEngine, { journalEngine with
      subRoots := journalEngine.reconcileSubRoots.1.subRoots
      adaptor := { journalEngine.adaptor with
        router := { journalEngine.router with routes := [] } } }]
    (∀ e ∈ es, e.reconcileSubRoots.2 = .ok ()) ∧
      es.IsChain (fun e f => f.subRoots = e.reconcileSubRoots.1.subRoots) ∧
      (∀ e ∈ es.head?, (e.subRoots.map Path.components).Nodup) ∧
      (∀ e ∈ es, Reconciled e e.reconcileSubRoots.1) ∧
      ∀ e ∈ es.head?, ∀ k, (decide (k ∈ e.subRoots.map Path.components) ::
        (es.flatMap reconcileRequests).filterMap (Command.turnAt k)).IsChain (· ≠ ·) := by
  intro es
  have hok : ∀ e ∈ es, e.reconcileSubRoots.2 = .ok () := by
    intro e he
    have hrun : e.watcher.ended = false := by
      simp only [es, List.mem_cons, List.not_mem_nil, or_false] at he
      rcases he with rfl | rfl <;> rfl
    obtain ⟨e', he'⟩ := reconcileSubRoots_running e hrun
    rw [he']
  have hlink : es.IsChain (fun e f => f.subRoots = e.reconcileSubRoots.1.subRoots) :=
    List.isChain_pair.2 rfl
  have hstart : ∀ e ∈ es.head?, (e.subRoots.map Path.components).Nodup := by
    intro e he
    cases he
    exact List.nodup_nil
  exact ⟨hok, hlink, hstart, subRoots_follow_routes es hok hlink hstart⟩

end Engine

end WikiSync
