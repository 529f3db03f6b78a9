import Mathlib.Data.List.Induction
import WikiSync.Proofs.Watch.Queue

/-!
# The change queue against the calls made on it

A change queue is told here through the list of calls made on it, oldest first: queueing a
modification or a deletion of a title with its change, taking the load of a title, and draining
(`QueueCall`, `ChangeQueue.replay`). Every answer the queue gives after such a history is read
off the history alone:

* a drain hands over as modifications the titles queued since the previous drain whose latest
  queue call was a modification, each placed by its first modification after both that drain
  and its latest deletion, and the deletions likewise (`QueueCall.drained`); the two lists hold
  no title twice, share none, and together hold every title queued since the drain;
* taking the load of a title answers the change of its latest modification when no deletion and
  no take of the title came after it; drains do not count (`QueueCall.loadOf`);
* the change waiting for a title is that of its latest queue call since the previous drain,
  unless that call was a modification whose load has since been taken (`QueueCall.pendingOf`).

The main statement is `ChangeQueue.replay_answers`. A title queued again on its own side keeps
its place, and one queued on the other side moves to the end of that side; the order of a
drained list follows from the history through `QueueCall.survivors`, which keeps the calls no
later call overrides, and `List.eraseDups`, which keeps each title's first such call.
-/

namespace WikiSync

/-! ### Duplicate-free lists -/

section EraseDups

variable {α : Type} [BEq α] [LawfulBEq α]

/-- Filtering commutes with dropping repeats, by strong induction on the length: `eraseDups`
recurses on the tail with the head's copies removed. -/
theorem eraseDups_filter_of_length_le (p : α → Bool) :
    ∀ (n : Nat) (l : List α), l.length ≤ n → (l.filter p).eraseDups = l.eraseDups.filter p
  | _, [], _ => rfl
  | 0, _ :: _, h => by simp at h
  | n + 1, a :: as, h => by
    have hlen := List.length_filter_le (fun b => !b == a) as
    have ih := eraseDups_filter_of_length_le p n (as.filter fun b => !b == a)
      (by simp only [List.length_cons] at h; omega)
    have hswap :
        ((as.filter p).filter fun b => !b == a) = (as.filter fun b => !b == a).filter p := by
      simp only [List.filter_filter, Bool.and_comm]
    by_cases hpa : p a = true
    · rw [List.filter_cons_of_pos hpa, List.eraseDups_cons, List.eraseDups_cons,
        List.filter_cons_of_pos hpa, hswap, ih]
    · have hkeep : ((as.filter p).filter fun b => !b == a) = as.filter p :=
        List.filter_eq_self.mpr fun b hb => by
          have hb' : p b = true := (List.mem_filter.mp hb).2
          have hne : b ≠ a := fun hba => hpa (hba ▸ hb')
          simpa using hne
      rw [List.filter_cons_of_neg hpa, List.eraseDups_cons, List.filter_cons_of_neg hpa,
        ← ih, hswap.symm.trans hkeep]

theorem eraseDups_filter (p : α → Bool) (l : List α) :
    (l.filter p).eraseDups = l.eraseDups.filter p :=
  eraseDups_filter_of_length_le p l.length l (Nat.le_refl _)

theorem nodup_eraseDups_of_length_le :
    ∀ (n : Nat) (l : List α), l.length ≤ n → l.eraseDups.Nodup
  | _, [], _ => List.nodup_nil
  | 0, _ :: _, h => by simp at h
  | n + 1, a :: as, h => by
    have hlen := List.length_filter_le (fun b => !b == a) as
    rw [List.eraseDups_cons]
    refine List.nodup_cons.mpr ⟨?_, nodup_eraseDups_of_length_le n _ ?_⟩
    · rw [List.mem_eraseDups, List.mem_filter]
      simp
    · simp only [List.length_cons] at h
      omega

theorem nodup_eraseDups (l : List α) : l.eraseDups.Nodup :=
  nodup_eraseDups_of_length_le l.length l (Nat.le_refl _)

end EraseDups

/-- A title appended to a list keeps the place of its first copy once repeats are dropped. -/
theorem eraseDups_append_singleton (l : List String) (t : String) :
    (l ++ [t]).eraseDups = ChangeQueue.addTitle l.eraseDups t := by
  rw [List.eraseDups_append, ChangeQueue.addTitle]
  by_cases ht : t ∈ l
  · simp [List.removeAll, List.mem_eraseDups, ht]
  · simp [List.removeAll, List.mem_eraseDups, List.eraseDups_cons, ht]

theorem mem_addTitle {l : List String} {t x : String} :
    x ∈ ChangeQueue.addTitle l t ↔ x ∈ l ∨ x = t := by
  unfold ChangeQueue.addTitle
  split
  · rename_i ht
    have ht' : t ∈ l := by simpa using ht
    constructor
    · exact .inl
    · rintro (hx | rfl)
      · exact hx
      · exact ht'
  · simp

/-! ### Histories of calls -/

/-- One call made on a change queue. -/
inductive QueueCall where
  /-- Queue a modification of a title, with the change to load. -/
  | modify (t : String) (c : PendingChange)
  /-- Queue a deletion of a title, with the change behind it. -/
  | delete (t : String) (c : PendingChange)
  /-- Take the load of a title. -/
  | takeLoad (t : String)
  /-- Hand over both title lists. -/
  | drain

namespace QueueCall

/-- Whether a call is a drain. -/
def isDrain : QueueCall → Bool
  | .drain => true
  | _ => false

/-- The title a call queues a change of, and whether it queues it as a deletion. -/
def queued? : QueueCall → Option (String × Bool)
  | .modify t _ => some (t, false)
  | .delete t _ => some (t, true)
  | _ => none

/-- Whether a call queues a change of title `t`. -/
def queues (t : String) : QueueCall → Bool
  | .modify u _ | .delete u _ => u == t
  | _ => false

/-- Whether a call is about title `t`: it queues a change of it or takes its load. -/
def about (t : String) : QueueCall → Bool
  | .modify u _ | .delete u _ | .takeLoad u => u == t
  | .drain => false

/-- The latest call of a history that `p` accepts. -/
def latest (p : QueueCall → Bool) (h : List QueueCall) : Option QueueCall :=
  h.reverse.find? p

/-- The calls of a history made since its latest drain. -/
def sinceDrain (h : List QueueCall) : List QueueCall :=
  (h.reverse.takeWhile (!·.isDrain)).reverse

/-- Of a run of queued changes, given as title and side, the titles queued on side `deletion`
that no later change queues on the other side, in the order they were queued. -/
def survivors (deletion : Bool) : List (String × Bool) → List String
  | [] => []
  | (t, d) :: rest =>
    if d = deletion ∧ (t, !deletion) ∉ rest then t :: survivors deletion rest
    else survivors deletion rest

/-- The titles a drain hands over on side `deletion`: those whose latest queue call since the
previous drain was on that side, each placed by its first call on that side after both the drain
and its latest call on the other side. -/
def drained (deletion : Bool) (h : List QueueCall) : List String :=
  (survivors deletion ((sinceDrain h).filterMap queued?)).eraseDups

/-- What taking the load of `t` answers: the change of its latest modification, when no deletion
and no take of it came after. -/
def loadOf (h : List QueueCall) (t : String) : Option PendingChange :=
  match latest (about t) h with
  | some (.modify _ c) => some c
  | _ => none

/-- The change waiting for `t`: that of its latest queue call since the latest drain, unless that
call was a modification whose load has since been taken. -/
def pendingOf (h : List QueueCall) (t : String) : Option PendingChange :=
  match latest (queues t) (sinceDrain h) with
  | some (.delete _ c) => some c
  | some (.modify _ c) =>
    match latest (about t) h with
    | some (.takeLoad _) => none
    | _ => some c
  | _ => none

/-! #### The views of a history grown by one call -/

@[simp] theorem latest_nil (p : QueueCall → Bool) : latest p [] = none :=
  rfl

@[simp] theorem latest_append_singleton (p : QueueCall → Bool) (h : List QueueCall)
    (c : QueueCall) : latest p (h ++ [c]) = if p c then some c else latest p h := by
  simp only [latest, List.reverse_append, List.reverse_singleton, List.singleton_append,
    List.find?_cons]
  cases p c <;> rfl

theorem latest_spec {p : QueueCall → Bool} {h : List QueueCall} {c : QueueCall}
    (hc : latest p h = some c) : p c = true ∧ c ∈ h :=
  ⟨List.find?_some hc, List.mem_reverse.mp (List.mem_of_find?_eq_some hc)⟩

theorem latest_isSome {p : QueueCall → Bool} {h : List QueueCall} :
    (latest p h).isSome ↔ ∃ c ∈ h, p c = true := by
  simp [latest, List.find?_isSome]

@[simp] theorem sinceDrain_nil : sinceDrain [] = [] :=
  rfl

@[simp] theorem sinceDrain_append_singleton (h : List QueueCall) (c : QueueCall) :
    sinceDrain (h ++ [c]) = if c.isDrain then [] else sinceDrain h ++ [c] := by
  cases hc : c.isDrain <;> simp [sinceDrain, hc]

/-- A call that queues a change is no drain. -/
theorem isDrain_of_queued? {c : QueueCall} {e : String × Bool} (hc : c.queued? = some e) :
    c.isDrain = false := by
  cases c <;> simp_all [queued?, isDrain]

theorem queues_iff {t : String} {c : QueueCall} :
    c.queues t = true ↔ ∃ d, c.queued? = some (t, d) := by
  cases c <;> simp [queues, queued?]

/-- A change queued on side `deletion` is kept after those before it; one on the other side
drops the earlier changes of its title. -/
theorem survivors_append_singleton (deletion : Bool) (e : List (String × Bool)) (t : String)
    (d : Bool) :
    survivors deletion (e ++ [(t, d)]) =
      if d = deletion then survivors deletion e ++ [t]
      else (survivors deletion e).filter (· != t) := by
  induction e with
  | nil => by_cases hd : d = deletion <;> simp [survivors, hd]
  | cons u e ih =>
    obtain ⟨u, d'⟩ := u
    rw [List.cons_append]
    by_cases hd : d = deletion
    · -- a change on the same side is never the override of an earlier one
      have hmem : (u, !deletion) ∈ e ++ [(t, d)] ↔ (u, !deletion) ∈ e := by simp [hd]
      simp only [survivors, hmem, ih, if_pos hd]
      split <;> simp
    · have hmem : (u, !deletion) ∈ e ++ [(t, d)] ↔ (u, !deletion) ∈ e ∨ u = t := by
        cases d <;> cases deletion <;> simp_all
      simp only [survivors, hmem, ih, if_neg hd]
      by_cases hu : u = t
      · subst hu
        rw [if_neg (by simp)]
        split <;> simp
      · simp only [hu, or_false]
        split <;> simp [hu]

theorem drained_drain (deletion : Bool) (h : List QueueCall) :
    drained deletion (h ++ [.drain]) = [] := by
  simp [drained, survivors, isDrain]

theorem drained_takeLoad (deletion : Bool) (h : List QueueCall) (t : String) :
    drained deletion (h ++ [.takeLoad t]) = drained deletion h := by
  simp [drained, isDrain, queued?, List.filterMap_append, List.filterMap_cons]

/-- A queue call of `t` on side `d` adds `t` to that side's drained list, keeping its place if
it is there, and takes `t` off the other side's. -/
theorem drained_queued {c : QueueCall} {t : String} {d : Bool} (hc : c.queued? = some (t, d))
    (deletion : Bool) (h : List QueueCall) :
    drained deletion (h ++ [c]) =
      if d = deletion then ChangeQueue.addTitle (drained deletion h) t
      else (drained deletion h).filter (· != t) := by
  simp only [drained, sinceDrain_append_singleton, isDrain_of_queued? hc, Bool.false_eq_true, if_false,
    List.filterMap_append, List.filterMap_cons, hc, List.filterMap_nil,
    survivors_append_singleton]
  split
  · exact eraseDups_append_singleton _ t
  · exact eraseDups_filter _ _

/-- A title is drained on the side of its latest queue call since the previous drain. -/
theorem mem_drained (deletion : Bool) (h : List QueueCall) (t : String) :
    t ∈ drained deletion h ↔
      ∃ c, latest (queues t) (sinceDrain h) = some c ∧ c.queued? = some (t, deletion) := by
  induction h using List.reverseRecOn with
  | nil => simp [drained, survivors]
  | append_singleton h c ih =>
    cases hq : c.queued? with
    | none =>
      -- a take or a drain: a drain empties both sides, a take leaves them
      cases c with
      | modify u ch => simp [queued?] at hq
      | delete u ch => simp [queued?] at hq
      | takeLoad u => simpa [drained_takeLoad, isDrain, queues] using ih
      | drain => simp [drained_drain, isDrain]
    | some e =>
      obtain ⟨u, d⟩ := e
      have hqu : c.queues t = (u == t) := by
        cases c <;> simp_all [queued?, queues]
      rw [drained_queued hq, sinceDrain_append_singleton, isDrain_of_queued? hq,
        if_neg Bool.false_ne_true, latest_append_singleton, hqu]
      by_cases hut : u = t
      · subst hut
        by_cases hd : d = deletion <;> simp [hd, hq, mem_addTitle]
      · have hne : (u == t) = false := by simpa using hut
        have hcase : ∀ l : List String,
            (t ∈ (if d = deletion then ChangeQueue.addTitle l u else l.filter (· != u)) ↔ t ∈ l) :=
          fun l => by split <;> simp [mem_addTitle, Ne.symm hut]
        rw [hcase, ih, hne]
        simp

/-- A title is drained as a modification exactly when its latest queue call since the previous
drain was a modification. -/
theorem mem_drained_modify (h : List QueueCall) (t : String) :
    t ∈ drained false h ↔ ∃ c, latest (queues t) (sinceDrain h) = some (.modify t c) := by
  rw [mem_drained]
  constructor
  · rintro ⟨c, hc, hq⟩
    cases c with
    | modify u ch =>
      obtain rfl : u = t := by simpa [queued?] using hq
      exact ⟨ch, hc⟩
    | delete u ch => simp [queued?] at hq
    | takeLoad u => simp [queued?] at hq
    | drain => simp [queued?] at hq
  · rintro ⟨ch, hc⟩
    exact ⟨_, hc, rfl⟩

/-- No title is drained on both sides. -/
theorem not_mem_drained_both (h : List QueueCall) (t : String) :
    ¬(t ∈ drained false h ∧ t ∈ drained true h) := by
  rintro ⟨hm, hd⟩
  obtain ⟨c, hc, hq⟩ := (mem_drained false h t).mp hm
  obtain ⟨c', hc', hq'⟩ := (mem_drained true h t).mp hd
  obtain rfl : c = c' := Option.some.inj (hc.symm.trans hc')
  rw [hq] at hq'
  simp at hq'

/-- The two sides together hold exactly the titles queued since the previous drain. -/
theorem mem_drained_either (h : List QueueCall) (t : String) :
    t ∈ drained false h ∨ t ∈ drained true h ↔ ∃ c ∈ sinceDrain h, c.queues t = true := by
  rw [mem_drained, mem_drained, ← latest_isSome]
  constructor
  · rintro (⟨c, hc, -⟩ | ⟨c, hc, -⟩) <;> simp [hc]
  · intro hs
    obtain ⟨c, hc⟩ := Option.isSome_iff_exists.mp hs
    obtain ⟨d, hd⟩ := queues_iff.mp (latest_spec hc).1
    cases d
    · exact .inl ⟨c, hc, hd⟩
    · exact .inr ⟨c, hc, hd⟩

/-- After a modification of `t` that is its latest queue call since the latest drain, the latest
call about `t` is that modification or a take of its load. -/
theorem latest_about_of_modify {h : List QueueCall} {t : String} {c : PendingChange}
    (hm : latest (queues t) (sinceDrain h) = some (.modify t c)) :
    latest (about t) h = some (.modify t c) ∨ latest (about t) h = some (.takeLoad t) := by
  induction h using List.reverseRecOn with
  | nil => simp at hm
  | append_singleton h c' ih =>
    cases c' with
    | modify u ch =>
      by_cases hu : u = t
      · subst hu
        simp_all [isDrain, queues, about]
      · simp_all [isDrain, queues, about]
    | delete u ch =>
      by_cases hu : u = t
      · subst hu
        simp [isDrain, queues] at hm
      · simp_all [isDrain, queues, about]
    | takeLoad u =>
      by_cases hu : u = t
      · subst hu
        simp [about]
      · simp_all [isDrain, queues, about]
    | drain => simp [isDrain] at hm

end QueueCall

/-! ### The queue after a history -/

namespace ChangeQueue

open QueueCall

/-- Make one call on a queue. -/
def perform (q : ChangeQueue) : QueueCall → ChangeQueue
  | .modify t c => q.queueModification t c
  | .delete t c => q.queueDeletion t c
  | .takeLoad t => (q.takeLoad t).1
  | .drain => q.drain.1

/-- The queue after a history of calls made on an empty one. -/
def replay (h : List QueueCall) : ChangeQueue :=
  h.foldl perform {}

@[simp] theorem replay_nil : replay [] = {} :=
  rfl

@[simp] theorem replay_append_singleton (h : List QueueCall) (c : QueueCall) :
    replay (h ++ [c]) = (replay h).perform c := by
  simp [replay, List.foldl_append]

theorem changeOf_filter_self (l : List (String × PendingChange)) (t : String) :
    changeOf (l.filter (·.1 != t)) t = none := by
  have hnone : (l.filter (·.1 != t)).find? (·.1 == t) = none :=
    List.find?_eq_none.mpr fun e he => by simpa using (List.mem_filter.mp he).2
  simp [changeOf, hnone]

theorem changeOf_filter_of_ne (l : List (String × PendingChange)) {t x : String} (hx : x ≠ t) :
    changeOf (l.filter (·.1 != t)) x = changeOf l x := by
  unfold changeOf
  rw [find?_filter_ne l hx]

/-- Both title lists of the queue are the drained views of its history. -/
theorem titles_replay (h : List QueueCall) :
    (replay h).modifications = drained false h ∧ (replay h).deletions = drained true h := by
  induction h using List.reverseRecOn with
  | nil => exact ⟨rfl, rfl⟩
  | append_singleton h c ih =>
    obtain ⟨hmod, hdel⟩ := ih
    rw [replay_append_singleton]
    cases c with
    | modify t ch =>
      have hq : (QueueCall.modify t ch).queued? = some (t, false) := rfl
      simp [perform, queueModification, drained_queued hq, hmod, hdel]
    | delete t ch =>
      have hq : (QueueCall.delete t ch).queued? = some (t, true) := rfl
      simp [perform, queueDeletion, drained_queued hq, hmod, hdel]
    | takeLoad t => simp [perform, takeLoad, drained_takeLoad, hmod, hdel]
    | drain => simp [perform, drain, drained_drain]

/-- The load data the queue keeps for a title is the change of its latest modification, unless a
deletion or a take of the title came after it. -/
theorem loads_replay (h : List QueueCall) (t : String) :
    changeOf (replay h).loads t = loadOf h t := by
  induction h using List.reverseRecOn with
  | nil => rfl
  | append_singleton h c ih =>
    rw [replay_append_singleton]
    unfold loadOf at ih ⊢
    rw [latest_append_singleton]
    cases c with
    | modify u ch =>
      by_cases hu : u = t
      · subst hu
        simp [perform, queueModification, about, changeOf_setChange_self]
      · simp [perform, queueModification, about, hu, changeOf_setChange_of_ne _ (Ne.symm hu), ih]
    | delete u ch =>
      by_cases hu : u = t
      · subst hu
        simp [perform, queueDeletion, about, changeOf_filter_self]
      · simp [perform, queueDeletion, about, hu, changeOf_filter_of_ne _ (Ne.symm hu), ih]
    | takeLoad u =>
      by_cases hu : u = t
      · subst hu
        simp [perform, takeLoad, about, changeOf_filter_self]
      · simp [perform, takeLoad, about, hu, changeOf_filter_of_ne _ (Ne.symm hu), ih]
    | drain => simp [perform, drain, about, ih]

/-- The change the queue keeps behind a deleted title is that of its latest queue call since the
latest drain, when that call was a deletion. -/
theorem removals_replay (h : List QueueCall) (t : String) :
    changeOf (replay h).removals t =
      match latest (queues t) (sinceDrain h) with
      | some (.delete _ c) => some c
      | _ => none := by
  induction h using List.reverseRecOn with
  | nil => rfl
  | append_singleton h c ih =>
    rw [replay_append_singleton, sinceDrain_append_singleton]
    cases c with
    | modify u ch =>
      by_cases hu : u = t
      · subst hu
        simp [perform, queueModification, queues, isDrain, changeOf_filter_self]
      · simp [perform, queueModification, queues, isDrain, hu,
          changeOf_filter_of_ne _ (Ne.symm hu), ih]
    | delete u ch =>
      by_cases hu : u = t
      · subst hu
        simp [perform, queueDeletion, queues, isDrain, changeOf_setChange_self]
      · simp [perform, queueDeletion, queues, isDrain, hu, changeOf_setChange_of_ne _ (Ne.symm hu),
          ih]
    | takeLoad u => simp [perform, takeLoad, queues, isDrain, ih]
    | drain => simp [perform, drain, isDrain, changeOf]

/-- The change waiting for a title is that of its latest queue call since the latest drain, unless
that call was a modification whose load has since been taken. -/
theorem pending_replay (h : List QueueCall) (t : String) :
    (replay h).pending t = pendingOf h t := by
  obtain ⟨hmod, hdel⟩ := titles_replay h
  unfold pending pendingOf
  rw [hmod, hdel, removals_replay, loads_replay]
  simp only [List.contains_iff_mem]
  rcases hl : latest (queues t) (sinceDrain h) with _ | c
  · have hD : t ∉ drained true h := by simp [mem_drained, hl]
    have hM : t ∉ drained false h := by simp [mem_drained, hl]
    simp [hD, hM]
  · have hq := (latest_spec hl).1
    cases c with
    | modify u ch =>
      obtain rfl : u = t := by simpa [queues] using hq
      have hD : u ∉ drained true h := fun hD => not_mem_drained_both h u
        ⟨(mem_drained_modify h u).mpr ⟨ch, hl⟩, hD⟩
      have hM : u ∈ drained false h := (mem_drained_modify h u).mpr ⟨ch, hl⟩
      rcases latest_about_of_modify hl with ha | ha <;> simp [hD, hM, loadOf, ha]
    | delete u ch =>
      obtain rfl : u = t := by simpa [queues] using hq
      have hD : u ∈ drained true h := (mem_drained true h u).mpr ⟨_, hl, rfl⟩
      simp [hD]
    | takeLoad u => simp [queues] at hq
    | drain => simp [queues] at hq

/-- The change queue is a latest-wins queue: after any history of calls, a drain hands over as
modifications and as deletions the titles the history gives (`QueueCall.drained`, which fixes
their order), holding no title twice, none on both sides, and every title queued since the
previous drain, a title being a modification exactly when its latest queue call since that drain
was one; taking the load of a title and the change waiting for it are those the history gives. -/
theorem replay_answers (h : List QueueCall) (t : String) :
    (replay h).drain.2.modifications = drained false h ∧
      (replay h).drain.2.deletions = drained true h ∧
      (replay h).drain.2.modifications.Nodup ∧ (replay h).drain.2.deletions.Nodup ∧
      ¬(t ∈ (replay h).drain.2.modifications ∧ t ∈ (replay h).drain.2.deletions) ∧
      (t ∈ (replay h).drain.2.modifications ∨ t ∈ (replay h).drain.2.deletions ↔
        ∃ c ∈ sinceDrain h, c.queues t = true) ∧
      (t ∈ (replay h).drain.2.modifications ↔
        ∃ c, latest (queues t) (sinceDrain h) = some (.modify t c)) ∧
      ((replay h).takeLoad t).2 = loadOf h t ∧
      (replay h).pending t = pendingOf h t := by
  obtain ⟨hmod, hdel⟩ := titles_replay h
  have hdrained : (replay h).drain.2 = ⟨drained false h, drained true h⟩ := by
    rw [drain, hmod, hdel]
  rw [hdrained]
  exact ⟨rfl, rfl, nodup_eraseDups _, nodup_eraseDups _, not_mem_drained_both h t,
    mem_drained_either h t, mem_drained_modify h t, loads_replay h t, pending_replay h t⟩

/-- A title deleted and modified again moves behind the titles modified meanwhile. -/
example :
    (replay [.modify "A" (.deleted "/r/a.tid" "a.tid"), .modify "B" (.deleted "/r/b.tid" "b.tid"),
      .delete "A" (.deleted "/r/a.tid" "a.tid"), .modify "A" (.deleted "/r/a.tid" "a.tid")]).drain.2.modifications =
      ["B", "A"] := by
  decide

end ChangeQueue

end WikiSync
