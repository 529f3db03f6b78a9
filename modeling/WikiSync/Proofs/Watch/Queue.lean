import WikiSync.Watch.ChangeQueue

/-!
# The changes a queue holds

A change queue holds one pending change per queued title: the change to load for a modified
title, or the change behind a deleted one (`ChangeQueue.changes`). Its two writes, queueing a
modification and queueing a deletion, each add their own change and drop only changes that were
there; so whatever a run of writes adds satisfies a property when every change written does
(`ChangeQueue.Adds`, `adds_queueModification`, `adds_queueDeletion`, `adds_foldl`).

The latest change of a title wins: after a run of modifications, every title modified in it
waits as a modification and not as a deletion, whatever the queue held before
(`queueModification_modified`, `foldl_modified`).
-/

namespace WikiSync

namespace ChangeQueue

/-- The changes a queue holds: those to load and those behind deletions. -/
def changes (q : ChangeQueue) : List PendingChange :=
  q.loads.map (·.2) ++ q.removals.map (·.2)

/-- `q'` holds no change but those of `q` and changes satisfying `P`. -/
def Adds (q q' : ChangeQueue) (P : PendingChange → Prop) : Prop :=
  ∀ c ∈ q'.changes, c ∈ q.changes ∨ P c

theorem Adds.refl (q : ChangeQueue) (P : PendingChange → Prop) : Adds q q P :=
  fun _ hc => .inl hc

theorem Adds.trans {q q' q'' : ChangeQueue} {P : PendingChange → Prop} (h₁ : Adds q q' P)
    (h₂ : Adds q' q'' P) : Adds q q'' P := by
  intro c hc
  rcases h₂ c hc with hc | hc
  · exact h₁ c hc
  · exact .inr hc

theorem Adds.mono {q q' : ChangeQueue} {P P' : PendingChange → Prop} (h : Adds q q' P)
    (hP : ∀ c, P c → P' c) : Adds q q' P' := by
  intro c hc
  rcases h c hc with hc | hc
  · exact .inl hc
  · exact .inr (hP c hc)

theorem mem_setChange {l : List (String × PendingChange)} {t : String} {c c' : PendingChange}
    (h : c' ∈ (setChange l t c).map (·.2)) : c' ∈ l.map (·.2) ∨ c' = c := by
  simp only [setChange, List.map_append, List.map_cons, List.map_nil, List.mem_append,
    List.mem_singleton] at h
  rcases h with h | h
  · obtain ⟨e, he, rfl⟩ := List.mem_map.mp h
    exact .inl (List.mem_map_of_mem (List.mem_filter.mp he).1)
  · exact .inr h

theorem mem_map_filter {l : List (String × PendingChange)} {f : String × PendingChange → Bool}
    {c : PendingChange} (h : c ∈ (l.filter f).map (·.2)) : c ∈ l.map (·.2) := by
  obtain ⟨e, he, rfl⟩ := List.mem_map.mp h
  exact List.mem_map_of_mem (List.mem_filter.mp he).1

/-- Queueing a modification adds its change and nothing else. -/
theorem adds_queueModification (q : ChangeQueue) (t : String) (c : PendingChange)
    {P : PendingChange → Prop} (hc : P c) : Adds q (q.queueModification t c) P := by
  intro c' hc'
  simp only [changes, queueModification, List.mem_append] at hc' ⊢
  rcases hc' with hc' | hc'
  · rcases mem_setChange hc' with hc' | rfl
    · exact .inl (.inl hc')
    · exact .inr hc
  · exact .inl (.inr (mem_map_filter hc'))

/-- Queueing a deletion adds its change and nothing else. -/
theorem adds_queueDeletion (q : ChangeQueue) (t : String) (c : PendingChange)
    {P : PendingChange → Prop} (hc : P c) : Adds q (q.queueDeletion t c) P := by
  intro c' hc'
  simp only [changes, queueDeletion, List.mem_append] at hc' ⊢
  rcases hc' with hc' | hc'
  · exact .inl (.inl (mem_map_filter hc'))
  · rcases mem_setChange hc' with hc' | rfl
    · exact .inl (.inr hc')
    · exact .inr hc

/-- Folding queue updates that each add only changes satisfying `P` adds only such changes. -/
theorem adds_foldl {β : Type} (f : ChangeQueue → β → ChangeQueue) (l : List β) (q : ChangeQueue)
    {P : PendingChange → Prop} (hf : ∀ q, ∀ b ∈ l, Adds q (f q b) P) : Adds q (l.foldl f q) P := by
  induction l generalizing q with
  | nil => exact Adds.refl q P
  | cons b l ih =>
    exact (hf q b List.mem_cons_self).trans
      (ih (f q b) fun q' b' hb' => hf q' b' (List.mem_cons_of_mem b hb'))

/-- Queueing a modification leaves its title modified and not deleted, and so it leaves every
title that was. -/
theorem queueModification_modified (q : ChangeQueue) (u x : String) (c : PendingChange)
    (h : x = u ∨ (q.isModified x = true ∧ q.isDeleted x = false)) :
    (q.queueModification u c).isModified x = true ∧
      (q.queueModification u c).isDeleted x = false := by
  unfold queueModification isModified isDeleted addTitle
  rcases h with rfl | ⟨hm, hd⟩
  · constructor
    · split
      · assumption
      · simp
    · simp
  · unfold isModified at hm
    unfold isDeleted at hd
    constructor
    · split
      · exact hm
      · simp only [List.contains_iff_mem] at hm ⊢
        exact List.mem_append_left _ hm
    · simp only [Bool.eq_false_iff, ne_eq, List.contains_iff_mem] at hd ⊢
      exact fun hx => hd (List.mem_filter.mp hx).1

/-- After a run of modifications, every title modified in the run, and every title that was
modified and not deleted before it, waits as a modification and not as a deletion. -/
theorem foldl_modified {β : Type} (f : ChangeQueue → β → ChangeQueue) (title : β → String)
    (hf : ∀ q b, ∃ c, f q b = q.queueModification (title b) c) (l : List β) (q : ChangeQueue)
    (x : String) (hx : (∃ b ∈ l, title b = x) ∨ (q.isModified x = true ∧ q.isDeleted x = false)) :
    (l.foldl f q).isModified x = true ∧ (l.foldl f q).isDeleted x = false := by
  -- the run is taken one write at a time: a title written now joins those already modified
  induction l generalizing q with
  | nil =>
    rcases hx with ⟨b, hb, -⟩ | hkept
    · cases hb
    · exact hkept
  | cons b l ih =>
    obtain ⟨c, hc⟩ := hf q b
    apply ih (f q b)
    rcases hx with ⟨b', hb', rfl⟩ | hkept
    · rcases List.mem_cons.mp hb' with rfl | hl
      · exact .inr (hc ▸ queueModification_modified q (title b') (title b') c (.inl rfl))
      · exact .inl ⟨b', hl, rfl⟩
    · exact .inr (hc ▸ queueModification_modified q (title b) x c (.inr hkept))

/-- Queueing a deletion leaves its title deleted, and every title that was deleted stays so. -/
theorem queueDeletion_deleted (q : ChangeQueue) (u x : String) (c : PendingChange)
    (h : x = u ∨ q.isDeleted x = true) : (q.queueDeletion u c).isDeleted x = true := by
  unfold queueDeletion isDeleted addTitle
  rcases h with rfl | hd
  · split
    · assumption
    · simp
  · unfold isDeleted at hd
    split
    · exact hd
    · simp only [List.contains_iff_mem] at hd ⊢
      exact List.mem_append_left _ hd

/-- After a run of deletions, every title deleted in the run, and every title that was deleted
before it, waits as a deletion. -/
theorem foldl_deleted {β : Type} (f : ChangeQueue → β → ChangeQueue) (title : β → String)
    (hf : ∀ q b, ∃ c, f q b = q.queueDeletion (title b) c) (l : List β) (q : ChangeQueue)
    (x : String) (hx : (∃ b ∈ l, title b = x) ∨ q.isDeleted x = true) :
    (l.foldl f q).isDeleted x = true := by
  induction l generalizing q with
  | nil =>
    rcases hx with ⟨b, hb, -⟩ | hkept
    · cases hb
    · exact hkept
  | cons b l ih =>
    obtain ⟨c, hc⟩ := hf q b
    apply ih (f q b)
    rcases hx with ⟨b', hb', rfl⟩ | hkept
    · rcases List.mem_cons.mp hb' with rfl | hl
      · exact .inr (hc ▸ queueDeletion_deleted q (title b') (title b') c (.inl rfl))
      · exact .inl ⟨b', hl, rfl⟩
    · exact .inr (hc ▸ queueDeletion_deleted q (title b) x c (.inr hkept))

/-! ### The change waiting for a title -/

/-- Dropping the entries of one title leaves the entry found for another. -/
theorem find?_filter_ne (l : List (String × PendingChange)) {t x : String} (hx : x ≠ t) :
    (l.filter (·.1 != t)).find? (·.1 == x) = l.find? (·.1 == x) := by
  induction l with
  | nil => rfl
  | cons e l ih =>
    by_cases he : e.1 = t
    · have hex : (e.1 == x) = false := by simp [he, Ne.symm hx]
      rw [List.filter_cons_of_neg (by simp [he]), ih, List.find?_cons_of_neg (by simp [hex])]
    · rw [List.filter_cons_of_pos (by simp [he])]
      by_cases hex : (e.1 == x) = true
      · simp only [List.find?_cons, hex]
      · rw [Bool.not_eq_true] at hex
        simp only [List.find?_cons, hex, ih]

theorem changeOf_setChange_self (l : List (String × PendingChange)) (t : String)
    (c : PendingChange) : changeOf (setChange l t c) t = some c := by
  have hnone : (l.filter (·.1 != t)).find? (·.1 == t) = none :=
    List.find?_eq_none.mpr fun e he => by simpa using (List.mem_filter.mp he).2
  simp [changeOf, setChange, List.find?_append, hnone]

theorem changeOf_setChange_of_ne (l : List (String × PendingChange)) {t x : String}
    (hx : x ≠ t) (c : PendingChange) : changeOf (setChange l t c) x = changeOf l x := by
  have hlast : [(t, c)].find? (·.1 == x) = none := by simp [Ne.symm hx]
  unfold changeOf setChange
  rw [List.find?_append, find?_filter_ne l hx, hlast, Option.or_none]

/-- A modification queued for a title is the change waiting for it. -/
theorem pending_queueModification_self (q : ChangeQueue) (t : String) (c : PendingChange) :
    (q.queueModification t c).pending t = some c := by
  have hmod : t ∈ addTitle q.modifications t := by
    unfold addTitle
    split <;> simp_all
  simp [pending, queueModification, hmod, changeOf_setChange_self]

/-- A modification of one title leaves the change waiting for another, and whether it waits as a
deletion. -/
theorem queueModification_of_ne (q : ChangeQueue) {t x : String} (hx : x ≠ t)
    (c : PendingChange) :
    (q.queueModification t c).pending x = q.pending x ∧
      (q.queueModification t c).isDeleted x = q.isDeleted x := by
  have hdel : ((q.deletions.filter fun y => y != t).contains x) = q.deletions.contains x := by
    simp [hx]
  have hmod : (addTitle q.modifications t).contains x = q.modifications.contains x := by
    unfold addTitle
    split <;> simp [hx]
  have hrem : changeOf (q.removals.filter fun e => e.1 != t) x = changeOf q.removals x := by
    unfold changeOf
    rw [find?_filter_ne _ hx]
  refine ⟨?_, hdel⟩
  simp only [pending, queueModification, hdel, hmod, hrem, changeOf_setChange_of_ne _ hx]

section Modifications

variable {β : Type} (f : ChangeQueue → β → ChangeQueue) (title : β → String)
  (change : β → PendingChange)

/-- Modifications of other titles leave the change waiting for a title, and whether it waits as
a deletion. -/
theorem foldl_modifications_of_not_mem
    (hf : ∀ q b, f q b = q.queueModification (title b) (change b)) (l : List β)
    (q : ChangeQueue) {x : String} (hx : x ∉ l.map title) :
    (l.foldl f q).pending x = q.pending x ∧ (l.foldl f q).isDeleted x = q.isDeleted x := by
  induction l generalizing q with
  | nil => exact ⟨rfl, rfl⟩
  | cons b l ih =>
    rw [List.map_cons, List.mem_cons, not_or] at hx
    rw [List.foldl_cons]
    obtain ⟨hpend, hdel⟩ := ih (f q b) hx.2
    obtain ⟨hpend₀, hdel₀⟩ := queueModification_of_ne q hx.1 (change b)
    rw [← hf] at hpend₀ hdel₀
    exact ⟨hpend.trans hpend₀, hdel.trans hdel₀⟩

/-- After a run of modifications, the change waiting for a title modified in it is the change of
its last modification. -/
theorem foldl_modifications_pending
    (hf : ∀ q b, f q b = q.queueModification (title b) (change b)) (l : List β)
    (q : ChangeQueue) {x : String} (hx : x ∈ l.map title) :
    ∃ b ∈ l, title b = x ∧ (l.foldl f q).pending x = some (change b) := by
  induction l generalizing q with
  | nil => cases hx
  | cons b l ih =>
    rw [List.foldl_cons]
    by_cases hrest : x ∈ l.map title
    · obtain ⟨b', hb', hx', hpend⟩ := ih (f q b) hrest
      exact ⟨b', List.mem_cons_of_mem b hb', hx', hpend⟩
    · have hb : title b = x := by
        rw [List.map_cons, List.mem_cons] at hx
        rcases hx with h | h
        · exact h.symm
        · exact absurd h hrest
      refine ⟨b, List.mem_cons_self, hb, ?_⟩
      rw [(foldl_modifications_of_not_mem f title change hf l (f q b) hrest).1, hf, ← hb,
        pending_queueModification_self]

end Modifications

end ChangeQueue

end WikiSync
