import Mathlib
import WikiSync.Route.TagGraph

/-!
# Tag trees are reachability

A title lies in the tag tree of some roots exactly when it reaches one of them in one or more
steps from a title to one of its recorded tags (`isInTagTree_iff`). The walk behind
`isInTagTree` is breadth first over a graph that may hold cycles and expands each title once.
What it has expanded stays closed (`Closed`): every tag of an expanded title is expanded or
waiting, and none is a root. So a path to a root from an expanded title leaves the expanded
titles through a waiting one, and nothing reachable is missed. The fuel covers the waiting
titles and the tags still to be read (`pending`), which every round lowers, so the walk never
stops early.

For a graph built by calls, a title's tags are those of the last call naming it, none when that
call removes it (`tagsOf_ofCalls`), and the tree is reachability over that relation
(`inTagTree_iff_chain`).
-/

namespace WikiSync.TagGraph

open Relation

/-- One step up the hierarchy: from a title to one of its recorded tags. -/
def Edge (g : TagGraph) (a b : String) : Prop := b ∈ g.tagsOf a

theorem tagsOf_mk_nil (x : String) : tagsOf ⟨[]⟩ x = [] := rfl

theorem tagsOf_mk_cons (e : String × List String) (es : List (String × List String))
    (x : String) : tagsOf ⟨e :: es⟩ x = if e.1 = x then e.2 else tagsOf ⟨es⟩ x := by
  by_cases h : e.1 = x <;> simp [tagsOf, h]

/-! ### The walk's fuel -/

/-- The tags still to be read: those of every entry whose title is not yet expanded. -/
def unread (g : TagGraph) (visited : List String) : Nat :=
  (g.entries.map fun e => if visited.contains e.1 then 0 else e.2.length).sum

/-- The work left to the walk: the waiting titles and the tags still to be read. -/
def pending (g : TagGraph) (queue visited : List String) : Nat :=
  queue.length + g.unread visited

theorem unread_nil (g : TagGraph) : g.unread [] = g.size := by
  simp [unread, size, List.sum_eq_foldl_nat]

/-- Expanding more titles leaves fewer tags to read. -/
theorem unread_le_of_subset (g : TagGraph) {visited visited' : List String}
    (h : visited ⊆ visited') : g.unread visited' ≤ g.unread visited := by
  apply List.sum_le_sum
  intro e _
  by_cases he : e.1 ∈ visited
  · simp [he, h he]
  · by_cases he' : e.1 ∈ visited' <;> simp [he, he']

/-- Expanding a new title reads at least its recorded tags: the first entry for it is among the
entries still unread. -/
theorem unread_expand (g : TagGraph) {x : String} {visited : List String} (hx : x ∉ visited) :
    g.unread (x :: visited) + (g.tagsOf x).length ≤ g.unread visited := by
  obtain ⟨es⟩ := g
  induction es with
  | nil => simp [unread, tagsOf_mk_nil]
  | cons e es ih =>
    have hsplit : ∀ v : List String, unread ⟨e :: es⟩ v =
        (if v.contains e.1 then 0 else e.2.length) + unread ⟨es⟩ v := fun v => by
      simp [unread]
    rw [hsplit, hsplit, tagsOf_mk_cons]
    by_cases he : e.1 = x
    · subst he
      have hle : unread ⟨es⟩ (e.1 :: visited) ≤ unread ⟨es⟩ visited :=
        unread_le_of_subset _ (List.subset_cons_self e.1 visited)
      have hout : visited.contains e.1 = false := by simpa using hx
      simp only [List.contains_cons, beq_self_eq_true, Bool.true_or, hout, if_true,
        Bool.false_eq_true, if_false]
      omega
    · have hsame : (x :: visited).contains e.1 = visited.contains e.1 := by
        simp [he]
      simp only [hsame, he, if_false]
      omega

/-! ### What the walk keeps -/

section Walk

variable (g : TagGraph) (roots : List String)

/-- What the walk keeps of the titles it has expanded: each of their tags is expanded or
waiting, and none of them is a root. -/
structure Closed (queue visited : List String) : Prop where
  covered : ∀ v ∈ visited, ∀ p ∈ g.tagsOf v, p ∈ visited ∨ p ∈ queue
  unrooted : ∀ v ∈ visited, ∀ p ∈ g.tagsOf v, p ∉ roots

variable {g roots}

theorem Closed.start (x : String) : Closed g roots [x] [] :=
  ⟨by simp, by simp⟩

/-- Dropping a waiting title that is already expanded keeps the walk closed. -/
theorem Closed.skip {x : String} {queue visited : List String}
    (h : Closed g roots (x :: queue) visited) (hx : x ∈ visited) :
    Closed g roots queue visited := by
  refine ⟨fun v hv p hp => ?_, h.unrooted⟩
  rcases h.covered v hv p hp with hp' | hp'
  · exact .inl hp'
  · rcases List.mem_cons.1 hp' with rfl | hq
    · exact .inl hx
    · exact .inr hq

/-- Expanding a waiting title none of whose tags is a root keeps the walk closed. -/
theorem Closed.expand {x : String} {queue visited : List String}
    (h : Closed g roots (x :: queue) visited) (hx : ∀ p ∈ g.tagsOf x, p ∉ roots) :
    Closed g roots (queue ++ g.tagsOf x) (x :: visited) := by
  constructor
  · intro v hv p hp
    rcases List.mem_cons.1 hv with rfl | hv
    · exact .inr (List.mem_append_right _ hp)
    · rcases h.covered v hv p hp with hp' | hp'
      · exact .inl (List.mem_cons_of_mem _ hp')
      · rcases List.mem_cons.1 hp' with rfl | hq
        · exact .inl List.mem_cons_self
        · exact .inr (List.mem_append_left _ hq)
  · intro v hv p hp
    rcases List.mem_cons.1 hv with rfl | hv
    · exact hx p hp
    · exact h.unrooted v hv p hp

/-- A path to a root from an expanded title passes through a waiting one. -/
theorem Closed.leave {queue visited : List String} (h : Closed g roots queue visited)
    {v r : String} (hr : r ∈ roots) (hv : v ∈ visited) (hp : TransGen g.Edge v r) :
    ∃ q ∈ queue, TransGen g.Edge q r := by
  induction hp using TransGen.head_induction_on with
  | single hvr => exact absurd hr (h.unrooted _ hv _ hvr)
  | head hvc hcr ih =>
    rcases h.covered _ hv _ hvc with hc | hc
    · exact ih hc
    · exact ⟨_, hc, hcr⟩

/-- Whatever the fuel, a walk that answers true has found a root above a waiting title. -/
theorem reaches_sound {fuel : Nat} {queue visited : List String}
    (h : g.reaches roots fuel queue visited = true) :
    ∃ q ∈ queue, ∃ r ∈ roots, TransGen g.Edge q r := by
  fun_induction g.reaches roots fuel queue visited with
  | case1 => simp at h
  | case2 => simp at h
  | case3 fuel current queue visited _ ih =>
    obtain ⟨q, hq, r, hr, hqr⟩ := ih h
    exact ⟨q, List.mem_cons_of_mem _ hq, r, hr, hqr⟩
  | case4 fuel current queue visited _ parents hany =>
    obtain ⟨p, hp, hpr⟩ := List.any_eq_true.1 hany
    exact ⟨current, List.mem_cons_self, p, List.contains_iff_mem.1 hpr, .single hp⟩
  | case5 fuel current queue visited _ parents _ ih =>
    obtain ⟨q, hq, r, hr, hqr⟩ := ih h
    rcases List.mem_append.1 hq with hq | hq
    · exact ⟨q, List.mem_cons_of_mem _ hq, r, hr, hqr⟩
    · exact ⟨current, List.mem_cons_self, r, hr, .head hq hqr⟩

/-- A closed walk with fuel above its pending work finds every root above a waiting title. -/
theorem reaches_complete {fuel : Nat} {queue visited : List String}
    (hc : Closed g roots queue visited) (hfuel : g.pending queue visited < fuel)
    (hpath : ∃ q ∈ queue, ∃ r ∈ roots, TransGen g.Edge q r) :
    g.reaches roots fuel queue visited = true := by
  fun_induction g.reaches roots fuel queue visited with
  | case1 => simp at hfuel
  | case2 => simp at hpath
  | case3 fuel current queue visited hvis ih =>
    have hmem : current ∈ visited := List.contains_iff_mem.1 hvis
    have hc' := hc.skip hmem
    apply ih hc' (by simp [pending] at hfuel ⊢; omega)
    obtain ⟨q, hq, r, hr, hqr⟩ := hpath
    rcases List.mem_cons.1 hq with rfl | hq
    · obtain ⟨q', hq', hq'r⟩ := hc'.leave hr hmem hqr
      exact ⟨q', hq', r, hr, hq'r⟩
    · exact ⟨q, hq, r, hr, hqr⟩
  | case4 => rfl
  | case5 fuel current queue visited hvis parents hany ih =>
    have hnew : current ∉ visited := by simpa [List.contains_iff_mem] using hvis
    have hnot : ∀ p ∈ g.tagsOf current, p ∉ roots := by
      intro p hp hpr
      exact absurd (List.any_eq_true.2 ⟨p, hp, List.contains_iff_mem.2 hpr⟩) (by simpa using hany)
    -- expanding `current` reads its tags, so the pending work drops by at least one
    have hwork : g.pending (queue ++ parents) (current :: visited) < fuel := by
      have := g.unread_expand hnew
      have hparents : parents = g.tagsOf current := rfl
      simp only [pending, hparents, List.length_append, List.length_cons] at hfuel ⊢
      omega
    apply ih (hc.expand hnot) hwork
    obtain ⟨q, hq, r, hr, hqr⟩ := hpath
    rcases List.mem_cons.1 hq with rfl | hq
    · obtain ⟨b, hb, hbr⟩ := TransGen.head'_iff.1 hqr
      rcases reflTransGen_iff_eq_or_transGen.1 hbr with rfl | hbr
      · exact absurd hr (hnot _ hb)
      · exact ⟨b, List.mem_append_right _ hb, r, hr, hbr⟩
    · exact ⟨q, List.mem_append_left _ hq, r, hr, hqr⟩

end Walk

/-- A title lies in the tag tree of some roots exactly when it reaches one of them in one or more
steps up the hierarchy. The walk's fuel never runs out first, cycles included. -/
theorem isInTagTree_iff (g : TagGraph) (x : String) (roots : List String) :
    g.isInTagTree x roots = true ↔ ∃ r ∈ roots, TransGen g.Edge x r := by
  unfold isInTagTree
  by_cases hroots : roots = []
  · simp [hroots]
  · rw [if_neg (by simpa using hroots)]
    constructor
    · intro h
      obtain ⟨q, hq, r, hr, hqr⟩ := reaches_sound h
      rw [List.mem_singleton.1 hq] at hqr
      exact ⟨r, hr, hqr⟩
    · rintro ⟨r, hr, hxr⟩
      have hfuel : g.pending [x] [] < g.size + 2 := by
        simp only [pending, unread_nil, List.length_singleton]
        omega
      exact reaches_complete (Closed.start x) hfuel ⟨x, List.mem_singleton_self x, r, hr, hxr⟩

/-! ### Graphs built by calls -/

/-- A call that records or forgets the tags of a title. -/
inductive Call where
  | setTags (title : String) (tags : List String)
  | remove (title : String)

/-- The title a call names. -/
def Call.title : Call → String
  | .setTags title _ => title
  | .remove title => title

/-- What a call does to a graph. -/
def Call.run (g : TagGraph) : Call → TagGraph
  | .setTags title tags => g.setTags title tags
  | .remove title => g.remove title

/-- The graph a sequence of calls builds from an empty one. -/
def ofCalls (calls : List Call) : TagGraph := calls.foldl Call.run empty

/-- The relation calls record: a title's tags are those of the last call naming it, none when
that call removes it or when no call names it. -/
def lastTags (calls : List Call) (title : String) : List String :=
  match calls.reverse.find? (·.title == title) with
  | some (.setTags _ tags) => tags
  | _ => []

/-- A title's tags are those of its first entry. -/
theorem tagsOf_eq_find? (g : TagGraph) (x : String) :
    g.tagsOf x = ((g.entries.find? (·.1 == x)).map (·.2)).getD [] := by
  cases h : g.entries.find? (·.1 == x) <;> simp [tagsOf, h]

/-- Dropping a title's entries hides that title and no other. -/
theorem find?_filter_ne (g : TagGraph) (title x : String) :
    (g.entries.filter (·.1 != title)).find? (·.1 == x) =
      if title = x then none else g.entries.find? (·.1 == x) := by
  rw [List.find?_filter]
  split_ifs with h
  · subst h
    exact List.find?_eq_none.2 (by simp)
  · apply List.find?_congr
    intro e _
    by_cases hx : e.1 = x
    · simp [hx, Ne.symm h]
    · simp [hx]

theorem tagsOf_setTags (g : TagGraph) (title x : String) (tags : List String) :
    (g.setTags title tags).tagsOf x = if title = x then tags else g.tagsOf x := by
  rw [tagsOf_eq_find?, tagsOf_eq_find?, setTags, List.find?_append, find?_filter_ne]
  by_cases h : title = x <;> simp [h]

theorem tagsOf_remove (g : TagGraph) (title x : String) :
    (g.remove title).tagsOf x = if title = x then [] else g.tagsOf x := by
  rw [tagsOf_eq_find?, tagsOf_eq_find?, remove, find?_filter_ne]
  by_cases h : title = x <;> simp [h]

theorem tagsOf_ofCalls (calls : List Call) (x : String) :
    (ofCalls calls).tagsOf x = lastTags calls x := by
  induction calls using List.reverseRecOn with
  | nil => rfl
  | append_singleton calls c ih =>
    have hrun : ofCalls (calls ++ [c]) = Call.run (ofCalls calls) c := by
      simp [ofCalls, List.foldl_append]
    have hlast : lastTags (calls ++ [c]) x =
        if c.title = x then lastTags [c] x else lastTags calls x := by
      by_cases h : c.title = x <;> simp [lastTags, h]
    rw [hrun, hlast, ← ih]
    cases c with
    | setTags title tags =>
      by_cases h : title = x <;> simp [Call.run, Call.title, lastTags, tagsOf_setTags, h]
    | remove title =>
      by_cases h : title = x <;> simp [Call.run, Call.title, lastTags, tagsOf_remove, h]

/-- For a graph built by any calls, a title lies in the tag tree of some roots exactly when a
chain of one or more steps, each from a title to one of the tags the last call naming it
recorded, leads from the title to a root. -/
theorem inTagTree_iff_chain (calls : List Call) (x : String) (roots : List String) :
    (ofCalls calls).isInTagTree x roots = true ↔
      ∃ r ∈ roots, TransGen (fun a b => b ∈ lastTags calls a) x r := by
  have hedge : (ofCalls calls).Edge = fun a b => b ∈ lastTags calls a := by
    funext a b
    simp [Edge, tagsOf_ofCalls]
  rw [isInTagTree_iff, hedge]

/-- A root is in its own tree only on a cycle back to it. -/
example : (ofCalls [.setTags "A" ["B"], .setTags "B" ["A"]]).isInTagTree "A" ["A"] = true ∧
    (ofCalls [.setTags "Week" ["Journal"]]).isInTagTree "Journal" ["Journal"] = false := by
  decide

end WikiSync.TagGraph
