import WikiSync.Route.Basic

/-!
# Resolution by priority

Which route a router gives a document, stated without the router. A route list is installed in
a stable sort by priority, and the first installed route that takes the document wins; when
none does, the fallback route of the default root wins (`find?_setRoutes`).

The same winner has a description that does not mention sorting: of the routes that take the
document, the earliest in the list of those of least priority (`firstLeast`). Hence the winner
has the least priority of all routes taking the document, it is the first route of that
priority to take it, and reordering the list changes nothing as long as the routes of each
priority keep their order among themselves. The last theorem gathers these facts.
-/

namespace WikiSync

/-- Whether a configured route takes a document: the document's title or one of its tags is
among the route's tags (each kept once), the router's tag hierarchy puts the title below one of
them, or the router's evaluator matches a non-blank line of the route's custom filter. -/
def Router.admits (r : Router) (c : RouteConfig) (d : Document) : Bool :=
  let tags := dedup c.tags
  tags.contains d.title || d.tags.any tags.contains ||
    (c.includeTagTree && r.inTagTree d.title tags) ||
    (c.customFilterEnabled && r.customFilterMatches c.customFilter d)

/-- The order routes are installed in: by priority, lowest first. -/
def RouteConfig.before (a b : RouteConfig) : Bool :=
  decide (a.priority ≤ b.priority)

/-- Of the routes satisfying `p`, the earliest of those of least priority. -/
def firstLeast (p : RouteConfig → Bool) : List RouteConfig → Option RouteConfig
  | [] => none
  | c :: cs =>
    if p c then
      match firstLeast p cs with
      | some b => if b.priority < c.priority then some b else some c
      | none => some c
    else firstLeast p cs

/-- The route of a configuration, or the fallback route of a default root. -/
def routeOrFallback (root : String) : Option RouteConfig → Route
  | some c => Route.ofConfig c
  | none => Route.fallback root

theorem before_trans (a b c : RouteConfig) :
    RouteConfig.before a b → RouteConfig.before b c → RouteConfig.before a c := by
  simp only [RouteConfig.before, decide_eq_true_eq]
  exact Int.le_trans

theorem before_total (a b : RouteConfig) :
    (RouteConfig.before a b || RouteConfig.before b a) = true := by
  simp only [RouteConfig.before, Bool.or_eq_true, decide_eq_true_eq]
  exact Int.le_total a.priority b.priority

/-- A router takes a document into a configured route exactly when it admits it. -/
theorem claims_ofConfig (r : Router) (c : RouteConfig) (d : Document) :
    r.claims (Route.ofConfig c) d d.tags = r.admits c d := rfl

/-- The installed routes are the configurations sorted stably by priority. -/
theorem routes_setRoutes (r : Router) (L : List RouteConfig) :
    (r.setRoutes L).routes = (L.mergeSort RouteConfig.before).map Route.ofConfig := by
  unfold Router.setRoutes
  rw [List.map_mergeSort]
  intro a _ b _
  rfl

/-- A router resolves a document to the first route of the sorted list that takes it. -/
theorem find?_setRoutes (r : Router) (L : List RouteConfig) (d : Document) :
    (r.setRoutes L).resolve d =
      routeOrFallback r.defaultRoot ((L.mergeSort RouteConfig.before).find? (r.admits · d)) := by
  unfold Router.resolve
  dsimp only
  rw [routes_setRoutes, List.find?_map]
  have h : ((fun route => (r.setRoutes L).claims route d d.tags) ∘ Route.ofConfig) =
      (r.admits · d) := rfl
  rw [h]
  cases (L.mergeSort RouteConfig.before).find? (r.admits · d) <;> rfl

/-- The first route of the stable sort to satisfy `p` is the earliest of least priority. -/
theorem find?_mergeSort_before (p : RouteConfig → Bool) :
    ∀ L : List RouteConfig, (L.mergeSort RouteConfig.before).find? p = firstLeast p L
  | [] => by simp [firstLeast]
  | c :: cs => by
    obtain ⟨l₁, l₂, h₁, h₂, h₃⟩ := List.mergeSort_cons before_trans before_total c cs
    have ih := find?_mergeSort_before p cs
    rw [h₂] at ih
    have sorted := List.pairwise_mergeSort before_trans before_total (c :: cs)
    rw [h₁] at sorted
    have after : ∀ b ∈ l₂, c.priority ≤ b.priority := by
      intro b hb
      have hc := (List.pairwise_append.1 sorted).2.1
      have := (List.pairwise_cons.1 hc).1 b hb
      simpa [RouteConfig.before] using this
    rw [h₁, List.find?_append, List.find?_cons, firstLeast, ← ih, List.find?_append]
    cases hp : p c
    · simp
    · cases h₄ : l₁.find? p with
      | some x =>
        have hx : x ∈ l₁ := List.mem_of_find?_eq_some h₄
        have hlt := h₃ x hx
        simp only [RouteConfig.before, Bool.not_eq_eq_eq_not, Bool.not_true,
          decide_eq_false_iff_not, Int.not_le] at hlt
        simp [hlt]
      | none =>
        cases h₅ : l₂.find? p with
        | some b =>
          have hb : b ∈ l₂ := List.mem_of_find?_eq_some h₅
          have hle := after b hb
          simp [Int.not_lt.2 hle]
        | none => simp

/-- No route of a list satisfies `p` exactly when `firstLeast` finds none. -/
theorem firstLeast_eq_none (p : RouteConfig → Bool) :
    ∀ L : List RouteConfig, firstLeast p L = none ↔ ∀ c ∈ L, p c = false
  | [] => by simp [firstLeast]
  | c :: cs => by
    have ih := firstLeast_eq_none p cs
    unfold firstLeast
    cases hp : p c
    · simp [ih, hp]
    · simp only [if_true, List.mem_cons, forall_eq_or_imp, hp]
      cases firstLeast p cs with
      | some b => by_cases h : b.priority < c.priority <;> simp [h]
      | none => simp

/-- What `firstLeast` finds is in the list, satisfies `p`, and has the least priority of all
that do. -/
theorem firstLeast_least (p : RouteConfig → Bool) :
    ∀ (L : List RouteConfig) (c : RouteConfig), firstLeast p L = some c →
      c ∈ L ∧ p c = true ∧ ∀ c' ∈ L, p c' = true → c.priority ≤ c'.priority
  | [], c, h => by simp [firstLeast] at h
  | a :: cs, c, h => by
    unfold firstLeast at h
    have ih := firstLeast_least p cs
    cases hp : p a
    · simp only [hp, Bool.false_eq_true, if_false] at h
      obtain ⟨hm, hc, hl⟩ := ih c h
      refine ⟨List.mem_cons_of_mem a hm, hc, ?_⟩
      intro c' hc' hpc'
      rcases List.mem_cons.1 hc' with rfl | hc'
      · simp [hp] at hpc'
      · exact hl c' hc' hpc'
    · simp only [hp, if_true] at h
      cases hr : firstLeast p cs with
      | some b =>
        obtain ⟨hm, hb, hl⟩ := ih b hr
        rw [hr] at h
        by_cases hlt : b.priority < a.priority
        · simp only [hlt, if_true, Option.some.injEq] at h
          subst h
          refine ⟨List.mem_cons_of_mem a hm, hb, ?_⟩
          intro c' hc' hpc'
          rcases List.mem_cons.1 hc' with rfl | hc'
          · exact Int.le_of_lt hlt
          · exact hl c' hc' hpc'
        · simp only [hlt, if_false, Option.some.injEq] at h
          subst h
          refine ⟨List.mem_cons_self, hp, ?_⟩
          intro c' hc' hpc'
          rcases List.mem_cons.1 hc' with rfl | hc'
          · exact Int.le_refl _
          · exact Int.le_trans (Int.not_lt.1 hlt) (hl c' hc' hpc')
      | none =>
        rw [hr] at h
        simp only [Option.some.injEq] at h
        subst h
        have hn := (firstLeast_eq_none p cs).1 hr
        refine ⟨List.mem_cons_self, hp, ?_⟩
        intro c' hc' hpc'
        rcases List.mem_cons.1 hc' with rfl | hc'
        · exact Int.le_refl _
        · simp [hn c' hc'] at hpc'

/-- What `firstLeast` finds is the first route of its own priority to satisfy `p`. -/
theorem firstLeast_first (p : RouteConfig → Bool) :
    ∀ (L : List RouteConfig) (c : RouteConfig), firstLeast p L = some c →
      (L.filter (·.priority == c.priority)).find? p = some c
  | [], c, h => by simp [firstLeast] at h
  | a :: cs, c, h => by
    unfold firstLeast at h
    have ih := firstLeast_first p cs
    cases hp : p a
    · simp only [hp, Bool.false_eq_true, if_false] at h
      rw [List.filter_cons]
      split
      · rw [List.find?_cons, hp]
        exact ih c h
      · exact ih c h
    · simp only [hp, if_true] at h
      cases hr : firstLeast p cs with
      | some b =>
        rw [hr] at h
        by_cases hlt : b.priority < a.priority
        · simp only [hlt, if_true, Option.some.injEq] at h
          subst h
          have hne : (a.priority == b.priority) = false := by
            simp only [beq_eq_false_iff_ne, ne_eq]
            exact fun e => Int.lt_irrefl _ (e ▸ hlt)
          rw [List.filter_cons, hne]
          exact ih b hr
        · simp only [hlt, if_false, Option.some.injEq] at h
          subst h
          simp [hp]
      | none =>
        rw [hr] at h
        simp only [Option.some.injEq] at h
        subst h
        simp [hp]

/-- Routes in a list when the routes of each priority are the same, in the same order. -/
theorem mem_of_filter_priority {L L' : List RouteConfig}
    (same : ∀ q, L'.filter (·.priority == q) = L.filter (·.priority == q)) (c : RouteConfig) :
    c ∈ L' ↔ c ∈ L := by
  have h := congrArg (c ∈ ·) (same c.priority)
  simp only [List.mem_filter, beq_self_eq_true, and_true] at h
  exact h.to_iff

/-- `firstLeast` sees only the order of the routes of each priority among themselves. -/
theorem firstLeast_of_filter_priority (p : RouteConfig → Bool) {L L' : List RouteConfig}
    (same : ∀ q, L'.filter (·.priority == q) = L.filter (·.priority == q)) :
    firstLeast p L' = firstLeast p L := by
  have mem := mem_of_filter_priority same
  cases h : firstLeast p L with
  | none =>
    rw [firstLeast_eq_none] at h ⊢
    intro c hc
    exact h c ((mem c).1 hc)
  | some c =>
    cases h' : firstLeast p L' with
    | none =>
      rw [firstLeast_eq_none] at h'
      have hc := firstLeast_least p L c h
      have := h' c ((mem c).2 hc.1)
      simp [hc.2.1] at this
    | some c' =>
      obtain ⟨hm, hpc, hl⟩ := firstLeast_least p L c h
      obtain ⟨hm', hpc', hl'⟩ := firstLeast_least p L' c' h'
      have e : c'.priority = c.priority :=
        Int.le_antisymm (hl' c ((mem c).2 hm) hpc) (hl c' ((mem c').1 hm') hpc')
      have f := firstLeast_first p L' c' h'
      rw [e, same c.priority, firstLeast_first p L c h] at f
      rw [Option.some.injEq] at f ⊢
      exact f.symm

/-- A router given a route list resolves a document to the first route, in the stable sort of
the list by priority, that takes it, or else to the fallback route. That route is the earliest
in the list of those of least priority that take the document; the routes taking it are
exactly the ones the search can find; and any reordering of the list that keeps the routes of
each priority in their order resolves the document the same way. -/
theorem resolve_setRoutes (r : Router) (L : List RouteConfig) (d : Document) :
    (r.setRoutes L).resolve d =
      routeOrFallback r.defaultRoot ((L.mergeSort RouteConfig.before).find? (r.admits · d)) ∧
    (∀ c, (L.mergeSort RouteConfig.before).find? (r.admits · d) = some c ↔
      c ∈ L ∧ r.admits c d = true ∧ (∀ c' ∈ L, r.admits c' d = true → c.priority ≤ c'.priority) ∧
      (L.filter (·.priority == c.priority)).find? (r.admits · d) = some c) ∧
    ((L.mergeSort RouteConfig.before).find? (r.admits · d) = none ↔ ∀ c ∈ L, r.admits c d = false) ∧
    ∀ L' : List RouteConfig, (∀ q, L'.filter (·.priority == q) = L.filter (·.priority == q)) →
      (r.setRoutes L').resolve d = (r.setRoutes L).resolve d := by
  refine ⟨find?_setRoutes r L d, ?_, ?_, ?_⟩
  · intro c
    rw [find?_mergeSort_before]
    constructor
    · intro h
      exact ⟨(firstLeast_least _ L c h).1, (firstLeast_least _ L c h).2.1,
        (firstLeast_least _ L c h).2.2, firstLeast_first _ L c h⟩
    · rintro ⟨hm, hpc, hl, hf⟩
      cases h : firstLeast (r.admits · d) L with
      | none =>
        have := (firstLeast_eq_none _ L).1 h c hm
        simp [hpc] at this
      | some c' =>
        obtain ⟨hm', hpc', hl'⟩ := firstLeast_least _ L c' h
        have e : c'.priority = c.priority := Int.le_antisymm (hl' c hm hpc) (hl c' hm' hpc')
        have f := firstLeast_first _ L c' h
        rw [e, hf] at f
        exact f.symm
  · rw [find?_mergeSort_before]
    exact firstLeast_eq_none _ L
  · intro L' same
    rw [find?_setRoutes, find?_setRoutes, find?_mergeSort_before, find?_mergeSort_before,
      firstLeast_of_filter_priority _ same]

/-- Two routes taking the same document, listed in either order, resolve it the same way since
their priorities differ. -/
theorem resolve_setRoutes_swapped :
    let a : RouteConfig := ⟨"a", "/a", ["T"], false, false, "", 2, false, true⟩
    let b : RouteConfig := ⟨"b", "/b", ["T"], false, false, "", 1, false, true⟩
    let r : Router := { defaultRoot := "/wiki" }
    (∀ q, [b, a].filter (·.priority == q) = [a, b].filter (·.priority == q)) ∧
      (r.setRoutes [b, a]).resolve (Document.new "T") = (r.setRoutes [a, b]).resolve (Document.new "T") := by
  intro a b r
  have h : ∀ q, [b, a].filter (·.priority == q) = [a, b].filter (·.priority == q) := by
    intro q
    simp only [List.filter_cons, List.filter_nil, a, b]
    by_cases h1 : (1 : Int) = q
    · subst h1
      simp
    · by_cases h2 : (2 : Int) = q
      · subst h2
        simp
      · simp [h1, h2]
  exact ⟨h, (resolve_setRoutes r [a, b] (Document.new "T")).2.2.2 [b, a] h⟩

end WikiSync
